import SchemaTyping.Proofs.Graph.Search
import SchemaTyping.Proofs.Visit.Equations

/-!
# Layers and replacements

A visit puts the layer of its context around what it finds without one. The exceptions take the
layer in: an array and a collection have a layer of their own that takes its place, and bytes in an
array are a string. A use that is replaced is its strongest replacement, whatever the weaker ones
are, unless one of those is an error.
-/

namespace SchemaTyping

/-! ### Contexts -/

namespace Context

lemma eq_plain_of_not_wraps {context : Context} (h : ¬ context.wraps) : context = plain := by
  obtain ⟨inArray, inCollection⟩ := context
  simp only [wraps, Bool.or_eq_true, not_or, Bool.not_eq_true] at h
  rw [h.1, h.2]
  rfl

lemma wrap_of_wraps {context : Context} (h : context.wraps) (type : SchemaType) :
    context.wrap type = .array type := by
  rw [wrap, h, SchemaType.wrapIf, if_pos rfl]

lemma wrap_plain_map (result : Except MetadataError SchemaType) :
    plain.wrap <$> result = result := by
  cases result <;> rfl

end Context

namespace Classifier

variable {classifier : Classifier} {stack : UseStack}

/-! ### Replacements -/

lemma visitReplacements_eq_none_iff {replacements : List Replacement} :
    classifier.visitReplacements replacements stack = .ok none ↔ replacements = [] := by
  constructor
  · intro h
    cases replacements with
    | nil => rfl
    | cons replacement rest =>
      cases replacement with
      | unstructured =>
        rw [visitReplacements_unstructured] at h
        cases hrest : classifier.visitReplacements rest stack <;> rw [hrest] at h <;> cases h
      | type use =>
        rw [visitReplacements_type] at h
        cases huse : classifier.visit use .plain stack with
        | error error => rw [huse] at h; cases h
        | ok type =>
          rw [huse] at h
          cases hrest : classifier.visitReplacements rest stack <;> rw [hrest] at h <;> cases h
  · rintro rfl
    exact classifier.visitReplacements_nil stack

/-- Stronger replacements count before weaker ones, and an error in any of them is an error. -/
lemma visitReplacements_append (weaker stronger : List Replacement) :
    classifier.visitReplacements (weaker ++ stronger) stack = (do
      let found ← classifier.visitReplacements weaker stack
      let later ← classifier.visitReplacements stronger stack
      return later <|> found) := by
  induction weaker with
  | nil =>
    rw [List.nil_append, visitReplacements_nil]
    rcases classifier.visitReplacements stronger stack with error | _ | type <;> rfl
  | cons replacement rest ih =>
    cases replacement with
    | unstructured =>
      rw [List.cons_append, visitReplacements_unstructured, visitReplacements_unstructured, ih]
      rcases classifier.visitReplacements rest stack with error | found
      · rfl
      · rcases classifier.visitReplacements stronger stack with error | _ | type <;> rfl
    | type use =>
      rw [List.cons_append, visitReplacements_type, visitReplacements_type, ih]
      rcases classifier.visit use .plain stack with error | type
      · rfl
      · rcases classifier.visitReplacements rest stack with error | found
        · rfl
        · rcases classifier.visitReplacements stronger stack with error | _ | type' <;> rfl

/-- The last replacement counts if no weaker one is an error. -/
lemma visitReplacements_append_type {weaker : List Replacement} {found : Option SchemaType}
    (hweaker : classifier.visitReplacements weaker stack = .ok found) (use : TypeUse) :
    classifier.visitReplacements (weaker ++ [.type use]) stack =
      some <$> classifier.visit use .plain stack := by
  rw [visitReplacements_append, hweaker, visitReplacements_type, visitReplacements_nil]
  cases classifier.visit use .plain stack <;> rfl

/-- A use that passes is its strongest replacement, inside the layer of its context. -/
lemma visit_of_replaced {name : String} {args : List TypeUse} {weaker : List Replacement}
    {found : Option SchemaType} {target : TypeUse}
    (hpass : ¬ stack.blocks name (.declared name args))
    (hreplacements : classifier.replacements name (.declared name args) = weaker ++ [.type target])
    (hweaker : classifier.visitReplacements weaker
      (stack.enter (TypeUse.declared name args).text) = .ok found) (context : Context) :
    classifier.visit (.declared name args) context stack = context.wrap <$>
      classifier.visit target .plain (stack.enter (TypeUse.declared name args).text) := by
  rw [visit_of_not_blocks classifier hpass, hreplacements, visitReplacements_append_type hweaker]
  cases classifier.visit target .plain (stack.enter (TypeUse.declared name args).text) <;> rfl

/-- A use that nothing replaces is its parts. -/
lemma visit_of_unreplaced {name : String} {args : List TypeUse}
    (hpass : ¬ stack.blocks name (.declared name args))
    (hreplacements : classifier.replacements name (.declared name args) = [])
    (context : Context) :
    classifier.visit (.declared name args) context stack =
      classifier.visitParts name args context (stack.enter (TypeUse.declared name args).text) := by
  rw [visit_of_not_blocks classifier hpass, hreplacements, visitReplacements_nil]

/-- A use that nothing replaces and that is no container is what is known about its name. -/
lemma visit_of_bare {name : String} {args : List TypeUse}
    (hpass : ¬ stack.blocks name (.declared name args))
    (hreplacements : classifier.replacements name (.declared name args) = [])
    (hentry : classifier.graph.keyValue? (.declared name args) = none)
    (hcomponent : classifier.graph.component? (.declared name args) = none) (context : Context) :
    classifier.visit (.declared name args) context stack =
      context.wrap <$> classifier.named name := by
  rw [visit_of_unreplaced hpass hreplacements, visitParts, hentry, hcomponent]

/-- A collection or stream that nothing replaces is its component, in the layer of a collection. -/
lemma visit_of_component {name : String} {args : List TypeUse} {component : TypeUse}
    (hpass : ¬ stack.blocks name (.declared name args))
    (hreplacements : classifier.replacements name (.declared name args) = [])
    (hentry : classifier.graph.keyValue? (.declared name args) = none)
    (hcomponent : classifier.graph.component? (.declared name args) = some component)
    (context : Context) :
    classifier.visit (.declared name args) context stack =
      classifier.visit component .collection
        (stack.enter (TypeUse.declared name args).text) := by
  rw [visit_of_unreplaced hpass hreplacements, visitParts, hentry, hcomponent]

/-- Where nothing is declared, a use of a name that is no root is what the registry says of it. -/
lemma visit_of_undeclared (hundeclared : ∀ name, classifier.graph.declaration? name = none)
    {name : String} {args : List TypeUse} (hpass : ¬ stack.blocks name (.declared name args))
    (hmap : ¬ classifier.graph.settings.isMapRoot name)
    (hsequence : ¬ (classifier.graph.settings.isCollectionRoot name ||
      classifier.graph.settings.isStreamRoot name)) (context : Context) :
    classifier.visit (.declared name args) context stack =
      .ok (context.wrap (classifier.registered name)) := by
  have hreplacements : classifier.replacements name (.declared name args) = [] := by
    rw [replacements, hundeclared]
  have hentry := TypeGraph.keyValue?_of_undeclared (hundeclared name) args
  have hcomponent := TypeGraph.component?_of_undeclared hundeclared name args
  rw [if_neg hmap] at hentry
  rw [if_neg hsequence] at hcomponent
  have hnamed : classifier.named name = .ok (classifier.registered name) := by
    rw [named, hundeclared]
  rw [visit_of_bare hpass hreplacements hentry hcomponent, hnamed]
  rfl

/-! ### Layers -/

/-- The layer of a context is taken in by a use: it has a layer of its own in its place, or is the
byte of an array of bytes. -/
def Absorbs (classifier : Classifier) (context : Context) : TypeUse → Prop
  | .primitive kind => context.inArray ∧ kind = .byte
  | .array _ => context.wraps
  | .declared name args =>
    context.wraps ∧ classifier.replacements name (.declared name args) = [] ∧
      classifier.graph.keyValue? (.declared name args) = none ∧
      (classifier.graph.component? (.declared name args)).isSome
  | .var _ _ | .wildcard _ => False

lemma visitParts_eq_wrap {name : String} {args : List TypeUse} {context : Context}
    (hparts : classifier.graph.keyValue? (.declared name args) = none →
      classifier.graph.component? (.declared name args) = none) :
    classifier.visitParts name args context stack =
      context.wrap <$> classifier.visitParts name args .plain stack := by
  rw [visitParts, visitParts]
  cases hentry : classifier.graph.keyValue? (.declared name args) with
  | some entry =>
    dsimp only
    cases classifier.visit entry.1 .plain stack with
    | error error => rfl
    | ok key => cases classifier.visit entry.2 .plain stack <;> rfl
  | none =>
    dsimp only
    rw [hparts hentry]
    cases classifier.named name <;> rfl

/-- A use that does not take the layer of its context in is what it is without one, inside the
layer. -/
theorem visit_eq_wrap {type : TypeUse} {context : Context}
    (habsorbs : ¬ classifier.Absorbs context type)
    (hpass : ∀ name args, type = .declared name args → ¬ stack.blocks name (.declared name args)) :
    classifier.visit type context stack =
      context.wrap <$> classifier.visit type .plain stack := by
  by_cases hwraps : context.wraps
  · cases type with
    | primitive kind =>
      have hbyte : ¬ (context.inArray ∧ kind = .byte) := habsorbs
      rw [visit_primitive, visit_primitive, Context.primitive, if_neg hbyte]
      simp [Context.primitive, Context.plain, Context.wrap, Context.wraps, SchemaType.wrapIf]
    | array component => exact absurd hwraps habsorbs
    | var name bound =>
      cases bound with
      | none => rw [visit_var_none, visit_var_none]; rfl
      | some bound => rw [visit_var_some, visit_var_some, Context.wrap_plain_map]
    | wildcard bound =>
      cases bound with
      | none => rw [visit_wildcard_none, visit_wildcard_none]; rfl
      | some bound => rw [visit_wildcard_some, visit_wildcard_some, Context.wrap_plain_map]
    | declared name args =>
      rw [visit_of_not_blocks classifier (hpass name args rfl),
        visit_of_not_blocks classifier (hpass name args rfl)]
      cases hfound : classifier.visitReplacements
        (classifier.replacements name (.declared name args))
        (stack.enter (TypeUse.declared name args).text) with
      | error error => rfl
      | ok found =>
        cases found with
        | some type => rfl
        | none =>
          apply visitParts_eq_wrap
          intro hentry
          by_contra hcomponent
          exact habsorbs ⟨hwraps, visitReplacements_eq_none_iff.1 hfound, hentry,
            Option.isSome_iff_ne_none.2 hcomponent⟩
  · rw [Context.eq_plain_of_not_wraps hwraps, Context.wrap_plain_map]

lemma Absorbs.wraps {type : TypeUse} {context : Context} (h : classifier.Absorbs context type) :
    context.wraps := by
  cases type with
  | primitive kind => rw [Context.wraps, h.1, Bool.true_or]
  | array component => exact h
  | declared name args => exact h.1
  | var | wildcard => exact h.elim

/-- A use that takes the layer of its context in is what it is without one, unless it is the byte of
an array. -/
lemma visit_of_absorbs {type : TypeUse} {context : Context}
    (h : classifier.Absorbs context type) :
    type = .primitive .byte ∧ classifier.visit type context stack = .ok .string ∨
      classifier.visit type context stack = classifier.visit type .plain stack := by
  cases type with
  | primitive kind =>
    obtain ⟨harray, rfl⟩ := h
    refine .inl ⟨rfl, ?_⟩
    rw [visit_primitive, Context.primitive, if_pos ⟨harray, rfl⟩]
  | array component => exact .inr (visit_array_eq_plain classifier component context stack)
  | declared name args =>
    obtain ⟨-, hreplacements, hentry, hcomponent⟩ := h
    obtain ⟨component, hcomponent⟩ := Option.isSome_iff_exists.1 hcomponent
    right
    by_cases hblocks : stack.blocks name (.declared name args)
    · rw [visit_of_blocks classifier hblocks, visit_of_blocks classifier hblocks]
    · rw [visit_of_component hblocks hreplacements hentry hcomponent,
        visit_of_component hblocks hreplacements hentry hcomponent]
  | var | wildcard => exact h.elim

/-- A use has the layer of its context around what it is without one if and only if it does not take
the layer in, or is in error. -/
theorem visit_eq_wrap_iff {type : TypeUse} {context : Context}
    (hpass : ∀ name args, type = .declared name args → ¬ stack.blocks name (.declared name args)) :
    classifier.visit type context stack = context.wrap <$> classifier.visit type .plain stack ↔
      ¬ classifier.Absorbs context type ∨
        ∃ error, classifier.visit type .plain stack = .error error := by
  by_cases habsorbs : classifier.Absorbs context type
  · cases hplain : classifier.visit type .plain stack with
    | error error =>
      refine iff_of_true ?_ (.inr ⟨error, rfl⟩)
      rcases visit_of_absorbs habsorbs with ⟨rfl, -⟩ | hsame
      · cases (visit_primitive classifier .byte .plain stack).symm.trans hplain
      · rw [hsame, hplain]
        rfl
    | ok result =>
      refine iff_of_false (fun hwrap => ?_) (by simpa using habsorbs)
      have hlayer : classifier.visit type context stack = .ok (.array result) := by
        rw [hwrap, ← Context.wrap_of_wraps habsorbs.wraps]
        rfl
      rcases visit_of_absorbs habsorbs with ⟨-, hstring⟩ | hsame
      · cases hstring.symm.trans hlayer
      · have hresult : result = .array result :=
          Except.ok.inj ((hsame.trans hplain).symm.trans hlayer)
        exact absurd (congrArg sizeOf hresult) (by simp)
  · exact iff_of_true (visit_eq_wrap habsorbs hpass) (.inl habsorbs)

end Classifier

end SchemaTyping
