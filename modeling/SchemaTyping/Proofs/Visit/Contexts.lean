import Mathlib.Logic.Function.Iterate
import Mathlib.Logic.Relation
import SchemaTyping.Proofs.Results
import SchemaTyping.Proofs.Visit.Layers

/-!
# What a context adds

A context that wraps puts one layer around what a visit comes to without it, unless the use brings
a layer of its own or is cut short. An array and a collection leave the layer to what is inside
them. Followed inward, they end at a use that has to put it around its own result; so the layer is
there, unless this use is the byte of an array of bytes or is cut short.
-/

namespace SchemaTyping

namespace Classifier

/-- A use is classified by its component: it passes the guard, nothing replaces it, and it is a
collection or stream and no map. -/
structure Unwraps (classifier : Classifier) (stack : UseStack) (name : String)
    (args : List TypeUse) (component : TypeUse) : Prop where
  pass : ¬ stack.blocks name (.declared name args)
  replacements : classifier.replacements name (.declared name args) = []
  keyValue? : classifier.graph.keyValue? (.declared name args) = none
  component? : classifier.graph.component? (.declared name args) = some component

/-- A use to which a context adds no layer: an array, a use that is cut short, and one that is
classified by its component. -/
inductive TakesNoLayer (classifier : Classifier) (stack : UseStack) : TypeUse → Prop where
  | array (component : TypeUse) : TakesNoLayer classifier stack (.array component)
  | cutShort {name : String} {args : List TypeUse} (h : stack.blocks name (.declared name args)) :
    TakesNoLayer classifier stack (.declared name args)
  | component {name : String} {args : List TypeUse} {component : TypeUse}
    (h : classifier.Unwraps stack name args component) :
    TakesNoLayer classifier stack (.declared name args)

variable {classifier : Classifier} {stack : UseStack} {type : TypeUse} {context : Context}
  {name : String} {args : List TypeUse} {component : TypeUse} {result : SchemaType}

/-! ### One layer -/

lemma Unwraps.visit_eq (h : classifier.Unwraps stack name args component) (context : Context) :
    classifier.visit (.declared name args) context stack =
      classifier.visit component .collection (stack.enter (TypeUse.declared name args).text) :=
  visit_of_component h.pass h.replacements h.keyValue? h.component? context

lemma TakesNoLayer.visit_eq (h : classifier.TakesNoLayer stack type) (context : Context) :
    classifier.visit type context stack = classifier.visit type .plain stack := by
  cases h with
  | array component => exact visit_array_eq_plain classifier component context stack
  | cutShort h => rw [visit_of_blocks classifier h, visit_of_blocks classifier h]
  | component h => rw [h.visit_eq, h.visit_eq]

lemma visit_byte (classifier : Classifier) (stack : UseStack) (h : context.inArray) :
    classifier.visit (.primitive .byte) context stack = .ok .string := by
  rw [visit_primitive, Context.primitive, if_pos ⟨h, rfl⟩]

/-- A use that takes a layer is inside it what it is without one. -/
lemma visit_eq_array (hlayer : ¬ classifier.TakesNoLayer stack type)
    (hbyte : ¬ (type = .primitive .byte ∧ context.inArray)) (hwraps : context.wraps) :
    classifier.visit type context stack = .array <$> classifier.visit type .plain stack := by
  have habsorbs : ¬ classifier.Absorbs context type := by
    cases type with
    | primitive kind =>
      rintro ⟨harray, rfl⟩
      exact hbyte ⟨rfl, harray⟩
    | array component => exact absurd (.array component) hlayer
    | declared name args =>
      rintro ⟨-, hreplacements, hentry, hcomponent⟩
      obtain ⟨component, hcomponent⟩ := Option.isSome_iff_exists.1 hcomponent
      by_cases hblocks : stack.blocks name (.declared name args)
      · exact hlayer (.cutShort hblocks)
      · exact hlayer (.component ⟨hblocks, hreplacements, hentry, hcomponent⟩)
    | var name bound => exact id
    | wildcard bound => exact id
  have hpass (name : String) (args : List TypeUse) (htype : type = .declared name args) :
      ¬ stack.blocks name (.declared name args) := by
    rintro hblocks
    subst htype
    exact hlayer (.cutShort hblocks)
  rw [visit_eq_wrap habsorbs hpass, funext (Context.wrap_of_wraps hwraps)]

lemma visit_eq_error_iff_plain {error : MetadataError} (hwraps : context.wraps) :
    classifier.visit type context stack = .error error ↔
      classifier.visit type .plain stack = .error error := by
  by_cases hlayer : classifier.TakesNoLayer stack type
  · rw [hlayer.visit_eq context]
  · by_cases hbyte : type = .primitive .byte ∧ context.inArray
    · obtain ⟨rfl, harray⟩ := hbyte
      rw [visit_byte classifier stack harray, visit_primitive]
      constructor <;> exact nofun
    · rw [visit_eq_array hlayer hbyte hwraps, map_eq_error_iff]

/-- Contexts that wrap differ only for bytes. -/
lemma visit_eq_of_wraps {other : Context} (hwraps : context.wraps) (hother : other.wraps)
    (hbyte : type ≠ .primitive .byte) :
    classifier.visit type context stack = classifier.visit type other stack := by
  by_cases hlayer : classifier.TakesNoLayer stack type
  · rw [hlayer.visit_eq context, hlayer.visit_eq other]
  · rw [visit_eq_array hlayer (fun h => hbyte h.1) hwraps,
      visit_eq_array hlayer (fun h => hbyte h.1) hother]

/-- An array has a layer for each dimension but the last one, which is the context of its innermost
component. -/
lemma visit_iterate_array (hcomponent : ∀ inner, component ≠ .array inner) (dimensions : Nat)
    (context : Context) :
    classifier.visit (TypeUse.array^[dimensions + 1] component) context stack =
      SchemaType.array^[dimensions] <$> classifier.visit component .array stack := by
  induction dimensions generalizing context with
  | zero => rw [Function.iterate_zero, id_map, Function.iterate_one, visit_array _ hcomponent]
  | succ dimensions ih =>
    have hplain := ih .plain
    rw [Function.iterate_succ_apply'] at hplain
    rw [Function.iterate_succ_apply', Function.iterate_succ_apply', visit_array_array, hplain]
    cases classifier.visit component .array stack with
    | error error => rfl
    | ok type => exact congrArg Except.ok (Function.iterate_succ_apply' _ _ _).symm

/-- A context that wraps fails where no context does, with the same error. Else it adds nothing to
an array, to a use that is cut short and to one that is classified by its component; it makes a
string of the byte of an array; and it adds one layer to all other uses. Apart from bytes it does
not matter through which layers it wraps, and an array has one layer less than dimensions around
its innermost component, which is visited in the context of an array. -/
theorem context_adds_one_layer (classifier : Classifier) (stack : UseStack) :
    (∀ type context, context.wraps →
      (∀ error, classifier.visit type context stack = .error error ↔
        classifier.visit type .plain stack = .error error) ∧
      ∀ result, classifier.visit type .plain stack = .ok result →
        (classifier.TakesNoLayer stack type →
          classifier.visit type context stack = .ok result) ∧
        (type = .primitive .byte ∧ context.inArray →
          classifier.visit type context stack = .ok .string) ∧
        (¬ classifier.TakesNoLayer stack type → ¬ (type = .primitive .byte ∧ context.inArray) →
          classifier.visit type context stack = .ok (.array result))) ∧
      (∀ type context other, context.wraps → other.wraps → type ≠ .primitive .byte →
        classifier.visit type context stack = classifier.visit type other stack) ∧
      ∀ dimensions component context, (∀ inner, component ≠ TypeUse.array inner) →
        classifier.visit (TypeUse.array^[dimensions + 1] component) context stack =
          SchemaType.array^[dimensions] <$> classifier.visit component .array stack := by
  refine ⟨fun type context hwraps => ⟨fun error => visit_eq_error_iff_plain hwraps, ?_⟩,
    fun type context other hwraps hother hbyte => visit_eq_of_wraps hwraps hother hbyte,
    fun dimensions component context hcomponent =>
      visit_iterate_array hcomponent dimensions context⟩
  intro result hplain
  refine ⟨fun hlayer => ?_, ?_, fun hlayer hbyte => ?_⟩
  · rw [hlayer.visit_eq context, hplain]
  · rintro ⟨rfl, harray⟩
    exact visit_byte classifier stack harray
  · rw [visit_eq_array hlayer hbyte hwraps, hplain]
    rfl

/-- Nothing is declared; `L` is a list and `M` a map. -/
def listsAndMaps : Classifier where
  graph := ⟨∅, ∅, ⟨"O", .ofList ["L"], ∅, .ofList ["M"]⟩⟩
  registry := ∅

/-- While `H` is open, a list of `H` is an object with and without a layer, a map gets one, and so
does an array of bytes for each dimension but the last one. -/
theorem layers_while_open :
    let stack : UseStack := ⟨["H"]⟩
    let both : Context := ⟨true, true⟩
    listsAndMaps.TakesNoLayer stack (.declared "L" [.declared "H" []]) ∧
      listsAndMaps.visit (.declared "L" [.declared "H" []]) both stack = .ok .object ∧
      ¬ listsAndMaps.TakesNoLayer stack (.declared "M" []) ∧
      listsAndMaps.visit (.declared "M" []) both stack =
        .ok (.array (.map .object .object)) ∧
      listsAndMaps.visit (.primitive .byte) both stack = .ok .string ∧
      listsAndMaps.visit (TypeUse.array^[3] (.primitive .byte)) both stack =
        .ok (.array (.array .string)) := by
  intro stack both
  obtain ⟨hone, -, harray⟩ := context_adds_one_layer listsAndMaps stack
  have hunwraps : listsAndMaps.Unwraps stack "L" [.declared "H" []] (.declared "H" []) :=
    ⟨by decide, by cbv, by cbv, by cbv⟩
  have hcut : stack.blocks "H" (.declared "H" []) := by decide
  have hlist : listsAndMaps.visit (.declared "L" [.declared "H" []]) .plain stack =
      .ok .object := by
    rw [hunwraps.visit_eq, visit_of_blocks]
    · cbv
    · decide
  have hentry : listsAndMaps.graph.keyValue? (.declared "M" []) =
      some (.declared "O" [], .declared "O" []) := by
    cbv
  have hmap : listsAndMaps.visit (.declared "M" []) .plain stack =
      .ok (.map .object .object) := by
    have hobject : listsAndMaps.visit (.declared "O" []) .plain
        (stack.enter (TypeUse.declared "M" []).text) = .ok .object :=
      visit_of_bare (by decide) rfl (by cbv) (by cbv) .plain
    rw [visit_map (by decide) (visitReplacements_nil _ _) hentry, hobject]
    rfl
  have hlayer : ¬ listsAndMaps.TakesNoLayer stack (.declared "M" []) := by
    intro h
    cases h with
    | cutShort h => exact absurd h (by decide)
    | component h => cases hentry.symm.trans h.keyValue?
  refine ⟨.component hunwraps, ?_, hlayer, ?_, ?_, ?_⟩
  · exact ((hone _ both rfl).2 _ hlist).1 (.component hunwraps)
  · refine ((hone _ both rfl).2 _ hmap).2.2 hlayer ?_
    rintro ⟨⟨⟩, -⟩
  · exact ((hone _ both rfl).2 _ (visit_primitive _ .byte .plain stack)).2.1 ⟨rfl, rfl⟩
  · have hbyte (inner : TypeUse) : TypeUse.primitive .byte ≠ .array inner := by rintro ⟨⟩
    rw [harray 2 (.primitive .byte) both hbyte, visit_byte listsAndMaps stack rfl]
    rfl

/-! ### The way inward -/

/-- A use as it is met: in a context, while other uses are open. -/
structure Site where
  type : TypeUse
  context : Context
  stack : UseStack

/-- From an array to its component, and from a collection or stream to its component if that is what
it is classified by. -/
inductive Inward (classifier : Classifier) : Site → Site → Prop where
  | array (component : TypeUse) (context : Context) (stack : UseStack) :
    Inward classifier ⟨.array component, context, stack⟩ ⟨component, .array, stack⟩
  | component {stack : UseStack} {name : String} {args : List TypeUse} {component : TypeUse}
    (context : Context) (h : classifier.Unwraps stack name args component) :
    Inward classifier ⟨.declared name args, context, stack⟩
      ⟨component, .collection, stack.enter (TypeUse.declared name args).text⟩

/-- The last site of the way inward. -/
def InnermostSite (classifier : Classifier) (site last : Site) : Prop :=
  Relation.ReflTransGen classifier.Inward site last ∧ ∀ next, ¬ classifier.Inward last next

/-- A schema type has the layer that is expected at a site, or the site is one of the two that go
without: a byte of an array, and a use that is cut short and is no collection. -/
inductive HasLayer (classifier : Classifier) (last : Site) : SchemaType → Prop where
  | array (items : SchemaType) : HasLayer classifier last (.array items)
  | bytes (htype : last.type = .primitive .byte) (harray : last.context.inArray) :
    HasLayer classifier last .string
  | cutShort {name : String} {args : List TypeUse} (htype : last.type = .declared name args)
    (hblocks : last.stack.blocks name (.declared name args))
    (hcollection : classifier.graph.isCollection (.declared name args) = false) :
    HasLayer classifier last .object

lemma Inward.wraps {site next : Site} (h : classifier.Inward site next) : next.context.wraps := by
  cases h <;> rfl

/-- What a visit comes to is what it comes to further inward, or has a layer for a dimension. -/
lemma Inward.visit_eq_ok {site next : Site} (h : classifier.Inward site next)
    (hvisit : classifier.visit site.type site.context site.stack = .ok result) :
    (∃ items, result = .array items) ∨
      classifier.visit next.type next.context next.stack = .ok result := by
  cases h with
  | array component context stack =>
    cases component with
    | array inner =>
      rw [visit_array_array] at hvisit
      obtain ⟨items, -, rfl⟩ := map_eq_ok_iff.1 hvisit
      exact .inl ⟨items, rfl⟩
    | primitive | declared | var | wildcard =>
      rw [visit_array] at hvisit
      · exact .inr hvisit
      · exact nofun
  | component context h =>
    rw [h.visit_eq] at hvisit
    exact .inr hvisit

/-- A step inward is one that the visit takes, so it uses up the budget or leads to a part. -/
lemma Inward.decreases {site next : Site} (h : classifier.Inward site next) :
    Prod.Lex (· < ·) (· < ·)
      (next.stack.budget (classifier.scope next.type), sizeOf next.type)
      (site.stack.budget (classifier.scope site.type), sizeOf site.type) := by
  cases h with
  | array component context stack => exact .right' _ (Nat.le_refl _) (by simp)
  | component context h =>
    exact .left _ _ (budget_lt_of_scope_subset h.pass
      (scope_subset (TypeGraph.names_component?_subset h.component?)))

/-- The way inward ends. -/
lemma exists_innermostSite (classifier : Classifier) (site : Site) :
    ∃ last, classifier.InnermostSite site last := by
  by_cases hend : ∃ next, classifier.Inward site next
  · obtain ⟨next, hnext⟩ := hend
    obtain ⟨last, hreach, hlast⟩ := exists_innermostSite classifier next
    exact ⟨last, .head hnext hreach, hlast⟩
  · exact ⟨site, .refl, fun next hnext => hend ⟨next, hnext⟩⟩
termination_by (site.stack.budget (classifier.scope site.type), sizeOf site.type)
decreasing_by exact hnext.decreases

/-- A use in a layer that leads no further inward puts the layer around its own result, with the two
exceptions. -/
lemma hasLayer_of_no_inward {last : Site} (hlast : ∀ next, ¬ classifier.Inward last next)
    (hwraps : last.context.wraps)
    (hvisit : classifier.visit last.type last.context last.stack = .ok result) :
    classifier.HasLayer last result := by
  obtain ⟨type, context, stack⟩ := last
  by_cases hlayer : classifier.TakesNoLayer stack type
  · cases hlayer with
    | array component => exact absurd (.array component context stack) (hlast _)
    | component h => exact absurd (.component context h) (hlast _)
    | @cutShort name args h =>
      rw [visit_of_blocks classifier h] at hvisit
      obtain rfl := Except.ok.inj hvisit
      rw [Classifier.cutShort]
      cases hcollection : classifier.graph.isCollection (.declared name args) with
      | true => exact .array .object
      | false => exact .cutShort rfl h hcollection
  · by_cases hbyte : type = .primitive .byte ∧ context.inArray
    · obtain ⟨rfl, harray⟩ := hbyte
      rw [visit_byte classifier stack harray] at hvisit
      obtain rfl := Except.ok.inj hvisit
      exact .bytes rfl harray
    · rw [visit_eq_array hlayer hbyte hwraps] at hvisit
      obtain ⟨items, -, rfl⟩ := map_eq_ok_iff.1 hvisit
      exact .array items

lemma hasLayer_of_innermostSite {site last : Site} (h : classifier.InnermostSite site last)
    (hwraps : site.context.wraps)
    (hvisit : classifier.visit site.type site.context site.stack = .ok result) :
    classifier.HasLayer last result := by
  obtain ⟨hreach, hlast⟩ := h
  induction hreach using Relation.ReflTransGen.head_induction_on with
  | refl => exact hasLayer_of_no_inward hlast hwraps hvisit
  | head hstep _ ih =>
    rcases hstep.visit_eq_ok hvisit with ⟨items, rfl⟩ | hnext
    · exact .array items
    · exact ih hstep.wraps hnext

/-- A container whose visit succeeds keeps its layer. For an array, a use in a context that wraps
and a collection or stream that is classified by its component, the way inward ends; and the result
is an array, unless the way ends at the byte of an array, which may make it a string, or at a use
that is cut short and is no collection, which may make it an object. So it is never a map, a
reference, a number or a boolean. -/
theorem layer_never_lost (classifier : Classifier) (type : TypeUse) (context : Context)
    (stack : UseStack)
    (hlayer : (∃ component, type = .array component) ∨ context.wraps ∨
      ∃ name args component, type = .declared name args ∧
        classifier.Unwraps stack name args component)
    {result : SchemaType} (hvisit : classifier.visit type context stack = .ok result) :
    (∃ last, classifier.InnermostSite ⟨type, context, stack⟩ last) ∧
      (∀ last, classifier.InnermostSite ⟨type, context, stack⟩ last →
        classifier.HasLayer last result) ∧
      (∀ key value, result ≠ .map key value) ∧ (∀ name, result ≠ .reference name) ∧
      (∀ kind format, result ≠ .numeric kind format) ∧ result ≠ .boolean := by
  have hkept (last : Site) (h : classifier.InnermostSite ⟨type, context, stack⟩ last) :
      classifier.HasLayer last result := by
    by_cases hwraps : context.wraps
    · exact hasLayer_of_innermostSite h hwraps hvisit
    · -- Without a layer from outside, the first step inward brings one.
      have hnext : ∃ next, classifier.Inward ⟨type, context, stack⟩ next := by
        rcases hlayer with ⟨component, rfl⟩ | hlayer | ⟨name, args, component, rfl, hunwraps⟩
        · exact ⟨_, .array component context stack⟩
        · exact absurd hlayer hwraps
        · exact ⟨_, .component context hunwraps⟩
      obtain ⟨hreach, hlast⟩ := h
      rcases Relation.ReflTransGen.cases_head hreach with rfl | ⟨next, hstep, hrest⟩
      · obtain ⟨next, hnext⟩ := hnext
        exact absurd hnext (hlast next)
      · rcases hstep.visit_eq_ok hvisit with ⟨items, rfl⟩ | hvisit
        · exact .array items
        · exact hasLayer_of_innermostSite ⟨hrest, hlast⟩ hstep.wraps hvisit
  obtain ⟨last, hlast⟩ := classifier.exists_innermostSite ⟨type, context, stack⟩
  refine ⟨⟨last, hlast⟩, hkept, ?_⟩
  cases hkept last hlast with
  | array | bytes | cutShort => exact ⟨nofun, nofun, nofun, nofun⟩

/-- A list of arrays of bytes is a string, for its way inward ends at the byte of an array. -/
theorem list_of_bytes_hasLayer :
    let type : TypeUse := .declared "L" [.array (.primitive .byte)]
    let last : Site := ⟨.primitive .byte, .array, ⟨["L<byte[]>"]⟩⟩
    listsAndMaps.Unwraps ∅ "L" [.array (.primitive .byte)] (.array (.primitive .byte)) ∧
      listsAndMaps.visit type .plain ∅ = .ok .string ∧
      listsAndMaps.InnermostSite ⟨type, .plain, ∅⟩ last ∧ listsAndMaps.HasLayer last .string := by
  intro type last
  have hunwraps : listsAndMaps.Unwraps ∅ "L" [.array (.primitive .byte)]
      (.array (.primitive .byte)) :=
    ⟨by decide, by cbv, by cbv, by cbv⟩
  have hvisit : listsAndMaps.visit type .plain ∅ = .ok .string := by
    rw [hunwraps.visit_eq, visit_array, visit_byte listsAndMaps _ rfl]
    rintro inner ⟨⟩
  have hend (next : Site) :
      ¬ listsAndMaps.Inward ⟨.primitive .byte, .array, ⟨["L<byte[]>"]⟩⟩ next := by
    rintro ⟨⟩
  have hinnermost : listsAndMaps.InnermostSite ⟨type, .plain, ∅⟩ last :=
    ⟨.head (.component .plain hunwraps) (.single (.array _ _ _)), hend⟩
  exact ⟨hunwraps, hvisit, hinnermost, (layer_never_lost listsAndMaps type .plain ∅
    (.inr (.inr ⟨_, _, _, rfl, hunwraps⟩)) hvisit).2.1 last hinnermost⟩

end Classifier

end SchemaTyping
