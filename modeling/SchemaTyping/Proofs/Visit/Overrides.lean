import Mathlib.Data.List.Basic
import SchemaTyping.Proofs.Results
import SchemaTyping.Proofs.Visit.Layers
import SchemaTyping.Proofs.Visit.Locality

/-!
# Overrides

A declaration may put several types in the place of its uses: a hint, the unknown type of its own
serializer, the type that it is serialized as, and the target of its adapter. All of them are
visited, and the strongest one counts. So what a stronger one hides is not seen in any result; it
can only turn a result into an error.
-/

namespace SchemaTyping

/-! ### The strongest replacement -/

/-- An adapter counts before the type that a declaration is serialized as, that one before a
serializer of its own, and a hint counts last. -/
lemma Declaration.getLast?_replacements (declaration : Declaration) (use : TypeUse) :
    (declaration.replacements use).getLast? =
      ((TypeGraph.adapting? declaration use).map .type).or
        ((declaration.substitute?.map .type).or
          ((if declaration.hasCustomSerializer then some .unstructured else none).or
            (declaration.typeHint.map .type))) := by
  have hgetLast? (use? : Option TypeUse) :
      (use?.toList.map Replacement.type).getLast? = use?.map .type := by
    cases use? <;> rfl
  rw [replacements, List.getLast?_append, List.getLast?_append, List.getLast?_append, hgetLast?,
    hgetLast?, hgetLast?]
  split <;> rfl

namespace Classifier

variable {classifier other : Classifier}

/-- Of replacements that are not in error only the strongest one counts. -/
lemma visitReplacements_getLast? {replacements : List Replacement} {stack : UseStack}
    {found : Option SchemaType}
    (h : classifier.visitReplacements replacements stack = .ok found) :
    classifier.visitReplacements replacements.getLast?.toList stack = .ok found := by
  rcases replacements.eq_nil_or_concat' with rfl | ⟨weaker, strongest, rfl⟩
  · exact h
  · rw [visitReplacements_append] at h
    obtain ⟨hidden, -, hlast⟩ := bind_eq_ok_iff.1 h
    obtain ⟨last, hstrongest, hfound⟩ := bind_eq_ok_iff.1 hlast
    rw [List.getLast?_concat, Option.toList_some, hstrongest]
    cases last with
    | some type => exact hfound
    | none =>
      rw [visitReplacements_eq_none_iff] at hstrongest
      cases hstrongest

/-! ### Classifiers with the same strongest replacements -/

/-- Two classifiers treat the uses of a declared type alike, apart from replacements that a stronger
one hides. -/
structure AgreesOnStrongest (classifier other : Classifier) (name : String)
    (args : List TypeUse) : Prop where
  strongest : (classifier.replacements name (.declared name args)).getLast? =
    (other.replacements name (.declared name args)).getLast?
  cutShort : classifier.cutShort (.declared name args) = other.cutShort (.declared name args)
  keyValue? : classifier.graph.keyValue? (.declared name args) =
    other.graph.keyValue? (.declared name args)
  component? : classifier.graph.component? (.declared name args) =
    other.graph.component? (.declared name args)
  named : classifier.named name = other.named name

/-- Wherever both classifiers come to a schema type, it is the same one. -/
def SameResults (classifier other : Classifier) : Prop :=
  ∀ type context stack result result', classifier.visit type context stack = .ok result →
    other.visit type context stack = .ok result' → result = result'

/-- The strongest of some replacements gives both classifiers the same. -/
def SameStrongest (classifier other : Classifier) (replacements : List Replacement)
    (stack : UseStack) : Prop :=
  ∀ found found',
    classifier.visitReplacements replacements.getLast?.toList stack = .ok found →
      other.visitReplacements replacements.getLast?.toList stack = .ok found' → found = found'

section AgreesOnStrongest

variable {name : String} {args : List TypeUse} {context : Context} {stack : UseStack}
  {result result' : SchemaType}

/-- A use that is replaced is its strongest replacement for both. -/
lemma AgreesOnStrongest.eq_of_replaced (h : classifier.AgreesOnStrongest other name args)
    (hpass : ¬ stack.blocks name (.declared name args)) {type : SchemaType}
    (hreplaced : classifier.visitReplacements
      (classifier.replacements name (.declared name args))
      (stack.enter (TypeUse.declared name args).text) = .ok (some type))
    (hsame : classifier.SameStrongest other
      (classifier.replacements name (.declared name args))
      (stack.enter (TypeUse.declared name args).text))
    (hother : other.visit (.declared name args) context stack = .ok result') :
    context.wrap type = result' := by
  rw [visit_of_not_blocks other hpass] at hother
  have hfirst := visitReplacements_getLast? hreplaced
  cases hsecond : other.visitReplacements (other.replacements name (.declared name args))
    (stack.enter (TypeUse.declared name args).text) with
  | error error =>
    rw [hsecond] at hother
    cases hother
  | ok found =>
    have hlast := visitReplacements_getLast? hsecond
    rw [← h.strongest] at hlast
    obtain rfl := hsame _ _ hfirst hlast
    rw [hsecond] at hother
    exact Except.ok.inj hother

/-- A use that nothing replaces is its parts for both. -/
lemma AgreesOnStrongest.visitParts_eq_ok (h : classifier.AgreesOnStrongest other name args)
    (hpass : ¬ stack.blocks name (.declared name args))
    (hnone : classifier.visitReplacements
      (classifier.replacements name (.declared name args))
      (stack.enter (TypeUse.declared name args).text) = .ok none)
    (hother : other.visit (.declared name args) context stack = .ok result') :
    other.visitParts name args context (stack.enter (TypeUse.declared name args).text) =
      .ok result' := by
  have hlast := h.strongest
  rw [visitReplacements_eq_none_iff.1 hnone, List.getLast?_nil, eq_comm,
    List.getLast?_eq_none_iff] at hlast
  rwa [visit_of_unreplaced hpass hlast] at hother

end AgreesOnStrongest

/-- Replacements that are hidden make no difference to any result, though they are visited. -/
theorem sameResults_of_agreesOnStrongest
    (hagree : ∀ name args, classifier.AgreesOnStrongest other name args) :
    classifier.SameResults other := by
  intro type context stack
  induction type, context, stack using classifier.visit_induction
    (Q := classifier.SameStrongest other) with
  | primitive kind context stack =>
    intro result result' hfirst hsecond
    rw [visit_primitive] at hfirst hsecond
    exact Except.ok.inj (hfirst.symm.trans hsecond)
  | dimension inner context stack ih =>
    intro result result' hfirst hsecond
    rw [visit_array_array, map_eq_ok_iff] at hfirst hsecond
    obtain ⟨items, hfirst, rfl⟩ := hfirst
    obtain ⟨items', hsecond, rfl⟩ := hsecond
    rw [ih items items' hfirst hsecond]
  | array component context stack hcomponent ih =>
    intro result result' hfirst hsecond
    rw [visit_array _ hcomponent] at hfirst hsecond
    exact ih result result' hfirst hsecond
  | varNone name context stack =>
    intro result result' hfirst hsecond
    rw [visit_var_none] at hfirst hsecond
    exact Except.ok.inj (hfirst.symm.trans hsecond)
  | wildcardNone context stack =>
    intro result result' hfirst hsecond
    rw [visit_wildcard_none] at hfirst hsecond
    exact Except.ok.inj (hfirst.symm.trans hsecond)
  | varSome name bound context stack ih =>
    intro result result' hfirst hsecond
    rw [visit_var_some, map_eq_ok_iff] at hfirst hsecond
    obtain ⟨type, hfirst, rfl⟩ := hfirst
    obtain ⟨type', hsecond, rfl⟩ := hsecond
    rw [ih type type' hfirst hsecond]
  | wildcardSome bound context stack ih =>
    intro result result' hfirst hsecond
    rw [visit_wildcard_some, map_eq_ok_iff] at hfirst hsecond
    obtain ⟨type, hfirst, rfl⟩ := hfirst
    obtain ⟨type', hsecond, rfl⟩ := hsecond
    rw [ih type type' hfirst hsecond]
  | cutShort name args context stack hblocks =>
    intro result result' hfirst hsecond
    rw [visit_of_blocks _ hblocks] at hfirst hsecond
    rw [(hagree name args).cutShort] at hfirst
    exact Except.ok.inj (hfirst.symm.trans hsecond)
  | failed name args context stack error hpass hfailed ih =>
    intro result result' hfirst hsecond
    rw [visit_failed hpass hfailed] at hfirst
    cases hfirst
  | replaced name args context stack type hpass hreplaced ih =>
    intro result result' hfirst hsecond
    rw [visit_replaced hpass hreplaced] at hfirst
    cases hfirst
    exact (hagree name args).eq_of_replaced hpass hreplaced ih hsecond
  | map name args context stack key value hpass hnone hentry ih ihkey ihvalue =>
    intro result result' hfirst hsecond
    replace hsecond := (hagree name args).visitParts_eq_ok hpass hnone hsecond
    rw [visitParts, ← (hagree name args).keyValue?, hentry] at hsecond
    rw [visit_map hpass hnone hentry] at hfirst
    obtain ⟨keyType, hkey, hrest⟩ := bind_eq_ok_iff.1 hfirst
    obtain ⟨valueType, hvalue, hmap⟩ := bind_eq_ok_iff.1 hrest
    obtain ⟨keyType', hkey', hrest'⟩ := bind_eq_ok_iff.1 hsecond
    obtain ⟨valueType', hvalue', hmap'⟩ := bind_eq_ok_iff.1 hrest'
    obtain rfl := ihkey keyType keyType' hkey hkey'
    obtain rfl := ihvalue valueType valueType' hvalue hvalue'
    exact Except.ok.inj (hmap.symm.trans hmap')
  | component name args context stack component hpass hnone hentry hcomponent ih ihcomponent =>
    intro result result' hfirst hsecond
    replace hsecond := (hagree name args).visitParts_eq_ok hpass hnone hsecond
    rw [visitParts, ← (hagree name args).keyValue?, hentry, ← (hagree name args).component?,
      hcomponent] at hsecond
    rw [visit_component hpass hnone hentry hcomponent] at hfirst
    exact ihcomponent result result' hfirst hsecond
  | named name args context stack hpass hnone hentry hcomponent ih =>
    intro result result' hfirst hsecond
    replace hsecond := (hagree name args).visitParts_eq_ok hpass hnone hsecond
    rw [visitParts, ← (hagree name args).keyValue?, hentry, ← (hagree name args).component?,
      hcomponent, ← (hagree name args).named] at hsecond
    rw [visit_named hpass hnone hentry hcomponent] at hfirst
    exact Except.ok.inj (hfirst.symm.trans hsecond)
  | nil stack =>
    intro found found' hfirst hsecond
    rw [List.getLast?_nil, Option.toList_none, visitReplacements_nil] at hfirst hsecond
    exact Except.ok.inj (hfirst.symm.trans hsecond)
  | unstructured rest stack ih =>
    intro found found' hfirst hsecond
    cases rest with
    | nil =>
      rw [List.getLast?_singleton, Option.toList_some, visitReplacements_unstructured,
        visitReplacements_nil] at hfirst hsecond
      exact Except.ok.inj (hfirst.symm.trans hsecond)
    | cons next rest =>
      rw [List.getLast?_cons_cons] at hfirst hsecond
      exact ih found found' hfirst hsecond
  | type use rest stack ih ihrest =>
    intro found found' hfirst hsecond
    cases rest with
    | nil =>
      rw [List.getLast?_singleton, Option.toList_some, visitReplacements_type] at hfirst hsecond
      simp only [visitReplacements_nil] at hfirst hsecond
      obtain ⟨type, htype, hfound⟩ := bind_eq_ok_iff.1 hfirst
      obtain ⟨type', htype', hfound'⟩ := bind_eq_ok_iff.1 hsecond
      obtain rfl := ih type type' htype htype'
      exact Except.ok.inj (hfound.symm.trans hfound')
    | cons next rest =>
      rw [List.getLast?_cons_cons] at hfirst hsecond
      exact ihrest found found' hfirst hsecond

/-! ### Other overrides -/

section Override

variable {name : String} {declaration : Declaration} {hint : Option TypeUse}
  {serialization : Option Serialization}

/-- The classifier in which a declaration has other overrides. Its adapter stays. -/
def override (classifier : Classifier) (name : String) (declaration : Declaration)
    (hint : Option TypeUse) (serialization : Option Serialization) : Classifier :=
  classifier.declare name { declaration with typeHint := hint, serialization := serialization }

lemma declaration?_override (classifier : Classifier) (name : String) (declaration : Declaration)
    (hint : Option TypeUse) (serialization : Option Serialization) (n : String) :
    (classifier.override name declaration hint serialization).graph.declaration? n =
      if name = n then
        some { declaration with typeHint := hint, serialization := serialization }
      else classifier.graph.declaration? n :=
  classifier.declaration?_declare name _ n

lemma redeclared_override (h : classifier.graph.declaration? name = some declaration) :
    classifier.graph.Redeclared (classifier.override name declaration hint serialization).graph
      name declaration { declaration with typeHint := hint, serialization := serialization } :=
  ⟨h, classifier.declaration?_override name declaration hint serialization⟩

/-- Only the strongest replacement of a declaration tells other overrides from its own. -/
lemma sameResults_override (h : classifier.graph.declaration? name = some declaration)
    (hstrongest : ∀ args, (declaration.replacements (.declared name args)).getLast? =
      ({ declaration with typeHint := hint, serialization := serialization }.replacements
        (.declared name args)).getLast?) :
    classifier.SameResults (classifier.override name declaration hint serialization) := by
  apply sameResults_of_agreesOnStrongest
  intro n args
  have hredeclared : classifier.graph.Redeclared
      (classifier.override name declaration hint serialization).graph name declaration
        { declaration with typeHint := hint, serialization := serialization } :=
    redeclared_override h
  have hsupertypes := hredeclared.sameSupertypes fun _ => rfl
  constructor
  · rw [replacements, replacements, declaration?_override]
    by_cases heq : name = n
    · rw [if_pos heq, ← heq, h]
      exact hstrongest args
    · rw [if_neg heq]
  · rw [cutShort, cutShort, hsupertypes.isCollection_eq rfl]
  · exact hsupertypes.keyValue?_eq rfl _
  · exact hsupertypes.component?_eq rfl (hredeclared.isTransient_eq rfl) _
  · exact named_eq_of_redeclared hredeclared rfl rfl rfl rfl rfl rfl n

/-- An override is not seen in any result where a stronger one hides it, at whatever use of the
declaration it is visited. An adapter to another type hides all the rest, the type that a
declaration is serialized as hides its own serializer and its hint, and that serializer hides the
hint. -/
theorem hidden_override_unobservable (classifier : Classifier) {name : String}
    {declaration : Declaration} (h : classifier.graph.declaration? name = some declaration) :
    (∀ target, declaration.target? = some target →
      target.declaredName? ≠ some name → target.declaredName? ≠ some declaration.name →
      ∀ hint serialization,
        classifier.SameResults (classifier.override name declaration hint serialization)) ∧
    (∀ custom substitute, declaration.serialization = some ⟨custom, some substitute⟩ →
      ∀ hint custom', classifier.SameResults
        (classifier.override name declaration hint (some ⟨custom', some substitute⟩))) ∧
    (declaration.serialization = some ⟨true, none⟩ →
      ∀ hint, classifier.SameResults
        (classifier.override name declaration hint declaration.serialization)) := by
  refine ⟨?_, ?_, ?_⟩
  · intro target htarget hname hown hint serialization
    apply sameResults_override h
    intro args
    have hadapting : TypeGraph.adapting? declaration (.declared name args) = some target := by
      rw [TypeGraph.adapting?, htarget, Option.filter_some, if_pos]
      apply decide_eq_true
      constructor
      · rintro rfl
        exact hname rfl
      · rintro rfl
        exact hown rfl
    have hother : TypeGraph.adapting?
        { declaration with typeHint := hint, serialization := serialization }
        (.declared name args) = some target := hadapting
    rw [Declaration.getLast?_replacements, Declaration.getLast?_replacements, hadapting, hother,
      Option.map_some, Option.some_or, Option.some_or]
  · intro custom substitute hserialization hint custom'
    apply sameResults_override h
    intro args
    have hsubstitute : declaration.substitute? = some substitute := by
      rw [Declaration.substitute?, hserialization]
      rfl
    rw [Declaration.getLast?_replacements, hsubstitute, Declaration.getLast?_replacements]
    rfl
  · intro hserialization hint
    apply sameResults_override h
    intro args
    have hsubstitute : declaration.substitute? = none := by
      rw [Declaration.substitute?, hserialization]
      rfl
    have hcustom : declaration.hasCustomSerializer = true := by
      rw [Declaration.hasCustomSerializer, hserialization]
      rfl
    rw [Declaration.getLast?_replacements, hsubstitute, hcustom, Declaration.getLast?_replacements,
      hserialization]
    rfl

/-- A class `D` with a hint, a serializer of its own, and an adapter to a number. -/
def adaptedToNumber : Declaration :=
  { Declaration.bare "D" with
    typeHint := some (.declared "L" [.declared "D" []])
    serialization := some ⟨true, none⟩
    adapter := some ⟨.declared "N" [], none⟩ }

/-- A class `E` with a hint that is serialized as a list of `D`. -/
def serializedAsList : Declaration :=
  { Declaration.bare "E" with
    typeHint := some (.declared "F" [])
    serialization := some ⟨true, some (.declared "L" [.declared "D" []])⟩ }

/-- A class `F` with a hint and a serializer of its own. -/
def serializedByItself : Declaration :=
  { Declaration.bare "F" with
    typeHint := some (.declared "E" [])
    serialization := some ⟨true, none⟩ }

/-- The three classes; their hints lead from one to another. -/
def hintedClasses : Classifier where
  graph :=
    { declarations := ((OrderedMap.empty.insert "D" adaptedToNumber).insert "E"
        serializedAsList).insert "F" serializedByItself
      packages := ∅
      settings := ⟨"O", .ofList ["L"], ∅, ∅⟩ }
  registry := Registry.empty.register "N" (.numeric .number none)

/-- If `D` is adapted to a number, a list of `D` is an array of numbers, with a use open as well. -/
lemma visit_list_of_numbers {weaker : List Replacement} {found : Option SchemaType}
    (hlist : classifier.replacements "L" (.declared "L" [.declared "D" []]) = [])
    (hentry : classifier.graph.keyValue? (.declared "L" [.declared "D" []]) = none)
    (hcomponent : classifier.graph.component? (.declared "L" [.declared "D" []]) =
      some (.declared "D" []))
    (hreplacements : classifier.replacements "D" (.declared "D" []) =
      weaker ++ [.type (.declared "N" [])])
    (hweaker : classifier.visitReplacements weaker ⟨["D", "L<D>", "S"]⟩ = .ok found)
    (hnumber : classifier.visit (.declared "N" []) .plain ⟨["D", "L<D>", "S"]⟩ =
      .ok (.numeric .number none)) :
    classifier.visit (.declared "L" [.declared "D" []]) .plain ⟨["S"]⟩ =
      .ok (.array (.numeric .number none)) := by
  have hpass : ¬ (⟨["L<D>", "S"]⟩ : UseStack).blocks "D" (.declared "D" []) := by decide
  rw [visit_of_component (by decide) hlist hentry hcomponent]
  refine (visit_of_replaced hpass hreplacements hweaker .collection).trans ?_
  exact congrArg (_ <$> ·) hnumber

/-- With its hint and its serializer or without them, a list of `D` is an array of numbers. -/
theorem hints_of_hinted_classes_unobservable :
    hintedClasses.SameResults (hintedClasses.override "D" adaptedToNumber none none) ∧
      hintedClasses.SameResults (hintedClasses.override "E" serializedAsList none
        (some ⟨false, some (.declared "L" [.declared "D" []])⟩)) ∧
      hintedClasses.SameResults (hintedClasses.override "F" serializedByItself none
        (some ⟨true, none⟩)) ∧
      hintedClasses.visit (.declared "L" [.declared "D" []]) .plain ⟨["S"]⟩ =
        .ok (.array (.numeric .number none)) ∧
      (hintedClasses.override "D" adaptedToNumber none none).visit
          (.declared "L" [.declared "D" []]) .plain ⟨["S"]⟩ =
        .ok (.array (.numeric .number none)) := by
  have hvisit : hintedClasses.visit (.declared "L" [.declared "D" []]) .plain ⟨["S"]⟩ =
      .ok (.array (.numeric .number none)) := by
    have hreplacements : hintedClasses.replacements "D" (.declared "D" []) =
        [.type (.declared "L" [.declared "D" []]), .unstructured] ++
          [.type (.declared "N" [])] := rfl
    have hhint : hintedClasses.visit (.declared "L" [.declared "D" []]) .plain
        ⟨["D", "L<D>", "S"]⟩ = .ok (.array .object) := by
      rw [visit_of_blocks _ (by decide)]
      cbv
    have hweaker : hintedClasses.visitReplacements
        [.type (.declared "L" [.declared "D" []]), .unstructured] ⟨["D", "L<D>", "S"]⟩ =
          .ok (some .object) := by
      rw [visitReplacements_type, hhint, visitReplacements_unstructured, visitReplacements_nil]
      rfl
    exact visit_list_of_numbers rfl (by cbv) (TypeGraph.component?_of_isCollectionRoot rfl rfl)
      hreplacements hweaker (visit_of_bare (by decide) rfl (by cbv) (by cbv) .plain)
  have hother : (hintedClasses.override "D" adaptedToNumber none none).visit
      (.declared "L" [.declared "D" []]) .plain ⟨["S"]⟩ =
        .ok (.array (.numeric .number none)) := by
    have hreplacements : (hintedClasses.override "D" adaptedToNumber none none).replacements "D"
        (.declared "D" []) = [] ++ [.type (.declared "N" [])] := rfl
    exact visit_list_of_numbers rfl (by cbv) (TypeGraph.component?_of_isCollectionRoot rfl rfl)
      hreplacements (visitReplacements_nil _ _)
      (visit_of_bare (by decide) rfl (by cbv) (by cbv) .plain)
  refine ⟨?_, ?_, ?_, hvisit, hother⟩
  · exact (hidden_override_unobservable hintedClasses rfl).1 _ rfl (by decide) (by decide) none none
  · exact (hidden_override_unobservable hintedClasses rfl).2.1 true _ rfl none false
  · exact (hidden_override_unobservable hintedClasses rfl).2.2 rfl none

end Override

end Classifier

end SchemaTyping
