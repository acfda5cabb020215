import SchemaTyping.Proofs.ClientName.Containers
import SchemaTyping.Proofs.Member.Elements

/-!
# Client names of members

A member is called after its element: the adapter of the element's declaration is looked up before
anything else, and the member has the name of the adapting type, in brackets if there was a layer
around the element. Elsewhere a type has the name to which the steps from it lead, and these come to
an adapter last, after enumerations, containers and the classes that have names of their own. This
module says when both come to the same.
-/

namespace SchemaTyping

open TypeGraph

/-- A name with brackets for the layer that stands around an element. -/
def Wrapping.layered : Wrapping → String → String
  | none => id
  | array | collection => bracketed

lemma Wrapping.layered_injective (wrapping : Wrapping) : Function.Injective wrapping.layered := by
  cases wrapping with
  | none => exact Function.injective_id
  | array | collection => exact bracketed_injective

namespace ClientNaming

variable {naming : ClientNaming} {type : TypeUse}

lemma adaptedName_eq (naming : ClientNaming) (adaptation : Adaptation) :
    naming.adaptedName adaptation =
      adaptation.wrapping.layered (naming.typeName adaptation.adapting) := by
  rw [adaptedName]
  cases adaptation.wrapping <;> rfl

/-- The steps from a type lead through its layer to its element. -/
structure PassesTo (naming : ClientNaming) (found : ElementAdapter naming.graph type) : Prop where
  /-- The container is no enumeration. -/
  noEnumeration : found.wrapping = .collection →
    isEnumeration (type.declaredName?.bind naming.graph.declaration?) = false
  /-- The element is the only argument of the container, or the bound of the only one. -/
  argument : found.wrapping = .collection →
    type.args = [found.use] ∨ type.args = [.wildcard (some found.use)]

/-- The step from an element leads to what it is adapted to. -/
structure Follows (naming : ClientNaming) (found : ElementAdapter naming.graph type) : Prop where
  noEnumeration : found.declaration.kind ≠ .enumeration
  noCollection : naming.graph.isCollection found.use = false
  noStream : naming.graph.isStream found.use = false
  /-- The class has no name of its own. -/
  unconverted : classNames.lookup found.name = none
  noContainer : naming.isRawContainer found.name = false
  /-- The adapter does not lead to another use of the same declaration. -/
  other : found.target.declaredName? ≠ some found.name

lemma step_eq_adapter_iff (found : ElementAdapter naming.graph type) :
    naming.step found.use = .adapter found.name found.target ↔ naming.Follows found := by
  have htarget : adapterTarget? found.name (some found.declaration) = some found.target ↔
      found.target.declaredName? ≠ some found.name := by
    rw [adapterTarget?, Option.bind_some, found.target_eq, Option.filter_some]
    simp
  have henumeration : isEnumeration (some found.declaration) = false ↔
      found.declaration.kind ≠ .enumeration := by
    simp [isEnumeration]
  rw [ElementAdapter.use, step_declared_eq_adapter_iff, found.declaration_eq,
    nameOrTarget_eq_inr_iff, htarget, henumeration]
  constructor
  · rintro ⟨-, ⟨hcollection, hstream⟩, hconverted, hkind, hcontainer, hother⟩
    exact ⟨hkind, hcollection, hstream, hconverted, hcontainer, hother⟩
  · intro h
    exact ⟨rfl, ⟨h.noCollection, h.noStream⟩, h.unconverted, h.noEnumeration, h.noContainer,
      h.other⟩

/-- Where the steps from a type lead to its element, the type is called after it. -/
lemma typeName_eq_layered {found : ElementAdapter naming.graph type}
    (h : naming.PassesTo found) :
    naming.typeName type = found.wrapping.layered (naming.typeName found.use) := by
  obtain ⟨name, args, wrapping, declaration, target, helement, hdecl, htarget, hne⟩ := found
  obtain ⟨henumeration, hargument⟩ := h
  cases elementView_of_eq helement with
  | self => rfl
  | array => exact typeName_of_layer rfl
  | @component outer outerArgs hentry hcomponent =>
    have hsequence := isSome_component?_declared_iff.1 (Option.isSome_of_eq_some hcomponent)
    have hstep := step_of_sequence (henumeration rfl) hsequence
    rcases hargument rfl with hargs | hargs
    · exact typeName_of_layer (hstep.trans (congrArg sequenceStep hargs))
    · exact (typeName_of_layer (hstep.trans (congrArg sequenceStep hargs))).trans
        (congrArg bracketed (typeName_of_bound rfl))

lemma memberName_eq {owner : Declaration} {member : Member} (hmember : member.adapter = none) :
    naming.memberName owner member =
      (naming.graph.adaptationAt ⟨none, some owner.package⟩ member.effectiveType).map fun
        | some adaptation => naming.adaptedName adaptation
        | none => naming.typeName member.effectiveType := by
  rw [← hmember]
  rfl

/-- The adapter of an element counts for a member whatever the declaration of the element is. -/
lemma memberName_eq_layered (owner : Declaration) {member : Member}
    (hmember : member.adapter = none) (found : ElementAdapter naming.graph member.effectiveType) :
    naming.memberName owner member =
      .ok (found.wrapping.layered (naming.typeName found.target)) := by
  rw [memberName_eq hmember, found.adaptationAt_eq]
  exact congrArg Except.ok (naming.adaptedName_eq _)

/-- A container that is an enumeration is called a string, whatever its element. -/
lemma typeName_of_enumerated_container {found : ElementAdapter naming.graph type}
    (hwrapping : found.wrapping = .collection)
    (henumeration : isEnumeration (type.declaredName?.bind naming.graph.declaration?) = true) :
    naming.typeName type = "string" := by
  obtain ⟨name, args, wrapping, declaration, target, helement, hdecl, htarget, hne⟩ := found
  cases elementView_of_eq helement with
  | self | array => cases hwrapping
  | component hentry hcomponent => exact typeName_of_ends (step_of_enumeration henumeration _)

/-- A container that is no enumeration is called after its own arguments, whatever its element. -/
lemma typeName_of_own_arguments {found : ElementAdapter naming.graph type}
    (hwrapping : found.wrapping = .collection)
    (henumeration : isEnumeration (type.declaredName?.bind naming.graph.declaration?) = false) :
    naming.typeName type = naming.sequenceName type.args := by
  obtain ⟨name, args, wrapping, declaration, target, helement, hdecl, htarget, hne⟩ := found
  cases elementView_of_eq helement with
  | self | array => cases hwrapping
  | component hentry hcomponent =>
    have hsequence := isSome_component?_declared_iff.1 (Option.isSome_of_eq_some hcomponent)
    exact typeName_of_sequence henumeration hsequence

/-- A member whose element stands in a container is called like its type if and only if the
container is no enumeration and has exactly one argument of its own, with the name of the adapting
type: the type itself is called after its own arguments, whatever its element is. -/
theorem memberName_of_container_iff (naming : ClientNaming) (owner : Declaration) (member : Member)
    (hmember : member.adapter = none)
    (found : ElementAdapter naming.graph member.effectiveType)
    (hwrapping : found.wrapping = .collection) :
    naming.memberName owner member = .ok (naming.typeName member.effectiveType) ↔
      isEnumeration (member.effectiveType.declaredName?.bind naming.graph.declaration?) = false ∧
        ∃ own, member.effectiveType.args = [own] ∧
          naming.typeName own = naming.typeName found.target := by
  rw [memberName_eq_layered owner hmember found, hwrapping, Except.ok.injEq, eq_comm]
  cases henumeration :
    isEnumeration (member.effectiveType.declaredName?.bind naming.graph.declaration?) with
  | true =>
    rw [typeName_of_enumerated_container hwrapping henumeration]
    refine iff_of_false (fun h => ?_) (fun h => by cases h.1)
    exact bracketed_ne (by decide) (by decide) _ h.symm
  | false =>
    rw [typeName_of_own_arguments hwrapping henumeration]
    exact sequenceName_eq_bracketed_iff.trans (and_iff_right rfl).symm

/-- A member that has no adapter of its own, in a package that registers none, always has a name: it
is called like its type unless the declaration of its element has an adapter that leads to another
type. Then it has the name of that type, in the layer of the element. Where the steps from the
member's type lead to the element, this is the name of the type if and only if the element on its
own is called like what it is adapted to, and so it is where the step from the element follows the
adapter: where the element is no enumeration, no container and no class with a name of its own, and
the adapter does not lead to another use of its declaration. A container that is an enumeration is
itself called a string. -/
theorem memberName_without_adapter (naming : ClientNaming) (owner : Declaration) (member : Member)
    (hmember : member.adapter = none)
    (hpackage : ∀ described, naming.graph.package? owner.package = some described →
      described.adapters = []) :
    (IsEmpty (ElementAdapter naming.graph member.effectiveType) →
      naming.memberName owner member = .ok (naming.typeName member.effectiveType)) ∧
    ∀ found : ElementAdapter naming.graph member.effectiveType,
      naming.memberName owner member =
        .ok (found.wrapping.layered (naming.typeName found.target)) ∧
      (naming.PassesTo found →
        (naming.memberName owner member = .ok (naming.typeName member.effectiveType) ↔
          naming.typeName found.use = naming.typeName found.target)) ∧
      (naming.step found.use = .adapter found.name found.target ↔ naming.Follows found) ∧
      (naming.Follows found → naming.typeName found.use = naming.typeName found.target) ∧
      (found.wrapping = .collection →
        isEnumeration (member.effectiveType.declaredName?.bind naming.graph.declaration?) →
          naming.typeName member.effectiveType = "string") := by
  constructor
  · intro hnone
    rw [memberName_eq hmember,
      adaptationAt_eq_none (adapterTable_eq_empty hpackage) hnone]
    rfl
  · intro found
    have hadapted := memberName_eq_layered owner hmember found
    refine ⟨hadapted, fun hpasses => ?_, step_eq_adapter_iff found, fun hfollows =>
      typeName_of_adapter ((step_eq_adapter_iff found).2 hfollows),
      typeName_of_enumerated_container⟩
    rw [hadapted, typeName_eq_layered hpasses, Except.ok.injEq,
      found.wrapping.layered_injective.eq_iff]
    exact eq_comm

open Classifier

/-- A list of adapted elements is called after what they are adapted to, for a member and elsewhere.
-/
theorem list_of_adapted_named_like_member :
    (plainMember (.declared "L" [.declared "E" []])).adapter = none ∧
      adaptedElement.graph.naming.typeName (.declared "L" [.declared "E" []]) = "\\N[]" ∧
      adaptedElement.graph.naming.memberName (.bare "Own")
          (plainMember (.declared "L" [.declared "E" []])) =
        .ok (adaptedElement.graph.naming.typeName (.declared "L" [.declared "E" []])) := by
  have hpasses : adaptedElement.graph.naming.PassesTo listElement :=
    { noEnumeration := fun _ => rfl
      argument := fun _ => .inl rfl }
  have hfollows : adaptedElement.graph.naming.Follows listElement :=
    { noEnumeration := by decide
      noCollection := by cbv
      noStream := by cbv
      unconverted := by decide
      noContainer := by cbv
      other := by decide }
  obtain ⟨-, hfound⟩ := memberName_without_adapter adaptedElement.graph.naming (.bare "Own")
    (plainMember (.declared "L" [.declared "E" []])) rfl (fun described h => by cases h)
  obtain ⟨hadapted, hsame, -, htarget, -⟩ := hfound listElement
  have hequal := (hsame hpasses).2 (htarget hfollows)
  have hname : adaptedElement.graph.naming.typeName (.declared "N" []) = "\\N" := by
    rw [typeName_of_isPlain (.of_undeclared rfl (by decide) (by decide) (by decide) (by decide))]
    decide
  have hmember : listElement.wrapping.layered
      (adaptedElement.graph.naming.typeName listElement.target) = "\\N[]" := by
    rw [show listElement.target = .declared "N" [] from rfl, hname]
    cbv
  refine ⟨rfl, ?_, hequal⟩
  rw [← hmember]
  exact Except.ok.inj (hequal.symm.trans hadapted)

/-- An enumeration `E` that is adapted to a number `N`. -/
def adaptedEnumeration : TypeGraph where
  declarations := OrderedMap.empty.insert "E" { adapted with kind := .enumeration }
  packages := ∅
  settings := adaptedElement.graph.settings

lemma adaptedTarget_ne : TypeUse.declared "N" [] ≠ .declared "E" [] := by decide

/-- The adapter of the enumeration. -/
def enumeratedElement : ElementAdapter adaptedEnumeration (.declared "E" []) where
  name := "E"
  args := []
  wrapping := .none
  declaration := { adapted with kind := .enumeration }
  target := .declared "N" []
  element_eq := by cbv
  declaration_eq := rfl
  target_eq := rfl
  target_ne := adaptedTarget_ne

/-- The uses of an enumeration are strings whatever it is adapted to, but a member is called after
the adapting type. -/
theorem adapted_enumeration_named_unlike_member :
    (plainMember (.declared "E" [])).adapter = none ∧ adaptedEnumeration.packages = ∅ ∧
      adaptedEnumeration.naming.memberName (.bare "Own") (plainMember (.declared "E" [])) =
        .ok "\\N" ∧
      adaptedEnumeration.naming.typeName (.declared "E" []) = "string" := by
  have hname : adaptedEnumeration.naming.typeName (.declared "N" []) = "\\N" := by
    rw [typeName_of_isPlain (.of_undeclared rfl (by decide) (by decide) (by decide) (by decide))]
    decide
  refine ⟨rfl, rfl, ?_, typeName_of_ends (step_of_enumeration rfl [])⟩
  rw [memberName_eq_layered _ rfl enumeratedElement]
  exact congrArg Except.ok hname

end ClientNaming

end SchemaTyping
