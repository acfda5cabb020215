import SchemaTyping.Proofs.Guard.Below
import SchemaTyping.Proofs.Member.Tables
import SchemaTyping.Proofs.Results
import SchemaTyping.Proofs.Visit.Layers

/-!
# Members and their types

A member is classified by way of its element: the adapter of the element's declaration is looked
up before anything else, and the adapting type is visited in the place of the element. Elsewhere a
type is visited from the outside, and the adapter is met inside the container. This module says
when both come to the same.
-/

namespace SchemaTyping

/-- What a declaration puts in the place of a use of it, apart from its adapter. -/
def Declaration.overrides (declaration : Declaration) : List Replacement :=
  declaration.typeHint.toList.map .type ++
    (if declaration.hasCustomSerializer then [.unstructured] else []) ++
    declaration.substitute?.toList.map .type

lemma Declaration.replacements_eq {declaration : Declaration} {use target : TypeUse}
    (h : TypeGraph.adapting? declaration use = some target) :
    declaration.replacements use = declaration.overrides ++ [.type target] := by
  rw [replacements, h]
  rfl

/-- The element of a type has a declaration with an adapter that leads to another type. -/
structure ElementAdapter (graph : TypeGraph) (type : TypeUse) where
  name : String
  args : List TypeUse
  wrapping : Wrapping
  declaration : Declaration
  target : TypeUse
  element_eq : graph.element type = (.declared name args, wrapping)
  declaration_eq : graph.declaration? name = some declaration
  target_eq : declaration.target? = some target
  target_ne : target ≠ .declared name args

/-- How a declared element stands in a type. -/
inductive TypeGraph.ElementView (graph : TypeGraph) (name : String) (args : List TypeUse) :
    TypeUse → Wrapping → Prop where
  | self : ElementView graph name args (.declared name args) .none
  | array : ElementView graph name args (.array (.declared name args)) .array
  | component {outer : String} {outerArgs : List TypeUse}
    (hentry : graph.keyValue? (.declared outer outerArgs) = none)
    (hcomponent : graph.component? (.declared outer outerArgs) = some (.declared name args)) :
    ElementView graph name args (.declared outer outerArgs) .collection

lemma TypeGraph.elementView_of_eq {graph : TypeGraph} {type : TypeUse} {name : String}
    {args : List TypeUse} {wrapping : Wrapping}
    (h : graph.element type = (.declared name args, wrapping)) :
    graph.ElementView name args type wrapping := by
  cases type with
  | array component =>
    cases h
    exact .array
  | declared outer outerArgs =>
    rw [element] at h
    split at h
    · cases h
      exact .self
    · next hmap =>
      split at h
      · next component hcomponent =>
        cases h
        refine .component ?_ hcomponent
        rw [isMap, Option.not_isSome_iff_eq_none] at hmap
        rw [keyValue?, hmap]
        rfl
      · cases h
        exact .self
  | primitive | var | wildcard => cases h

namespace ElementAdapter

variable {graph : TypeGraph} {type : TypeUse}

/-- The element. -/
def use (found : ElementAdapter graph type) : TypeUse :=
  .declared found.name found.args

/-- The context of the element. -/
def context (found : ElementAdapter graph type) : Context :=
  .ofWrapping found.wrapping

/-- The texts of the uses that are open around the element. -/
def around (found : ElementAdapter graph type) : List String :=
  if found.wrapping = .collection then [type.text] else []

lemma adapterOf?_eq (found : ElementAdapter graph type) :
    ∃ adapter, graph.adapterOf? found.name = some adapter ∧ adapter.target = found.target := by
  have htarget := found.target_eq
  rw [Declaration.target?, Option.map_eq_some_iff] at htarget
  obtain ⟨adapter, hadapter, heq⟩ := htarget
  exact ⟨adapter, by rw [TypeGraph.adapterOf?, found.declaration_eq]; exact hadapter, heq⟩

/-- The adapter is found for a member that has none of its own. -/
lemma adaptationAt_eq (found : ElementAdapter graph type) (package : Option String) :
    graph.adaptationAt ⟨none, package⟩ type =
      .ok (some ⟨found.target, .type, found.wrapping⟩) := by
  obtain ⟨adapter, hadapter, htarget⟩ := found.adapterOf?_eq
  have hname : (graph.element type).1.declaredName? = some found.name := by
    rw [found.element_eq]
    rfl
  rw [TypeGraph.adaptationAt_type hname hadapter, found.element_eq, TypeGraph.adaptationBy, htarget]
  exact congrArg Except.ok (if_neg found.target_ne)

end ElementAdapter

open TypeGraph

/-- Without an adapter for the element, nothing is found in a package that has no adapters. -/
lemma TypeGraph.adaptationAt_eq_none {graph : TypeGraph} {type : TypeUse} {package : String}
    (hpackage : graph.adapterTable package = .ok ∅) (h : IsEmpty (ElementAdapter graph type)) :
    graph.adaptationAt ⟨none, some package⟩ type = .ok none := by
  cases hname : (graph.element type).1.declaredName? with
  | none => exact adaptationAt_undeclared hname _
  | some name =>
    cases hadapter : graph.adapterOf? name with
    | none =>
      rw [adaptationAt_package hname hadapter, hpackage]
      rfl
    | some adapter =>
      rw [adaptationAt_type hname hadapter, adaptationBy]
      by_cases htarget : adapter.target = (graph.element type).1
      · rw [if_pos htarget]
      · obtain ⟨declaration, hdecl, hown⟩ := Option.bind_eq_some_iff.1 hadapter
        cases helement : graph.element type with
        | mk element wrapping =>
          rw [helement] at hname htarget
          cases element with
          | declared name' args =>
            cases hname
            exact h.elim ⟨name, args, wrapping, declaration, adapter.target, helement, hdecl,
              by rw [Declaration.target?, hown]; rfl, htarget⟩
          | primitive | array | var | wildcard => cases hname

namespace Classifier

variable {classifier : Classifier} {type : TypeUse}

/-- The replacements of a use; only a declared use has any. -/
def replacementsOf (classifier : Classifier) : TypeUse → List Replacement
  | .declared name args => classifier.replacements name (.declared name args)
  | _ => []

/-- A visit of a type on its own comes to the adapter of its element. -/
structure ReachesAdapter (classifier : Classifier) (type : TypeUse)
    (found : ElementAdapter classifier.graph type) : Prop where
  /-- Nothing is put in the place of the container. -/
  container : found.wrapping = .collection → classifier.replacementsOf type = []
  /-- The element is not cut short for the sake of the container. -/
  apart : found.wrapping = .collection → found.use.text ≠ type.text
  /-- The adapter does not lead back to the declaration. -/
  other : found.target ≠ found.declaration.asType
  /-- The weaker overrides of the element are not in error. -/
  overrides : ∃ weaker, classifier.visitReplacements found.declaration.overrides
    ⟨found.use.text :: found.around⟩ = .ok weaker

/-- A type on its own is its element in the layer of the container. -/
lemma classify_eq_visit_element (found : ElementAdapter classifier.graph type)
    (hcontainer : found.wrapping = .collection → classifier.replacementsOf type = []) :
    classifier.classify type = classifier.visit found.use found.context ⟨found.around⟩ := by
  obtain ⟨name, args, wrapping, declaration, target, helement, hdecl, htarget, hne⟩ := found
  rw [classify]
  cases elementView_of_eq helement with
  | self => rfl
  | array => exact visit_array classifier (fun inner h => by cases h) _ _
  | component hentry hcomponent =>
    rw [visit_of_unreplaced (UseStack.not_blocks_empty _ _) (hcontainer rfl), visitParts, hentry,
      hcomponent]
    rfl

lemma not_blocks_around (found : ElementAdapter classifier.graph type)
    (hapart : found.wrapping = .collection → found.use.text ≠ type.text) :
    ¬ (⟨found.around⟩ : UseStack).blocks found.name found.use := by
  have hlength : found.around.length ≤ 1 := by
    rw [ElementAdapter.around]
    split <;> simp
  have huses : (⟨found.around⟩ : UseStack).usesOf found.name ≤ 1 :=
    List.countP_le_length.trans hlength
  rw [UseStack.blocks, Bool.or_eq_true, decide_eq_true_eq, decide_eq_true_eq]
  rintro (hmem | hfull)
  · rw [UseStack.mem_iff, ElementAdapter.around] at hmem
    split at hmem
    · next hwrapping => exact hapart hwrapping (List.mem_singleton.1 hmem)
    · cases hmem
  · exact absurd (hfull.trans huses) (by decide)

/-- A type on its own is what its element is adapted to, in the layer of the container. -/
lemma classify_eq_wrap_visit_target {found : ElementAdapter classifier.graph type}
    (h : classifier.ReachesAdapter type found) :
    classifier.classify type =
      found.context.wrap <$> classifier.visit found.target .plain
        ⟨found.use.text :: found.around⟩ := by
  obtain ⟨weaker, hweaker⟩ := h.overrides
  have hadapting : adapting? found.declaration found.use = some found.target := by
    rw [adapting?, found.target_eq, Option.filter_some, if_pos]
    exact decide_eq_true ⟨found.target_ne, h.other⟩
  have hreplacements : classifier.replacements found.name found.use =
      found.declaration.overrides ++ [.type found.target] := by
    rw [replacements, found.declaration_eq]
    exact Declaration.replacements_eq hadapting
  rw [classify_eq_visit_element found h.container]
  exact visit_of_replaced (not_blocks_around found h.apart) hreplacements hweaker found.context

/-! ### Members -/

/-- Where the adapting type meets no use that is cut short on account of the element or container,
a type on its own is the adapting type on its own, in the layer of the container. -/
lemma classify_eq_wrap_classify {found : ElementAdapter classifier.graph type}
    (hreaches : classifier.ReachesAdapter type found)
    (hunhindered : classifier.Unhindered found.target (found.use.text :: found.around)) :
    classifier.classify type = found.context.wrap <$> classifier.classify found.target := by
  rw [classify_eq_wrap_visit_target hreaches, visit_onBase hunhindered, classify]

/-- A member that has no adapter of its own, in a package that registers none, is classified like
its type unless the declaration of its element has an adapter that leads to another type. Then that
type is classified in the place of the element, in the layer of the container. Where a visit of the
member's type comes to the adapter as well, it puts the layer around the adapting type with the
element and its container open. If nothing in the adapting type is cut short on account of those,
both are the same exactly if the adapting type does not take the layer in, or is in error. An
adapting type that takes the layer in is classified without the layer for the member, and inside it
elsewhere; for the member a byte in an array is a string. -/
theorem classifyMember_without_adapter (classifier : Classifier) {tables : AdapterTables}
    (htables : tables.Faithful classifier.graph) (owner : Declaration) (member : Member)
    (hmember : member.adapter = none)
    (hpackage : ∀ described, classifier.graph.package? owner.package = some described →
      described.adapters = []) :
    (IsEmpty (ElementAdapter classifier.graph member.effectiveType) →
      (classifier.classifyMember tables owner member).1 =
        classifier.classify member.effectiveType) ∧
    ∀ found : ElementAdapter classifier.graph member.effectiveType,
      (classifier.classifyMember tables owner member).1 =
        classifier.visit found.target found.context ∅ ∧
      (classifier.ReachesAdapter member.effectiveType found →
        (classifier.classify member.effectiveType =
          found.context.wrap <$>
            classifier.visit found.target .plain ⟨found.use.text :: found.around⟩) ∧
        (classifier.Unhindered found.target (found.use.text :: found.around) →
          ((classifier.classifyMember tables owner member).1 =
              classifier.classify member.effectiveType ↔
            ¬ classifier.Absorbs found.context found.target ∨
              ∃ error, classifier.classify member.effectiveType = .error error) ∧
          (classifier.Absorbs found.context found.target →
            found.target = .primitive .byte ∧
                (classifier.classifyMember tables owner member).1 = .ok .string ∨
              classifier.classify member.effectiveType =
                .array <$> (classifier.classifyMember tables owner member).1))) := by
  have htable := adapterTable_eq_empty hpackage
  have hposition : positionOf owner member = ⟨none, some owner.package⟩ := by
    rw [positionOf, hmember]
  rw [classifyMember_eq htables, hposition]
  constructor
  · intro hnone
    rw [adaptationAt_eq_none htable hnone]
    rfl
  · intro found
    rw [found.adaptationAt_eq]
    have hpass (name : String) (args : List TypeUse) (_ : found.target = .declared name args) :
        ¬ (∅ : UseStack).blocks name (.declared name args) :=
      UseStack.not_blocks_empty name _
    refine ⟨rfl, fun hreaches => ⟨classify_eq_wrap_visit_target hreaches, fun hunhindered => ?_⟩⟩
    rw [classify_eq_wrap_classify hreaches hunhindered]
    constructor
    · simp only [map_eq_error_iff]
      exact visit_eq_wrap_iff hpass
    · intro habsorbs
      refine (visit_of_absorbs habsorbs).imp_right fun hplain => ?_
      rw [classify, ← hplain, funext (Context.wrap_of_wraps habsorbs.wraps)]
      rfl

/-- A class `E` that is adapted to another type. -/
def adaptedTo (target : TypeUse) : Declaration :=
  { Declaration.bare "E" with adapter := some ⟨target, none⟩ }

/-- The adapted class, lists `L` and numbers `N`. -/
def elementAdaptedTo (target : TypeUse) : Classifier where
  graph := ⟨OrderedMap.empty.insert "E" (adaptedTo target), ∅, ⟨"O", .ofList ["L"], ∅, ∅⟩⟩
  registry := Registry.empty.register "N" (.numeric .number none)

/-- The adapter of the elements of a list. -/
def listElementTo (target : TypeUse) (h : target ≠ .declared "E" []) :
    ElementAdapter (elementAdaptedTo target).graph (.declared "L" [.declared "E" []]) where
  name := "E"
  args := []
  wrapping := .collection
  declaration := adaptedTo target
  target := target
  element_eq := element_of_component (by cbv) (component?_of_isCollectionRoot rfl rfl)
  declaration_eq := rfl
  target_eq := rfl
  target_ne := h

/-- The list on its own comes to the adapter. -/
lemma reachesAdapter_listElementTo {target : TypeUse} (h : target ≠ .declared "E" []) :
    (elementAdaptedTo target).ReachesAdapter (.declared "L" [.declared "E" []])
      (listElementTo target h) where
  container := fun _ => rfl
  apart := fun _ => (by decide : (TypeUse.declared "E" []).text ≠ "L<E>")
  other := h
  overrides := ⟨none, visitReplacements_nil _ _⟩

/-- A member with no adapter of its own. -/
def plainMember (type : TypeUse) : Member :=
  ⟨"m", type, none, none⟩

/-- A class `E` that is adapted to a number `N`. -/
def adapted : Declaration := adaptedTo (.declared "N" [])

/-- The adapted class, and lists `L`. -/
def adaptedElement : Classifier := elementAdaptedTo (.declared "N" [])

/-- The adapter of the elements of a list. -/
def listElement : ElementAdapter adaptedElement.graph (.declared "L" [.declared "E" []]) :=
  listElementTo (.declared "N" []) (by decide)

/-- A list of the adapted elements is an array of numbers, for a member and elsewhere. -/
theorem list_of_adapted_like_member :
    adaptedElement.classify (.declared "L" [.declared "E" []]) =
        .ok (.array (.numeric .number none)) ∧
      (adaptedElement.classifyMember ∅ (.bare "Own")
          (plainMember (.declared "L" [.declared "E" []]))).1 =
        adaptedElement.classify (.declared "L" [.declared "E" []]) := by
  have hcomponent : adaptedElement.graph.component? (.declared "N" []) = none := by
    cbv
  have hunhindered : adaptedElement.Unhindered listElement.target
      (listElement.use.text :: listElement.around) := by
    apply unhindered_of_names
    decide
  have habsorbs : ¬ adaptedElement.Absorbs listElement.context listElement.target := by
    rintro ⟨-, -, -, hsome⟩
    rw [hcomponent] at hsome
    cases hsome
  obtain ⟨hmember, hsame⟩ := (classifyMember_without_adapter adaptedElement (faithful_empty _)
    (.bare "Own") (plainMember (.declared "L" [.declared "E" []])) rfl
    (fun described h => by cases h)).2 listElement
  have hequal := ((hsame (reachesAdapter_listElementTo _)).2 hunhindered).1.2 (.inl habsorbs)
  refine ⟨?_, hequal⟩
  rw [← show _ = adaptedElement.classify (.declared "L" [.declared "E" []]) from hequal, hmember]
  exact visit_of_bare (UseStack.not_blocks_empty _ _) rfl (by cbv) hcomponent .collection

/-- A list of elements that are adapted to an array is an array of arrays of numbers, but for a
member the layer of the list is lost. -/
theorem list_of_arrays_unlike_member :
    let classifier := elementAdaptedTo (.array (.declared "N" []))
    let type := TypeUse.declared "L" [.declared "E" []]
    (plainMember type).adapter = none ∧ classifier.graph.packages = ∅ ∧
      (classifier.classifyMember ∅ (.bare "Own") (plainMember type)).1 =
        .ok (.array (.numeric .number none)) ∧
      classifier.classify type = .ok (.array (.array (.numeric .number none))) := by
  intro classifier type
  have hne : TypeUse.array (.declared "N" []) ≠ .declared "E" [] := by decide
  have harray (context : Context) (stack : UseStack)
      (hpass : ¬ stack.blocks "N" (.declared "N" [])) :
      classifier.visit (.array (.declared "N" [])) context stack =
        .ok (.array (.numeric .number none)) := by
    rw [visit_array classifier (by rintro _ ⟨⟩)]
    exact visit_of_bare hpass rfl (by cbv) (by cbv) .array
  refine ⟨rfl, rfl, ?_, ?_⟩
  · rw [classifyMember_eq (faithful_empty _)]
    have hfound := (listElementTo _ hne).adaptationAt_eq (some (Declaration.bare "Own").package)
    refine (congrArg (Except.bind · _) hfound).trans ?_
    exact harray .collection ∅ (UseStack.not_blocks_empty _ _)
  · rw [classify_eq_wrap_visit_target (reachesAdapter_listElementTo hne)]
    have hpass : ¬ (⟨["E", "L<E>"]⟩ : UseStack).blocks "N" (.declared "N" []) := by decide
    exact congrArg (Context.collection.wrap <$> ·) (harray .plain _ hpass)

end Classifier

end SchemaTyping
