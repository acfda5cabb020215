import SchemaTyping.Proofs.Graph.Search

/-!
# Containers and their elements

Whether a use is a collection, a stream or a map is told by three searches for a root. Its component
is told by a fourth search, which looks for the roots of collections and of streams at once and may
stop earlier than either. All the same a use has a component exactly if it is an array, a collection
or a stream, and the component is what the root of the collection or that of the stream tells. Which
layer is taken off a use follows the same three answers.
-/

namespace SchemaTyping

namespace TypeGraph

variable {graph : TypeGraph} {type : TypeUse}

/-! ### Components -/

lemma root?_of_ne_declared (htype : ∀ name args, type ≠ .declared name args)
    (isRoot : String → Bool) : graph.root? isRoot type = none := by
  rw [root?, searchRoot_undeclared htype, searchRoot]

lemma component?_of_ne_array (htype : ∀ component, type ≠ .array component) :
    graph.component? type = (graph.sequenceRoot? type).map fun root =>
      graph.narrow (graph.componentOfArgs root.args) := by
  rw [component?]
  exact htype

lemma isSome_component?_iff :
    (graph.component? type).isSome ↔
      (∃ component, type = .array component) ∨ graph.isCollection type ∨ graph.isStream type := by
  by_cases harray : ∃ component, type = .array component
  · obtain ⟨component, rfl⟩ := harray
    exact iff_of_true rfl (.inl ⟨component, rfl⟩)
  · rw [component?_of_ne_array (not_exists.1 harray), Option.isSome_map, isSome_sequenceRoot?_iff,
      or_iff_right harray]

/-- The component of a use that is no array is told by the root that makes it a collection, or by
the root that makes it a stream. -/
lemma exists_root_of_component? {component : TypeUse}
    (hcomponent : graph.component? type = some component) :
    type = .array component ∨
      ∃ root, (graph.root? graph.settings.isCollectionRoot type = some root ∨
          graph.root? graph.settings.isStreamRoot type = some root) ∧
        component = graph.narrow (graph.componentOfArgs root.args) := by
  by_cases harray : ∃ component, type = .array component
  · obtain ⟨inner, rfl⟩ := harray
    exact .inl (congrArg _ (Option.some.inj hcomponent))
  · rw [component?_of_ne_array (not_exists.1 harray), Option.map_eq_some_iff] at hcomponent
    obtain ⟨root, hroot, rfl⟩ := hcomponent
    rcases graph.sequenceRoot?_cases type with ⟨hnone, -⟩ | ⟨found, hfound, hsingle⟩
    · cases hnone.symm.trans hroot
    · obtain rfl := Option.some.inj (hfound.symm.trans hroot)
      exact .inr ⟨found, hsingle, rfl⟩

lemma isSome_keyValue?_iff : (graph.keyValue? type).isSome ↔ graph.isMap type := by
  rw [keyValue?, Option.isSome_map, isMap]

/-! ### Elements -/

/-- Is this use a collection or a stream, and no map? -/
def IsSequence (graph : TypeGraph) (type : TypeUse) : Prop :=
  (graph.isCollection type ∨ graph.isStream type) ∧ ¬ graph.isMap type

lemma not_isSequence (htype : ∀ name args, type ≠ .declared name args) :
    ¬ graph.IsSequence type := by
  rw [IsSequence, isCollection, isStream, root?_of_ne_declared htype, root?_of_ne_declared htype]
  rintro ⟨h | h, -⟩ <;> cases h

/-- What is left of a use without its outermost layer, and which layer that was. -/
inductive TakenApart (graph : TypeGraph) : TypeUse → TypeUse → Wrapping → Prop where
  | array (component : TypeUse) : TakenApart graph (.array component) component .array
  | collection {name : String} {args : List TypeUse} {component : TypeUse}
    (hsequence : graph.IsSequence (.declared name args))
    (hcomponent : graph.component? (.declared name args) = some component) :
    TakenApart graph (.declared name args) component .collection
  | whole {type : TypeUse} (harray : ∀ component, type ≠ .array component)
    (hsequence : ¬ graph.IsSequence type) : TakenApart graph type type .none

lemma takenApart_element (graph : TypeGraph) (type : TypeUse) :
    graph.TakenApart type (graph.element type).1 (graph.element type).2 := by
  cases type with
  | array component => exact .array component
  | declared name args =>
    have harray (component : TypeUse) : TypeUse.declared name args ≠ .array component :=
      fun h => by cases h
    rw [element]
    split
    · next hmap => exact .whole harray fun h => h.2 hmap
    · next hmap =>
      cases hcomponent : graph.component? (.declared name args) with
      | some component =>
        have hsome := isSome_component?_declared_iff.1 (Option.isSome_of_eq_some hcomponent)
        exact .collection ⟨hsome, hmap⟩ hcomponent
      | none =>
        refine .whole harray fun h => ?_
        have hsome := isSome_component?_declared_iff.2 h.1
        rw [hcomponent] at hsome
        cases hsome
  | primitive | var | wildcard =>
    exact .whole (fun _ h => by cases h) (not_isSequence fun _ _ h => by cases h)

/-- A use is taken apart in one way only. -/
lemma TakenApart.unique {element element' : TypeUse} {wrapping wrapping' : Wrapping}
    (h : graph.TakenApart type element wrapping) (h' : graph.TakenApart type element' wrapping') :
    element = element' ∧ wrapping = wrapping' := by
  cases h with
  | array =>
    cases h' with
    | array => exact ⟨rfl, rfl⟩
    | whole harray _ => exact absurd rfl (harray _)
  | collection hsequence hcomponent =>
    cases h' with
    | collection _ hcomponent' =>
      exact ⟨Option.some.inj (hcomponent.symm.trans hcomponent'), rfl⟩
    | whole _ hnone => exact absurd hsequence hnone
  | whole harray hnone =>
    cases h' with
    | array => exact absurd rfl (harray _)
    | collection hsequence _ => exact absurd hsequence hnone
    | whole => exact ⟨rfl, rfl⟩

/-- A use has a component if and only if it is an array, or it is a collection or a stream, and then
the component is what a root of these tells; and it has keys and values if and only if it is a map.
The element of an array is its component, that of a declared collection or stream that is no map is
its component, and anything else is its own element. -/
theorem containers_agree (graph : TypeGraph) (type : TypeUse) :
    ((graph.component? type).isSome ↔
      (∃ component, type = .array component) ∨ graph.isCollection type ∨ graph.isStream type) ∧
    (∀ component, graph.component? type = some component → type = .array component ∨
      ∃ root, (graph.root? graph.settings.isCollectionRoot type = some root ∨
          graph.root? graph.settings.isStreamRoot type = some root) ∧
        component = graph.narrow (graph.componentOfArgs root.args)) ∧
    ((graph.keyValue? type).isSome ↔ graph.isMap type) ∧
    ∀ element wrapping, graph.element type = (element, wrapping) ↔
      graph.TakenApart type element wrapping := by
  refine ⟨isSome_component?_iff, fun _ => exists_root_of_component?, isSome_keyValue?_iff, ?_⟩
  intro element wrapping
  have htaken := graph.takenApart_element type
  constructor
  · intro heq
    rwa [heq] at htaken
  · intro h
    obtain ⟨helement, hwrapping⟩ := htaken.unique h
    exact Prod.ext helement hwrapping

end TypeGraph

end SchemaTyping
