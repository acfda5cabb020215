import SchemaTyping.TypeGraph

/-!
# Containers

Collections, streams and maps are declared uses from which a root of that sort is reached. A
container is taken apart through the arguments of its root: a collection or stream into its
component, a map into keys and values.
-/

namespace SchemaTyping

/-- The layer that stands around an element. -/
inductive Wrapping where
  | none
  | array
  | collection
deriving DecidableEq, Inhabited, Repr

namespace TypeGraph

/-- The root of a collection or stream. -/
def sequenceRoot? (graph : TypeGraph) (type : TypeUse) : Option TypeUse :=
  graph.root? (fun name => graph.settings.isCollectionRoot name || graph.settings.isStreamRoot name)
    type

/-- The root of a map. -/
def mapRoot? (graph : TypeGraph) (type : TypeUse) : Option TypeUse :=
  graph.root? graph.settings.isMapRoot type

/-- Is this use a collection? -/
def isCollection (graph : TypeGraph) (type : TypeUse) : Bool :=
  (graph.root? graph.settings.isCollectionRoot type).isSome

/-- Is this use a stream? -/
def isStream (graph : TypeGraph) (type : TypeUse) : Bool :=
  (graph.root? graph.settings.isStreamRoot type).isSome

/-- Is this use a map? -/
def isMap (graph : TypeGraph) (type : TypeUse) : Bool :=
  (graph.mapRoot? type).isSome

/-- Is a component the use of a transient declaration without an adapter? -/
def isTransient (graph : TypeGraph) (component : TypeUse) : Bool :=
  (component.declaredName?.bind graph.declaration?).any fun declaration =>
    declaration.transient && declaration.adapter.isNone

/-- What cannot be bound as a component is replaced by the object type. -/
def narrow (graph : TypeGraph) (component : TypeUse) : TypeUse :=
  if graph.isTransient component then graph.settings.object else component

/-- What the arguments of a root say about its components: a wildcard stands for its bound, and
a root that has not exactly one argument tells nothing. -/
def componentOfArgs (graph : TypeGraph) : List TypeUse → TypeUse
  | [.wildcard (some bound)] => bound
  | [.wildcard none] => graph.settings.object
  | [component] => component
  | _ => graph.settings.object

/-- The component of an array, collection or stream. -/
def component? (graph : TypeGraph) : TypeUse → Option TypeUse
  | .array component => some component
  | type => (graph.sequenceRoot? type).map fun root =>
    graph.narrow (graph.componentOfArgs root.args)

/-- The key and value that the arguments of a map root name. -/
def entryOfArgs (graph : TypeGraph) : List TypeUse → TypeUse × TypeUse
  | [key, value] => (key, value)
  | _ => (graph.settings.object, graph.settings.object)

/-- The key and value of a map. -/
def keyValue? (graph : TypeGraph) (type : TypeUse) : Option (TypeUse × TypeUse) :=
  (graph.mapRoot? type).map fun root => graph.entryOfArgs root.args

/-- A use without its outermost array or collection layer, and which layer that was. Maps are
not taken apart. -/
def element (graph : TypeGraph) : TypeUse → TypeUse × Wrapping
  | .array component => (component, .array)
  | .declared name args =>
    if graph.isMap (.declared name args) then (.declared name args, .none)
    else
      match graph.component? (.declared name args) with
      | some component => (component, .collection)
      | none => (.declared name args, .none)
  | type => (type, .none)

/-! ### Names of parts -/

section Closed

variable {graph : TypeGraph} {P : String → Prop} {type : TypeUse}

theorem Closed.within_componentOfArgs (h : graph.Closed P) {args : List TypeUse}
    (hargs : ∀ arg ∈ args, arg.Within P) : (graph.componentOfArgs args).Within P := by
  unfold componentOfArgs
  split
  · next bound => exact hargs (.wildcard (some bound)) List.mem_cons_self
  · exact h.within_object
  · exact hargs _ List.mem_cons_self
  · exact h.within_object

theorem Closed.within_narrow (h : graph.Closed P) {component : TypeUse}
    (hcomponent : component.Within P) : (graph.narrow component).Within P := by
  unfold narrow
  split
  · exact h.within_object
  · exact hcomponent

/-- A component has no names but those of a closed set in which its container lies. -/
theorem Closed.within_component? (h : graph.Closed P) (htype : type.Within P)
    {component : TypeUse} (hcomponent : graph.component? type = some component) :
    component.Within P := by
  unfold component? at hcomponent
  split at hcomponent
  · obtain rfl := Option.some.inj hcomponent
    exact htype
  · obtain ⟨root, hroot, rfl⟩ := Option.map_eq_some_iff.1 hcomponent
    have hwithin := h.within_root? htype hroot
    exact h.within_narrow (h.within_componentOfArgs fun arg harg => hwithin.of_mem_args harg)

/-- Keys and values have no names but those of a closed set in which their map lies. -/
theorem Closed.within_keyValue? (h : graph.Closed P) (htype : type.Within P)
    {key value : TypeUse} (hentry : graph.keyValue? type = some (key, value)) :
    key.Within P ∧ value.Within P := by
  obtain ⟨root, hroot, heq⟩ := Option.map_eq_some_iff.1 hentry
  have hwithin := h.within_root? htype hroot
  unfold entryOfArgs at heq
  split at heq
  · next key value hargs =>
    cases heq
    exact ⟨hwithin.of_mem_args (by simp [hargs]), hwithin.of_mem_args (by simp [hargs])⟩
  · cases heq
    exact ⟨h.within_object, h.within_object⟩

end Closed

theorem names_component?_subset {graph : TypeGraph} {type component : TypeUse}
    (h : graph.component? type = some component) :
    component.names ⊆ graph.names ++ type.names :=
  (graph.closed_names type.names).within_component?
    (fun _ hn => List.mem_append_right _ hn) h

theorem names_keyValue?_subset {graph : TypeGraph} {type key value : TypeUse}
    (h : graph.keyValue? type = some (key, value)) :
    key.names ⊆ graph.names ++ type.names ∧ value.names ⊆ graph.names ++ type.names :=
  (graph.closed_names type.names).within_keyValue?
    (fun _ hn => List.mem_append_right _ hn) h

end TypeGraph

end SchemaTyping
