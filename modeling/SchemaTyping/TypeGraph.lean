import SchemaTyping.Model.Basic
import SchemaTyping.TypeUse.Substitution

/-!
# The graph of types

Declarations refer to each other by name, so together they form a graph that may have cycles.
From a declared use, the supertypes of its declaration are searched depth first for a root, with
the arguments of the use put in the place of the declaration's parameters.
-/

namespace SchemaTyping

/-- Declarations and packages by name, with the settings under which they are read. -/
structure TypeGraph where
  declarations : OrderedMap Declaration
  packages : OrderedMap Package
  settings : Settings
deriving DecidableEq

/-- The graph of a model. -/
def Model.graph (model : Model) : TypeGraph :=
  ⟨model.declarations, model.packages, model.settings⟩

namespace TypeGraph

/-- The graph without declarations and packages. -/
def bare (settings : Settings) : TypeGraph := ⟨∅, ∅, settings⟩

/-- The declaration behind a name. -/
def declaration? (graph : TypeGraph) (name : String) : Option Declaration :=
  graph.declarations.get? name

/-- The package of a name. -/
def package? (graph : TypeGraph) (name : String) : Option Package :=
  graph.packages.get? name

/-- The declarations of the given names; without names, all declarations are meant. A name without
a declaration is a class of which nothing else is known. -/
def roots (graph : TypeGraph) : Option (List String) → List Declaration
  | none => graph.declarations.values
  | some names => names.map fun name => (graph.declaration? name).getD (.bare name)

/-- All names to which the classification of a type may lead. -/
def names (graph : TypeGraph) : List String :=
  graph.settings.objectType :: graph.declarations.values.flatMap Declaration.names

theorem names_subset_of_declaration? {graph : TypeGraph} {name : String}
    {declaration : Declaration} (h : graph.declaration? name = some declaration) :
    declaration.names ⊆ graph.names := by
  intro n hn
  have hmem : declaration ∈ graph.declarations.values :=
    List.mem_map_of_mem (OrderedMap.mem_entries_of_get? h)
  exact List.mem_cons_of_mem _ (List.mem_flatMap.2 ⟨declaration, hmem, hn⟩)

/-- The supertypes of a declared use, with its arguments carried over. -/
def supertypesOf (declaration : Declaration) (args : List TypeUse) : List TypeUse :=
  declaration.supertypes.map fun supertype => supertype.substitute declaration.typeParams args

/-! ### Closed sets of names -/

/-- A property of names that classification does not lead out of: the object type has it, and with
a name all names in its declaration. -/
structure Closed (graph : TypeGraph) (P : String → Prop) : Prop where
  object : P graph.settings.objectType
  declaration : ∀ {name declaration}, P name → graph.declaration? name = some declaration →
    ∀ n ∈ declaration.names, P n

/-- The names of the graph together with any others. -/
theorem closed_names (graph : TypeGraph) (names : List String) :
    graph.Closed (· ∈ graph.names ++ names) where
  object := List.mem_append_left _ List.mem_cons_self
  declaration := fun _ h _ hn => List.mem_append_left _ (names_subset_of_declaration? h hn)

section Closed

variable {graph : TypeGraph} {P : String → Prop} {name : String} {declaration : Declaration}

theorem Closed.within_object (h : graph.Closed P) : graph.settings.object.Within P :=
  TypeUse.within_declared.2 ⟨h.object, by simp⟩

/-- The uses in a declaration. -/
theorem Closed.within_of_declaration (h : graph.Closed P) (hname : P name)
    (hdecl : graph.declaration? name = some declaration) {use : TypeUse}
    (huse : use ∈ declaration.supertypes ++ declaration.typeHint.toList ++
      declaration.substitute?.toList ++ declaration.target?.toList) : use.Within P :=
  fun n hn => h.declaration hname hdecl n (TypeUse.names_subset_namesOfArgs huse hn)

theorem Closed.within_supertypesOf (h : graph.Closed P) (hname : P name)
    (hdecl : graph.declaration? name = some declaration) {args : List TypeUse}
    (hargs : ∀ arg ∈ args, arg.Within P) :
    ∀ use ∈ supertypesOf declaration args, use.Within P := by
  intro use huse
  obtain ⟨supertype, hsuper, rfl⟩ := List.mem_map.1 huse
  exact (h.within_of_declaration hname hdecl (by simp [hsuper])).substitute hargs

end Closed

/-! ### The search for a root -/

/-- How many declarations have not been looked at. -/
def unvisited (graph : TypeGraph) (visited : List String) : Nat :=
  (graph.declarations.keys.filter (· ∉ visited)).length

theorem unvisited_cons_lt {graph : TypeGraph} {name : String} {declaration : Declaration}
    {visited : List String} (h : graph.declaration? name = some declaration)
    (hname : name ∉ visited) : graph.unvisited (name :: visited) < graph.unvisited visited := by
  have hkey : name ∈ graph.declarations.keys :=
    List.mem_map_of_mem (OrderedMap.mem_entries_of_get? h)
  rw [unvisited, unvisited, ← List.countP_eq_length_filter, ← List.countP_eq_length_filter]
  obtain ⟨before, after, hsplit⟩ := List.append_of_mem hkey
  have hle (names : List String) :
      names.countP (· ∉ name :: visited) ≤ names.countP (· ∉ visited) :=
    List.countP_mono_left fun n _ hn => by simp_all
  rw [hsplit, List.countP_append, List.countP_append, List.countP_cons, List.countP_cons]
  have := hle before
  have := hle after
  simp [hname] at *
  omega

/-- The first root among pending uses and their supertypes, depth first. The supertypes of a
declaration are looked at once, for the first use of it that is met. -/
def searchRoot (graph : TypeGraph) (isRoot : String → Bool) :
    List TypeUse → List String → Option TypeUse
  | [], _ => none
  | .declared name args :: pending, visited =>
    if isRoot name then some (.declared name args)
    else if _hvisited : name ∈ visited then graph.searchRoot isRoot pending visited
    else
      match _h : graph.declaration? name with
      | none => graph.searchRoot isRoot pending visited
      | some declaration =>
        graph.searchRoot isRoot (supertypesOf declaration args ++ pending) (name :: visited)
  | _ :: pending, visited => graph.searchRoot isRoot pending visited
termination_by pending visited => (graph.unvisited visited, pending.length)
decreasing_by
  · exact Prod.Lex.right _ (by simp)
  · exact Prod.Lex.right _ (by simp)
  · exact Prod.Lex.left _ _ (unvisited_cons_lt _h _hvisited)
  · exact Prod.Lex.right _ (by simp)

/-- The root that is reached from a type use. -/
def root? (graph : TypeGraph) (isRoot : String → Bool) (type : TypeUse) : Option TypeUse :=
  graph.searchRoot isRoot [type] []

/-- A search that begins within a closed set of names does not leave it. -/
theorem Closed.within_searchRoot {graph : TypeGraph} {P : String → Prop} (h : graph.Closed P)
    {isRoot : String → Bool} {pending : List TypeUse} {visited : List String} {root : TypeUse}
    (hpending : ∀ use ∈ pending, use.Within P)
    (hroot : graph.searchRoot isRoot pending visited = some root) : root.Within P := by
  fun_induction searchRoot graph isRoot pending visited with
  | case1 => simp at hroot
  | case2 name args pending visited hname =>
    obtain rfl : TypeUse.declared name args = root := by simpa using hroot
    exact hpending _ List.mem_cons_self
  | case3 name args pending visited hname hvisited ih =>
    exact ih (List.forall_mem_cons.1 hpending).2 hroot
  | case4 name args pending visited hname hvisited hnone ih =>
    exact ih (List.forall_mem_cons.1 hpending).2 hroot
  | case5 name args pending visited hname hvisited declaration hsome ih =>
    obtain ⟨huse, hrest⟩ := List.forall_mem_cons.1 hpending
    obtain ⟨hP, hargs⟩ := TypeUse.within_declared.1 huse
    refine ih (fun use hmem => ?_) hroot
    rcases List.mem_append.1 hmem with hsuper | hrest'
    · exact h.within_supertypesOf hP hsome hargs use hsuper
    · exact hrest use hrest'
  | case6 use pending visited huse ih =>
    exact ih (List.forall_mem_cons.1 hpending).2 hroot

theorem Closed.within_root? {graph : TypeGraph} {P : String → Prop} (h : graph.Closed P)
    {isRoot : String → Bool} {type root : TypeUse} (htype : type.Within P)
    (hroot : graph.root? isRoot type = some root) : root.Within P :=
  h.within_searchRoot (by simpa using htype) hroot

end TypeGraph

end SchemaTyping
