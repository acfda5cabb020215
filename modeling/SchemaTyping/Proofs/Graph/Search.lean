import Mathlib.Tactic.Common
import SchemaTyping.Container

/-!
# The search for a root

The search for a root looks at the supertypes of declarations and at nothing else, so graphs whose
declarations have the same supertypes have the same roots.
-/

namespace SchemaTyping

namespace TypeGraph

variable {graph other : TypeGraph} {isRoot : String → Bool}

lemma searchRoot_declared (graph : TypeGraph) (isRoot : String → Bool) (name : String)
    (args pending : List TypeUse) (visited : List String) :
    graph.searchRoot isRoot (.declared name args :: pending) visited =
      if isRoot name then some (.declared name args)
      else if name ∈ visited then graph.searchRoot isRoot pending visited
      else
        match (graph.declaration? name).map (supertypesOf · args) with
        | none => graph.searchRoot isRoot pending visited
        | some supertypes => graph.searchRoot isRoot (supertypes ++ pending) (name :: visited) := by
  rw [searchRoot]
  split
  · rfl
  · split
    · rfl
    · split
      · next hnone => rw [hnone]; rfl
      · next declaration hsome => rw [hsome]; rfl

lemma searchRoot_undeclared {type : TypeUse} (htype : ∀ name args, type ≠ .declared name args)
    (graph : TypeGraph) (isRoot : String → Bool) (pending : List TypeUse) (visited : List String) :
    graph.searchRoot isRoot (type :: pending) visited =
      graph.searchRoot isRoot pending visited := by
  rw [searchRoot]
  exact htype

/-- A name without a declaration is a root by itself or leads to none. -/
lemma root?_of_undeclared {name : String} (hdecl : graph.declaration? name = none)
    (args : List TypeUse) :
    graph.root? isRoot (.declared name args) =
      if isRoot name then some (.declared name args) else none := by
  rw [root?, searchRoot_declared, hdecl, searchRoot]
  simp

/-- The declarations that two graphs have for names with a property have the same supertypes. -/
def SameSupertypesOn (P : String → Prop) (graph other : TypeGraph) : Prop :=
  ∀ name, P name → ∀ args, (graph.declaration? name).map (supertypesOf · args) =
    (other.declaration? name).map (supertypesOf · args)

section SameSupertypesOn

variable {P : String → Prop} {type : TypeUse}

lemma SameSupertypesOn.searchRoot_eq (h : SameSupertypesOn P graph other)
    (hclosed : graph.Closed P) {pending : List TypeUse} (visited : List String)
    (hpending : ∀ use ∈ pending, use.Within P) :
    graph.searchRoot isRoot pending visited = other.searchRoot isRoot pending visited := by
  fun_induction searchRoot graph isRoot pending visited with
  | case1 => rw [searchRoot]
  | case2 name args pending visited hroot => rw [searchRoot_declared, if_pos hroot]
  | case3 name args pending visited hroot hvisited ih =>
    rw [searchRoot_declared, if_neg hroot, if_pos hvisited,
      ih (List.forall_mem_cons.1 hpending).2]
  | case4 name args pending visited hroot hvisited hnone ih =>
    obtain ⟨huse, hrest⟩ := List.forall_mem_cons.1 hpending
    have hname := (TypeUse.within_declared.1 huse).1
    rw [searchRoot_declared, if_neg hroot, if_neg hvisited, ← h name hname args, hnone]
    exact ih hrest
  | case5 name args pending visited hroot hvisited declaration hsome ih =>
    obtain ⟨huse, hrest⟩ := List.forall_mem_cons.1 hpending
    obtain ⟨hname, hargs⟩ := TypeUse.within_declared.1 huse
    rw [searchRoot_declared, if_neg hroot, if_neg hvisited, ← h name hname args, hsome]
    refine ih fun use huse => ?_
    rcases List.mem_append.1 huse with hsuper | hrest'
    · exact hclosed.within_supertypesOf hname hsome hargs use hsuper
    · exact hrest use hrest'
  | case6 type pending visited htype ih =>
    rw [searchRoot_undeclared htype, ih (List.forall_mem_cons.1 hpending).2]

lemma SameSupertypesOn.root?_eq (h : SameSupertypesOn P graph other) (hclosed : graph.Closed P)
    (htype : type.Within P) (isRoot : String → Bool) :
    graph.root? isRoot type = other.root? isRoot type :=
  h.searchRoot_eq hclosed [] (by simpa using htype)

lemma SameSupertypesOn.keyValue?_eq (h : SameSupertypesOn P graph other)
    (hclosed : graph.Closed P) (htype : type.Within P)
    (hsettings : graph.settings = other.settings) :
    graph.keyValue? type = other.keyValue? type := by
  rw [keyValue?, keyValue?, mapRoot?, mapRoot?, h.root?_eq hclosed htype, hsettings]
  unfold entryOfArgs
  rw [hsettings]

lemma SameSupertypesOn.isCollection_eq (h : SameSupertypesOn P graph other)
    (hclosed : graph.Closed P) (htype : type.Within P)
    (hsettings : graph.settings = other.settings) :
    graph.isCollection type = other.isCollection type := by
  rw [isCollection, isCollection, h.root?_eq hclosed htype, hsettings]

/-- Graphs that also narrow the same components have the same ones. -/
lemma SameSupertypesOn.component?_eq (h : SameSupertypesOn P graph other)
    (hclosed : graph.Closed P) (htype : type.Within P)
    (hsettings : graph.settings = other.settings)
    (htransient : ∀ component : TypeUse, component.Within P →
      graph.isTransient component = other.isTransient component) :
    graph.component? type = other.component? type := by
  have hroot : graph.sequenceRoot? type = other.sequenceRoot? type := by
    rw [sequenceRoot?, sequenceRoot?, h.root?_eq hclosed htype, hsettings]
  have hargs (args : List TypeUse) : graph.componentOfArgs args = other.componentOfArgs args := by
    unfold componentOfArgs
    rw [hsettings]
  have hnarrow {root : TypeUse} (hwithin : root.Within P) :
      graph.narrow (graph.componentOfArgs root.args) =
        other.narrow (other.componentOfArgs root.args) := by
    have hcomponent := hclosed.within_componentOfArgs fun arg harg => hwithin.of_mem_args harg
    rw [narrow, narrow, htransient _ hcomponent, hsettings, hargs]
  cases type with
  | array component => rfl
  | primitive | declared | var | wildcard =>
    rw [component?, component?, ← hroot]
    · exact Option.map_congr fun root hmem => hnarrow (hclosed.within_root? htype hmem)
    all_goals exact fun component h => by cases h

end SameSupertypesOn

/-- The declarations of two graphs have the same supertypes. -/
def SameSupertypes (graph other : TypeGraph) : Prop :=
  ∀ name args, (graph.declaration? name).map (supertypesOf · args) =
    (other.declaration? name).map (supertypesOf · args)

section SameSupertypes

lemma closed_true (graph : TypeGraph) : graph.Closed fun _ => True :=
  ⟨trivial, fun _ _ _ _ => trivial⟩

lemma SameSupertypes.on (h : graph.SameSupertypes other) :
    SameSupertypesOn (fun _ => True) graph other :=
  fun name _ => h name

lemma SameSupertypes.keyValue?_eq (h : graph.SameSupertypes other)
    (hsettings : graph.settings = other.settings) (type : TypeUse) :
    graph.keyValue? type = other.keyValue? type :=
  h.on.keyValue?_eq (closed_true graph) (fun _ _ => trivial) hsettings

lemma SameSupertypes.isCollection_eq (h : graph.SameSupertypes other)
    (hsettings : graph.settings = other.settings) (type : TypeUse) :
    graph.isCollection type = other.isCollection type :=
  h.on.isCollection_eq (closed_true graph) (fun _ _ => trivial) hsettings

lemma SameSupertypes.component?_eq (h : graph.SameSupertypes other)
    (hsettings : graph.settings = other.settings)
    (htransient : ∀ component, graph.isTransient component = other.isTransient component)
    (type : TypeUse) : graph.component? type = other.component? type :=
  h.on.component?_eq (closed_true graph) (fun _ _ => trivial) hsettings
    fun component _ => htransient component

end SameSupertypes

/-! ### Redeclared names -/

/-- The other graph has another declaration under one name, and the same ones under all others. -/
structure Redeclared (graph other : TypeGraph) (name : String)
    (declaration replacement : Declaration) : Prop where
  declared : graph.declaration? name = some declaration
  redeclared (n : String) :
    other.declaration? n = if name = n then some replacement else graph.declaration? n

section Redeclared

variable {name : String} {declaration replacement : Declaration}

/-- What the declaration has in common with its replacement is the same in both graphs. -/
lemma Redeclared.map_eq {β : Type} (h : graph.Redeclared other name declaration replacement)
    (f : Declaration → β) (hf : f declaration = f replacement) (n : String) :
    (graph.declaration? n).map f = (other.declaration? n).map f := by
  rw [h.redeclared]
  by_cases heq : name = n
  · rw [if_pos heq, ← heq, h.declared, Option.map_some, hf]
    rfl
  · rw [if_neg heq]

lemma Redeclared.sameSupertypes (h : graph.Redeclared other name declaration replacement)
    (hsupertypes : ∀ args, supertypesOf declaration args = supertypesOf replacement args) :
    graph.SameSupertypes other :=
  fun n args => h.map_eq (supertypesOf · args) (hsupertypes args) n

lemma Redeclared.isTransient_eq (h : graph.Redeclared other name declaration replacement)
    (htransient : (declaration.transient && declaration.adapter.isNone) =
      (replacement.transient && replacement.adapter.isNone)) (component : TypeUse) :
    graph.isTransient component = other.isTransient component := by
  rw [isTransient, isTransient]
  cases component.declaredName? with
  | none => rfl
  | some n =>
    have hmap := h.map_eq (fun d => d.transient && d.adapter.isNone) htransient n
    simpa [Option.any_map, Function.comp_def] using congrArg (Option.any id) hmap

end Redeclared

/-! ### Fewer roots -/

section FewerRoots

variable {fewer more : String → Bool} {type : TypeUse}

/-- When no root is found, none is found among fewer; and a root that is found is found among fewer
if it is one of these. -/
lemma searchRoot_fewer (graph : TypeGraph) (hfewer : ∀ name, fewer name → more name)
    (pending : List TypeUse) (visited : List String) :
    (graph.searchRoot more pending visited = none ∧
        graph.searchRoot fewer pending visited = none) ∨
      ∃ name args, graph.searchRoot more pending visited = some (.declared name args) ∧
        more name ∧
        (fewer name → graph.searchRoot fewer pending visited = some (.declared name args)) := by
  fun_induction searchRoot graph more pending visited with
  | case1 => exact .inl ⟨rfl, by rw [searchRoot]⟩
  | case2 name args pending visited hroot =>
    exact .inr ⟨name, args, rfl, hroot, fun hname => by rw [searchRoot_declared, if_pos hname]⟩
  | case3 name args pending visited hroot hvisited ih =>
    rw [searchRoot_declared, if_neg fun hname => hroot (hfewer name hname), if_pos hvisited]
    exact ih
  | case4 name args pending visited hroot hvisited hnone ih =>
    rw [searchRoot_declared, if_neg fun hname => hroot (hfewer name hname), if_neg hvisited, hnone]
    exact ih
  | case5 name args pending visited hroot hvisited declaration hsome ih =>
    rw [searchRoot_declared, if_neg fun hname => hroot (hfewer name hname), if_neg hvisited, hsome]
    exact ih
  | case6 type pending visited htype ih =>
    rw [searchRoot_undeclared htype]
    exact ih

/-- Every root that is found is declared, and it is found among fewer if it is one of these. -/
lemma root?_fewer (hfewer : ∀ name, fewer name → more name) {root : TypeUse}
    (h : graph.root? more type = some root) :
    ∃ name args, root = .declared name args ∧ more name ∧
      (fewer name → graph.root? fewer type = some root) := by
  rcases graph.searchRoot_fewer hfewer [type] [] with
    ⟨hnone, -⟩ | ⟨name, args, hsome, hname, hfound⟩
  · cases hnone.symm.trans h
  · obtain rfl := Option.some.inj (hsome.symm.trans h)
    exact ⟨name, args, rfl, hname, hfound⟩

lemma root?_fewer_eq_none (hfewer : ∀ name, fewer name → more name)
    (h : graph.root? more type = none) : graph.root? fewer type = none := by
  rcases graph.searchRoot_fewer hfewer [type] [] with ⟨-, hnone⟩ | ⟨_, _, hsome, -⟩
  · exact hnone
  · cases hsome.symm.trans h

/-- What the search for collections and streams finds is what the search for the one or that for the
other finds; and if it finds nothing, neither of them does. -/
lemma sequenceRoot?_cases (graph : TypeGraph) (type : TypeUse) :
    (graph.sequenceRoot? type = none ∧ graph.root? graph.settings.isCollectionRoot type = none ∧
        graph.root? graph.settings.isStreamRoot type = none) ∨
      ∃ root, graph.sequenceRoot? type = some root ∧
        (graph.root? graph.settings.isCollectionRoot type = some root ∨
          graph.root? graph.settings.isStreamRoot type = some root) := by
  have hcollection (name : String) (h : graph.settings.isCollectionRoot name) :
      graph.settings.isCollectionRoot name || graph.settings.isStreamRoot name := by
    rw [h, Bool.true_or]
  have hstream (name : String) (h : graph.settings.isStreamRoot name) :
      graph.settings.isCollectionRoot name || graph.settings.isStreamRoot name := by
    rw [h, Bool.or_true]
  cases hroot : graph.sequenceRoot? type with
  | none =>
    exact .inl ⟨rfl, root?_fewer_eq_none hcollection hroot, root?_fewer_eq_none hstream hroot⟩
  | some root =>
    obtain ⟨name, args, rfl, hname, hc⟩ := root?_fewer hcollection hroot
    obtain ⟨_, _, ⟨⟩, -, hs⟩ := root?_fewer hstream hroot
    rw [Bool.or_eq_true] at hname
    exact .inr ⟨_, rfl, hname.imp hc hs⟩

/-- A root of a collection or stream is found where one of a collection, or one of a stream is. -/
lemma isSome_sequenceRoot?_iff :
    (graph.sequenceRoot? type).isSome ↔ graph.isCollection type ∨ graph.isStream type := by
  rw [isCollection, isStream]
  rcases graph.sequenceRoot?_cases type with ⟨hroot, hc, hs⟩ | ⟨root, hroot, hc | hs⟩
  · simp [hroot, hc, hs]
  · simp [hroot, hc]
  · simp [hroot, hs]

lemma isSome_component?_declared_iff {name : String} {args : List TypeUse} :
    (graph.component? (.declared name args)).isSome ↔
      graph.isCollection (.declared name args) ∨ graph.isStream (.declared name args) := by
  rw [component?, Option.isSome_map, isSome_sequenceRoot?_iff]
  exact nofun

end FewerRoots

/-! ### Containers without a declaration -/

lemma keyValue?_of_undeclared {name : String} (hdecl : graph.declaration? name = none)
    (args : List TypeUse) :
    graph.keyValue? (.declared name args) =
      if graph.settings.isMapRoot name then some (graph.entryOfArgs args) else none := by
  rw [keyValue?, mapRoot?, root?_of_undeclared hdecl]
  split <;> rfl

lemma component?_of_undeclared (hundeclared : ∀ name, graph.declaration? name = none)
    (name : String) (args : List TypeUse) :
    graph.component? (.declared name args) =
      if graph.settings.isCollectionRoot name || graph.settings.isStreamRoot name then
        some (graph.componentOfArgs args)
      else none := by
  have hnarrow (component : TypeUse) : graph.narrow component = component := by
    rw [narrow, isTransient]
    cases component.declaredName? <;> simp [hundeclared]
  rw [component?, sequenceRoot?, root?_of_undeclared (hundeclared name)]
  · split <;> simp [hnarrow, TypeUse.args]
  · exact nofun

/-! ### Containers with a known root -/

/-- A use of a root of collections is its own root. -/
lemma sequenceRoot?_of_isCollectionRoot {name : String}
    (h : graph.settings.isCollectionRoot name) (args : List TypeUse) :
    graph.sequenceRoot? (.declared name args) = some (.declared name args) := by
  rw [sequenceRoot?, root?, searchRoot_declared, h, Bool.true_or, if_pos rfl]

lemma component?_of_root {root component : TypeUse}
    {name : String} {args : List TypeUse}
    (hroot : graph.sequenceRoot? (.declared name args) = some root)
    (hcomponent : graph.narrow (graph.componentOfArgs root.args) = component) :
    graph.component? (.declared name args) = some component := by
  rw [component?, hroot, Option.map_some, hcomponent]
  exact fun component h => by cases h

lemma component?_of_isCollectionRoot {component : TypeUse} {name : String} {args : List TypeUse}
    (hroot : graph.settings.isCollectionRoot name)
    (hcomponent : graph.narrow (graph.componentOfArgs args) = component) :
    graph.component? (.declared name args) = some component :=
  component?_of_root (sequenceRoot?_of_isCollectionRoot hroot args) hcomponent

lemma element_of_component {name : String} {args : List TypeUse}
    {component : TypeUse} (hmap : graph.isMap (.declared name args) = false)
    (hcomponent : graph.component? (.declared name args) = some component) :
    graph.element (.declared name args) = (component, .collection) := by
  rw [element, hmap, hcomponent]
  rfl

end TypeGraph

end SchemaTyping
