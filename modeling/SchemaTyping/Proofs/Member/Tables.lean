import Mathlib.Tactic.Common
import SchemaTyping.Classification.Declaration

/-!
# Tables of a run

Classifications hand the tables of adapters from one to the next. All tables that one graph makes
are its own, whatever was classified before. With such tables, what is found for an element does
not depend on which of them have been made.
-/

namespace SchemaTyping

/-- The tables that have been made are those of the graph. -/
def AdapterTables.Faithful (tables : AdapterTables) (graph : TypeGraph) : Prop :=
  ∀ package table, tables.made.get? package = some table → table = graph.adapterTable package

namespace TypeGraph

variable {graph : TypeGraph} {tables : AdapterTables}

/-! ### Looking up -/

lemma faithful_empty (graph : TypeGraph) : (∅ : AdapterTables).Faithful graph := by
  intro package table h
  exact absurd h (by simp [EmptyCollection.emptyCollection, AdapterTables.empty, OrderedMap.get?,
    OrderedMap.empty, OrderedMap.read])

lemma table_eq (h : tables.Faithful graph) (package : String) :
    (tables.table graph package).1 = graph.adapterTable package := by
  rw [AdapterTables.table]
  split
  · next table htable => exact h package table htable
  · rfl

lemma faithful_table (h : tables.Faithful graph) (package : String) :
    (tables.table graph package).2.Faithful graph := by
  rw [AdapterTables.table]
  split
  · exact h
  · intro other table htable
    rw [OrderedMap.get?_insert] at htable
    split at htable
    · next heq =>
      cases heq
      exact (Option.some.inj htable).symm
    · exact h other table htable

/-- What a package has for a name, whatever has been made before. -/
lemma lookup_eq (h : tables.Faithful graph) (package name : String) :
    (tables.lookup graph package name).1 = (graph.adapterTable package).map (·.get? name) := by
  show (tables.table graph package).1.map _ = _
  rw [table_eq h]

lemma faithful_lookup (h : tables.Faithful graph) (package name : String) :
    (tables.lookup graph package name).2.Faithful graph :=
  faithful_table h package

/-! ### Searching -/

lemma candidate_eq (h : tables.Faithful graph) (position : AdapterPosition) (element : TypeUse) :
    (graph.candidate tables position element).1 = (graph.candidate ∅ position element).1 := by
  obtain ⟨member, package⟩ := position
  unfold candidate
  cases member with
  | some adapter => rfl
  | none =>
    cases element.declaredName? with
    | none => rfl
    | some name =>
      dsimp only
      cases graph.adapterOf? name with
      | some adapter => rfl
      | none =>
        cases package with
        | none => rfl
        | some package =>
          show (tables.lookup graph package name).1.map _ =
            (AdapterTables.lookup ∅ graph package name).1.map _
          rw [lookup_eq h, lookup_eq (faithful_empty graph)]

lemma faithful_candidate (h : tables.Faithful graph) (position : AdapterPosition)
    (element : TypeUse) : (graph.candidate tables position element).2.Faithful graph := by
  obtain ⟨member, package⟩ := position
  unfold candidate
  cases member with
  | some adapter => exact h
  | none =>
    cases element.declaredName? with
    | none => exact h
    | some name =>
      dsimp only
      cases graph.adapterOf? name with
      | some adapter => exact h
      | none =>
        cases package with
        | none => exact h
        | some package => exact faithful_lookup h package name

/-- The adaptation of the element of a type at a position, searched with no table made before. -/
def adaptationAt (graph : TypeGraph) (position : AdapterPosition) (type : TypeUse) :
    Except MetadataError (Option Adaptation) :=
  (graph.adaptation? ∅ position type).1

lemma adaptationAt_eq (position : AdapterPosition) (type : TypeUse) :
    graph.adaptationAt position type =
      (graph.candidate ∅ position (graph.element type).1).1.map
        (adaptationBy (graph.element type).1 (graph.element type).2) := rfl

lemma adaptation?_eq (h : tables.Faithful graph) (position : AdapterPosition) (type : TypeUse) :
    (graph.adaptation? tables position type).1 = graph.adaptationAt position type := by
  rw [adaptationAt_eq, ← candidate_eq h]
  rfl

lemma faithful_adaptation? (h : tables.Faithful graph) (position : AdapterPosition)
    (type : TypeUse) : (graph.adaptation? tables position type).2.Faithful graph :=
  faithful_candidate h position _

/-! ### Levels -/

variable {type : TypeUse} {name : String} {adapter : Adapter}

/-- The adapter of a member comes first, and hides all others even if it has no effect. -/
lemma adaptationAt_member (graph : TypeGraph) (adapter : Adapter) (package : Option String)
    (type : TypeUse) :
    graph.adaptationAt ⟨some adapter, package⟩ type =
      .ok (adaptationBy (graph.element type).1 (graph.element type).2
        (some (adapter, .member))) := rfl

lemma adaptationAt_undeclared (hname : (graph.element type).1.declaredName? = none)
    (package : Option String) : graph.adaptationAt ⟨none, package⟩ type = .ok none := by
  rw [adaptationAt_eq, candidate, hname]
  rfl

/-- The adapter of a declaration comes before those of a package, and hides them even if it has no
effect. -/
lemma adaptationAt_type (hname : (graph.element type).1.declaredName? = some name)
    (hadapter : graph.adapterOf? name = some adapter) (package : Option String) :
    graph.adaptationAt ⟨none, package⟩ type =
      .ok (adaptationBy (graph.element type).1 (graph.element type).2 (some (adapter, .type))) := by
  rw [adaptationAt_eq, candidate, hname]
  dsimp only
  rw [hadapter]
  rfl

lemma adaptationAt_package (hname : (graph.element type).1.declaredName? = some name)
    (hadapter : graph.adapterOf? name = none) (package : String) :
    graph.adaptationAt ⟨none, some package⟩ type = (graph.adapterTable package).map fun table =>
      adaptationBy (graph.element type).1 (graph.element type).2
        ((table.get? name).map fun adapter => (adapter, .package)) := by
  rw [adaptationAt_eq, candidate, hname]
  dsimp only
  rw [hadapter]
  show ((AdapterTables.lookup ∅ graph package name).1.map _).map _ = _
  rw [lookup_eq (faithful_empty graph)]
  cases graph.adapterTable package <;> rfl

lemma adapterTable_eq_empty {package : String}
    (h : ∀ described, graph.package? package = some described → described.adapters = []) :
    graph.adapterTable package = .ok ∅ := by
  rw [adapterTable]
  split
  · rfl
  · next described hdescribed =>
    rw [h described hdescribed]
    rfl

end TypeGraph

open TypeGraph

namespace Classifier

variable {classifier : Classifier} {tables : AdapterTables}

/-! ### Classifying -/

/-- A member is classified by what is found for its element, whatever tables have been made. -/
lemma classifyMember_eq (h : tables.Faithful classifier.graph) (owner : Declaration)
    (member : Member) :
    (classifier.classifyMember tables owner member).1 =
      (classifier.graph.adaptationAt (positionOf owner member) member.effectiveType).bind
        (classifier.visitAdapted member.effectiveType) := by
  rw [← adaptation?_eq h]
  rfl

lemma faithful_classifyMember (h : tables.Faithful classifier.graph) (owner : Declaration)
    (member : Member) :
    (classifier.classifyMember tables owner member).2.Faithful classifier.graph :=
  faithful_adaptation? h _ _

lemma faithful_classifyMembers (owner : Declaration) (members : List Member)
    (h : tables.Faithful classifier.graph) (types : OrderedMap SchemaType) :
    (classifier.classifyMembers owner tables members types).2.Faithful classifier.graph := by
  induction members generalizing tables types with
  | nil => exact h
  | cons member rest ih =>
    have hmember := faithful_classifyMember h owner member
    rw [classifyMembers]
    split
    · next error tables' heq => rwa [heq] at hmember
    · next type tables' heq =>
      rw [heq] at hmember
      exact ih hmember _

lemma faithful_classifyDeclaration (h : tables.Faithful classifier.graph)
    (declaration : Declaration) :
    (classifier.classifyDeclaration tables declaration).2.Faithful classifier.graph := by
  rw [classifyDeclaration]
  split
  · exact h
  · exact faithful_classifyMembers declaration declaration.members h ∅

end Classifier

end SchemaTyping
