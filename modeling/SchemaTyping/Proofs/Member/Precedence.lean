import SchemaTyping.Proofs.Member.Errors
import SchemaTyping.Proofs.Model.Writes

/-!
# Precedence of adapters

The adapter of an element is that of the member, else that of the declaration of the element, else
that of the package around the member. A package is consulted only if no other adapter comes before
it, and its adapters can be in error only then. Of several adapters for one name in a package, the
last one counts.
-/

namespace SchemaTyping

/-! ### Adapters of a package -/

/-- The name that an adapter of a package stands for, in any use of it. -/
def Adapter.adaptedName? (adapter : Adapter) : Option String :=
  adapter.adapted.bind TypeUse.declaredName?

/-- The error of an adapter of a package: it does not tell which type it adapts, or that type is no
declared use. -/
def Adapter.error? (package : String) (adapter : Adapter) : Option MetadataError :=
  match adapter.adapted with
  | none => some (.packageAdapterWithoutType package)
  | some adapted =>
    if adapted.declaredName?.isNone then some (.unadaptableType package adapted.text) else none

/-- The last of some adapters that stands for a name. -/
def lastAdapting? (adapters : List Adapter) (name : String) : Option Adapter :=
  adapters.reverse.find? (·.adaptedName? = some name)

/-- The adapters of a package by the names that they stand for. -/
def adapterEntries (adapters : List Adapter) : List (String × Adapter) :=
  adapters.filterMap fun adapter => adapter.adaptedName?.map fun name => (name, adapter)

lemma Adapter.error?_eq_none_iff (package : String) (adapter : Adapter) :
    adapter.error? package = none ↔ adapter.adaptedName? ≠ none := by
  rw [error?, adaptedName?]
  cases adapter.adapted with
  | none => simp
  | some adapted => cases h : adapted.declaredName? <;> simp [h]

/-- Under a name is the last adapter that stands for it. -/
lemma get?_adapterEntries (adapters : List Adapter) (name : String) :
    (OrderedMap.ofList (adapterEntries adapters)).get? name = lastAdapting? adapters name := by
  rw [OrderedMap.get?_ofList, adapterEntries, ← List.filterMap_reverse, lastAdapting?]
  exact (OrderedMap.read_filterMap Adapter.adaptedName? id _ name).trans Option.map_id'

/-- The arguments of the adapted type make no difference. -/
example : lastAdapting?
    [⟨.primitive .int, some (.declared "D" [])⟩,
      ⟨.primitive .char, some (.declared "D" [.wildcard none])⟩,
      ⟨.primitive .long, some (.declared "E" [])⟩] "D" =
    some ⟨.primitive .char, some (.declared "D" [.wildcard none])⟩ := by
  decide

namespace TypeGraph

variable {graph : TypeGraph} {package : String} {position : AdapterPosition} {type : TypeUse}

/-- The adapters of a package; a package that is not described has none. -/
def adaptersOf (graph : TypeGraph) (package : String) : List Adapter :=
  ((graph.package? package).map Package.adapters).getD []

/-- Adapters are entered in a table up to the first one that is in error. -/
lemma tabulateAdapters_eq (package : String) (adapters : List Adapter) (table : AdapterTable) :
    tabulateAdapters package adapters table =
      (adapters.findSome? (Adapter.error? package)).elim
        (.ok (table.insertMany (adapterEntries adapters))) .error := by
  induction adapters generalizing table with
  | nil => rfl
  | cons adapter rest ih =>
    rw [tabulateAdapters, List.findSome?_cons, Adapter.error?]
    cases hadapted : adapter.adapted with
    | none => rfl
    | some adapted =>
      dsimp only
      cases hname : adapted.declaredName? with
      | none => rfl
      | some name =>
        have hentry : adapter.adaptedName? = some name := by
          rw [Adapter.adaptedName?, hadapted]
          exact hname
        rw [adapterEntries, List.filterMap_cons, hentry]
        exact ih (table.insert name adapter)

lemma adapterTable_eq (graph : TypeGraph) (package : String) :
    graph.adapterTable package =
      ((graph.adaptersOf package).findSome? (Adapter.error? package)).elim
        (.ok (.ofList (adapterEntries (graph.adaptersOf package)))) .error := by
  rw [adapterTable, adaptersOf]
  cases graph.package? package with
  | none => rfl
  | some described => exact tabulateAdapters_eq package described.adapters ∅

/-- A table has the error of the first adapter that is in error. -/
lemma adapterTable_eq_error_iff {error : MetadataError} :
    graph.adapterTable package = .error error ↔
      (graph.adaptersOf package).findSome? (Adapter.error? package) = some error := by
  rw [adapterTable_eq]
  cases (graph.adaptersOf package).findSome? (Adapter.error? package) <;> simp

/-- There is a table if every adapter stands for a name. -/
lemma exists_adapterTable_iff :
    (∃ table, graph.adapterTable package = .ok table) ↔
      ∀ adapter ∈ graph.adaptersOf package, adapter.adaptedName? ≠ none := by
  have hnone : (graph.adaptersOf package).findSome? (Adapter.error? package) = none ↔
      ∀ adapter ∈ graph.adaptersOf package, adapter.adaptedName? ≠ none := by
    simp only [List.findSome?_eq_none_iff, Adapter.error?_eq_none_iff]
  rw [adapterTable_eq, ← hnone]
  cases (graph.adaptersOf package).findSome? (Adapter.error? package) <;> simp

lemma get?_adapterTable {table : AdapterTable} (htable : graph.adapterTable package = .ok table)
    (name : String) : table.get? name = lastAdapting? (graph.adaptersOf package) name := by
  rw [adapterTable_eq] at htable
  cases herror : (graph.adaptersOf package).findSome? (Adapter.error? package) with
  | some error =>
    rw [herror] at htable
    cases htable
  | none =>
    rw [herror] at htable
    cases htable
    exact get?_adapterEntries _ name

/-! ### Levels -/

/-- A package is consulted for an element: neither the member nor the declaration of the element has
an adapter. -/
structure Consults (graph : TypeGraph) (position : AdapterPosition) (type : TypeUse)
    (package : String) : Prop where
  member : position.member = none
  element : graph.UnadaptedElement type
  package : position.package = some package

/-- The adapter for an element, and the level on which it is. -/
inductive IsCandidate (graph : TypeGraph) (position : AdapterPosition) (type : TypeUse) :
    Adapter → AdapterLevel → Prop where
  | member {adapter : Adapter} (hmember : position.member = some adapter) :
    IsCandidate graph position type adapter .member
  | type {name : String} {adapter : Adapter} (hmember : position.member = none)
    (hname : (graph.element type).1.declaredName? = some name)
    (hadapter : graph.adapterOf? name = some adapter) :
    IsCandidate graph position type adapter .type
  | package {package name : String} {adapter : Adapter}
    (hconsults : graph.Consults position type package)
    (hname : (graph.element type).1.declaredName? = some name)
    (hlast : lastAdapting? (graph.adaptersOf package) name = some adapter) :
    IsCandidate graph position type adapter .package

/-- If a package is consulted, each of its adapters stands for a name. -/
def Answers (graph : TypeGraph) (position : AdapterPosition) (type : TypeUse) : Prop :=
  ∀ package, graph.Consults position type package →
    ∀ adapter ∈ graph.adaptersOf package, adapter.adaptedName? ≠ none

lemma mem_asked?_iff :
    package ∈ graph.asked? position (graph.element type).1 ↔
      graph.Consults position type package := by
  constructor
  · intro h
    obtain ⟨member, asked⟩ := position
    cases member with
    | some adapter => cases h
    | none =>
      cases hname : (graph.element type).1.declaredName? with
      | none => simp [asked?, hname] at h
      | some name =>
        simp only [asked?, hname, Option.mem_def, Option.ite_none_right_eq_some,
          Option.isNone_iff_eq_none] at h
        exact ⟨rfl, (unadaptedElement_iff hname).2 h.1, h.2⟩
  · rintro ⟨hmember, ⟨name, hname, hunadapted⟩, hpackage⟩
    have hadapter := (unadaptedElement_iff hname).1 ⟨name, hname, hunadapted⟩
    simp [asked?, hmember, hname, hadapter, hpackage]

/-! ### Searches -/

/-- A search consults a package, or ends with what it finds on the other levels. -/
lemma candidate_cases (graph : TypeGraph) (position : AdapterPosition) (type : TypeUse) :
    (∃ package name, graph.Consults position type package ∧
      (graph.element type).1.declaredName? = some name ∧
      (graph.candidate ∅ position (graph.element type).1).1 =
        (fun table => (table.get? name).map (·, .package)) <$> graph.adapterTable package) ∨
    ∃ found, (graph.candidate ∅ position (graph.element type).1).1 = .ok found ∧
      ∀ adapter level, found = some (adapter, level) →
        graph.IsCandidate position type adapter level := by
  rw [candidate]
  split
  · next adapter hmember =>
    refine .inr ⟨some (adapter, .member), rfl, ?_⟩
    rintro _ _ ⟨⟩
    exact .member hmember
  · exact .inr ⟨none, rfl, by rintro _ _ ⟨⟩⟩
  · next name hmember hname =>
    split
    · next adapter hadapter =>
      refine .inr ⟨some (adapter, .type), rfl, ?_⟩
      rintro _ _ ⟨⟩
      exact .type hmember hname hadapter
    · exact .inr ⟨none, rfl, by rintro _ _ ⟨⟩⟩
    · next package hadapter hpackage =>
      refine .inl ⟨package, name, ⟨hmember, (unadaptedElement_iff hname).2 hadapter, hpackage⟩,
        hname, ?_⟩
      show ((AdapterTables.lookup ∅ graph package name).1).map _ = _
      rw [lookup_eq (faithful_empty graph)]
      cases graph.adapterTable package <;> rfl

lemma isCandidate_of_candidate_eq {adapter : Adapter} {level : AdapterLevel}
    (h : (graph.candidate ∅ position (graph.element type).1).1 = .ok (some (adapter, level))) :
    graph.IsCandidate position type adapter level := by
  rcases graph.candidate_cases position type with
    ⟨package, name, hconsults, hname, heq⟩ | ⟨found, heq, hfound⟩
  · obtain ⟨table, htable, hget⟩ := map_eq_ok_iff.1 (heq.symm.trans h)
    obtain ⟨last, hlast, ⟨⟩⟩ := Option.map_eq_some_iff.1 hget
    exact .package hconsults hname ((get?_adapterTable htable name).symm.trans hlast)
  · cases heq.symm.trans h
    exact hfound adapter level rfl

/-- If the packages have their tables, the search comes to the candidate. -/
lemma IsCandidate.candidate_eq {adapter : Adapter} {level : AdapterLevel}
    (h : graph.IsCandidate position type adapter level) (hanswers : graph.Answers position type) :
    (graph.candidate ∅ position (graph.element type).1).1 = .ok (some (adapter, level)) := by
  rw [candidate]
  cases h with
  | member hmember => rw [hmember]
  | type hmember hname hadapter =>
    rw [hmember, hname]
    dsimp only
    rw [hadapter]
  | @package package name _ hconsults hname hlast =>
    obtain ⟨table, htable⟩ := exists_adapterTable_iff.2 (hanswers package hconsults)
    rw [hconsults.member, hname]
    dsimp only
    rw [(unadaptedElement_iff hname).1 hconsults.element, hconsults.package]
    show (AdapterTables.lookup ∅ graph package name).1.map _ = _
    rw [lookup_eq (faithful_empty graph), htable]
    show Except.ok ((table.get? name).map _) = _
    rw [get?_adapterTable htable, hlast]
    rfl

/-- A search has the error of the package that it consults, if there is one. -/
lemma adaptationAt_eq_error_iff_consults {error : MetadataError} :
    graph.adaptationAt position type = .error error ↔
      ∃ package, graph.Consults position type package ∧
        graph.adapterTable package = .error error := by
  constructor
  · intro h
    have hcandidate := map_eq_error_iff.1 ((adaptationAt_eq position type).symm.trans h)
    rcases graph.candidate_cases position type with
      ⟨package, name, hconsults, -, heq⟩ | ⟨found, heq, -⟩
    · exact ⟨package, hconsults, map_eq_error_iff.1 (heq.symm.trans hcandidate)⟩
    · cases heq.symm.trans hcandidate
  · rintro ⟨package, hconsults, htable⟩
    exact (adaptationAt_eq_error_iff hconsults.package).2
      ⟨hconsults.member, hconsults.element, htable⟩

lemma answers_iff :
    graph.Answers position type ↔ ∃ result, graph.adaptationAt position type = .ok result := by
  constructor
  · intro h
    cases hresult : graph.adaptationAt position type with
    | ok result => exact ⟨result, rfl⟩
    | error error =>
      obtain ⟨package, hconsults, hfailed⟩ := adaptationAt_eq_error_iff_consults.1 hresult
      obtain ⟨table, htable⟩ := exists_adapterTable_iff.2 (h package hconsults)
      cases htable.symm.trans hfailed
  · rintro ⟨result, hresult⟩ package hconsults
    apply exists_adapterTable_iff.1
    cases htable : graph.adapterTable package with
    | ok table => exact ⟨table, rfl⟩
    | error error =>
      have herror := adaptationAt_eq_error_iff_consults.2 ⟨package, hconsults, htable⟩
      cases hresult.symm.trans herror

section Effect

variable {element : TypeUse} {wrapping : Wrapping} {found : Option (Adapter × AdapterLevel)}

lemma adaptationBy_eq_none_iff :
    adaptationBy element wrapping found = none ↔
      ∀ adapter level, found = some (adapter, level) → adapter.target = element := by
  rcases found with _ | ⟨adapter, level⟩ <;> simp [adaptationBy]

lemma adaptationBy_eq_some_iff {adaptation : Adaptation} :
    adaptationBy element wrapping found = some adaptation ↔
      ∃ adapter level, found = some (adapter, level) ∧ adapter.target ≠ element ∧
        adaptation = ⟨adapter.target, level, wrapping⟩ := by
  rcases found with _ | ⟨adapter, level⟩ <;> simp [adaptationBy, eq_comm]

end Effect

/-- What the search finds on the levels is the candidate. -/
lemma exists_found (h : graph.Answers position type) :
    ∃ found, (∀ adapter level, found = some (adapter, level) ↔
        graph.IsCandidate position type adapter level) ∧
      graph.adaptationAt position type =
        .ok (adaptationBy (graph.element type).1 (graph.element type).2 found) := by
  obtain ⟨result, hresult⟩ := answers_iff.1 h
  rw [adaptationAt_eq] at hresult
  obtain ⟨found, hfound, rfl⟩ := map_eq_ok_iff.1 hresult
  refine ⟨found, fun adapter level => ⟨?_, fun hcandidate => ?_⟩, hresult⟩
  · rintro rfl
    exact isCandidate_of_candidate_eq hfound
  · exact Except.ok.inj (hfound.symm.trans (hcandidate.candidate_eq h))

/-- Nothing is found if there is no candidate, or if it leads back to the element. -/
lemma adaptationAt_eq_none_iff (h : graph.Answers position type) :
    graph.adaptationAt position type = .ok none ↔
      ∀ adapter level, graph.IsCandidate position type adapter level →
        adapter.target = (graph.element type).1 := by
  obtain ⟨found, hfound, heq⟩ := exists_found h
  simp only [heq, Except.ok.injEq, adaptationBy_eq_none_iff, hfound]

/-- Any other candidate is what is found. -/
lemma adaptationAt_eq_some_iff (h : graph.Answers position type) {adaptation : Adaptation} :
    graph.adaptationAt position type = .ok (some adaptation) ↔
      ∃ adapter level, graph.IsCandidate position type adapter level ∧
        adapter.target ≠ (graph.element type).1 ∧
          adaptation = ⟨adapter.target, level, (graph.element type).2⟩ := by
  obtain ⟨found, hfound, heq⟩ := exists_found h
  simp only [heq, Except.ok.injEq, adaptationBy_eq_some_iff, hfound]

/-- Only a package that is consulted can be new among the tables. -/
lemma adaptation?_snd_of_not_consults (tables : AdapterTables)
    (h : ∀ package, ¬ graph.Consults position type package) :
    (graph.adaptation? tables position type).2 = tables := by
  show (graph.candidate tables position (graph.element type).1).2 = tables
  rw [candidate]
  split
  · rfl
  · rfl
  · next name hmember hname =>
    split
    · rfl
    · rfl
    · next package hadapter hpackage =>
      exact absurd ⟨hmember, (unadaptedElement_iff hname).2 hadapter, hpackage⟩ (h package)

/-- Whatever operations have been done before, the search for the adaptation of an element fails if
and only if it consults a package with an adapter that stands for no name, and has the error of the
first one. Otherwise it gives the target of the candidate, with its level and with the layer around
the element, and gives nothing if there is no candidate or if its target is the element. A package
gets a table only if it is consulted. -/
theorem adaptation?_by_precedence (graph : TypeGraph) (operations : List Operation)
    (position : AdapterPosition) (type : TypeUse) :
    let tables := (graph.performAll ∅ operations).2
    let search := graph.adaptation? tables position type
    let element := (graph.element type).1
    let wrapping := (graph.element type).2
    ((∃ result, search.1 = .ok result) ↔ graph.Answers position type) ∧
      (∀ error, search.1 = .error error ↔ ∃ package, graph.Consults position type package ∧
        (graph.adaptersOf package).findSome? (Adapter.error? package) = some error) ∧
      (search.1 = .ok none ↔ graph.Answers position type ∧
        ∀ adapter level, graph.IsCandidate position type adapter level →
          adapter.target = element) ∧
      (∀ adaptation, search.1 = .ok (some adaptation) ↔ graph.Answers position type ∧
        ∃ adapter level, graph.IsCandidate position type adapter level ∧
          adapter.target ≠ element ∧ adaptation = ⟨adapter.target, level, wrapping⟩) ∧
      (∀ package, package ∈ search.2.made.keys ↔
        package ∈ tables.made.keys ∨ graph.Consults position type package) ∧
      ((∀ package, ¬ graph.Consults position type package) → search.2 = tables) := by
  intro tables search element wrapping
  have hsearch : search.1 = graph.adaptationAt position type :=
    adaptation?_eq (faithful_performAll (faithful_empty graph) operations) position type
  rw [hsearch]
  -- what is found is told by the candidate only if nothing fails
  have hresult (result : Option Adaptation) : graph.adaptationAt position type = .ok result ↔
      graph.Answers position type ∧ graph.adaptationAt position type = .ok result :=
    (and_iff_right_of_imp fun h => answers_iff.2 ⟨result, h⟩).symm
  refine ⟨answers_iff.symm, fun error => ?_, ?_, fun adaptation => ?_, fun package => ?_, ?_⟩
  · simp only [← adapterTable_eq_error_iff]
    exact adaptationAt_eq_error_iff_consults
  · rw [hresult]
    exact and_congr_right adaptationAt_eq_none_iff
  · rw [hresult]
    exact and_congr_right fun h => adaptationAt_eq_some_iff h
  · rw [← mem_asked?_iff]
    exact mem_keys_adaptation? graph tables position type
  · exact adaptation?_snd_of_not_consults tables

end TypeGraph

end SchemaTyping
