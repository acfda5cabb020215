import Mathlib.Data.Finset.Card
import SchemaTyping.CommandLine.Run
import SchemaTyping.Proofs.Graph.Search
import SchemaTyping.Proofs.Member.Tables
import SchemaTyping.Proofs.Run.Outcome
import SchemaTyping.Proofs.Visit.Layers

/-!
# Sequences of operations

Operations on one graph share the tables of adapters, and each asks the packages that it comes to.
What an operation answers does not depend on the operations before it, and what they leave behind
is one table for each package that was asked. So roots are classified as if each were the only
one, and a document is made from those that can be.
-/

namespace SchemaTyping

namespace TypeGraph

variable {graph : TypeGraph} {tables : AdapterTables} {package : String}

/-- The same declarations and packages, read under other settings. -/
def under (graph : TypeGraph) (settings : Settings) : TypeGraph :=
  { graph with settings }

/-! ### Packages asked -/

lemma mem_keys_table (tables : AdapterTables) (graph : TypeGraph) (asked : String) :
    package ∈ (tables.table graph asked).2.made.keys ↔
      package ∈ tables.made.keys ∨ package = asked := by
  rw [AdapterTables.table]
  split
  · next table htable =>
    have hkey : asked ∈ tables.made.keys :=
      List.mem_map_of_mem (OrderedMap.mem_entries_of_get? htable)
    exact ⟨.inl, fun h => h.elim id fun heq => heq ▸ hkey⟩
  · dsimp only
    rw [OrderedMap.keys_insert]
    split
    · next hkey => exact ⟨.inl, fun h => h.elim id fun heq => heq ▸ hkey⟩
    · rw [List.mem_append, List.mem_singleton]

/-- The package that is asked for an adapter of an element: that of the position, if the element is
declared, and neither the member nor the declaration of the element has one. -/
def asked? (graph : TypeGraph) (position : AdapterPosition) (element : TypeUse) : Option String :=
  match position.member, element.declaredName? with
  | none, some name => if (graph.adapterOf? name).isNone then position.package else none
  | _, _ => none

lemma mem_keys_candidate (graph : TypeGraph) (tables : AdapterTables) (position : AdapterPosition)
    (element : TypeUse) :
    package ∈ (graph.candidate tables position element).2.made.keys ↔
      package ∈ tables.made.keys ∨ package ∈ graph.asked? position element := by
  obtain ⟨member, asked⟩ := position
  unfold candidate asked?
  cases member with
  | some adapter => simp
  | none =>
    cases element.declaredName? with
    | none => simp
    | some name =>
      dsimp only
      cases graph.adapterOf? name with
      | some adapter => simp
      | none =>
        cases asked with
        | none => simp
        | some asked =>
          refine (mem_keys_table tables graph asked).trans ?_
          simp [eq_comm]

lemma mem_keys_adaptation? (graph : TypeGraph) (tables : AdapterTables)
    (position : AdapterPosition) (type : TypeUse) :
    package ∈ (graph.adaptation? tables position type).2.made.keys ↔
      package ∈ tables.made.keys ∨ package ∈ graph.asked? position (graph.element type).1 :=
  mem_keys_candidate graph tables position _

end TypeGraph

open TypeGraph

namespace Classifier

variable {classifier : Classifier} {tables : AdapterTables} {package : String}

/-- The packages that are asked for a member. -/
def askedForMember (classifier : Classifier) (owner : Declaration) (member : Member) :
    Option String :=
  classifier.graph.asked? (positionOf owner member)
    (classifier.graph.element member.effectiveType).1

/-- The members that are classified: all up to the first that cannot be, with it. -/
def membersReached (classifier : Classifier) (owner : Declaration) : List Member → List Member
  | [] => []
  | member :: rest =>
    member :: match (classifier.classifyMember ∅ owner member).1 with
      | .error _ => []
      | .ok _ => classifier.membersReached owner rest

/-- The packages that are asked for a declaration: none if its own type cannot be classified. -/
def askedForDeclaration (classifier : Classifier) (declaration : Declaration) : List String :=
  match classifier.classify declaration.asType with
  | .error _ => []
  | .ok _ =>
    (classifier.membersReached declaration declaration.members).filterMap
      (classifier.askedForMember declaration)

lemma membersReached_singleton (classifier : Classifier) (owner : Declaration) (member : Member) :
    classifier.membersReached owner [member] = [member] := by
  rw [membersReached]
  cases (classifier.classifyMember ∅ owner member).1 <;> rfl

/-- A declaration with one member asks what its member asks. -/
lemma askedForDeclaration_of_one {declaration : Declaration} {member : Member} {type : SchemaType}
    (hmembers : declaration.members = [member])
    (hown : classifier.classify declaration.asType = .ok type) :
    classifier.askedForDeclaration declaration =
      (classifier.askedForMember declaration member).toList := by
  rw [askedForDeclaration, hown, hmembers, membersReached_singleton]
  dsimp only
  rw [List.filterMap_cons]
  cases classifier.askedForMember declaration member <;> rfl

/-! ### One answer, whatever tables there are -/

lemma classifyMember_eq_alone (h : tables.Faithful classifier.graph) (owner : Declaration)
    (member : Member) :
    (classifier.classifyMember tables owner member).1 =
      (classifier.classifyMember ∅ owner member).1 := by
  rw [classifyMember_eq h, classifyMember_eq (faithful_empty classifier.graph)]

lemma mem_keys_classifyMember (classifier : Classifier) (tables : AdapterTables)
    (owner : Declaration) (member : Member) (package : String) :
    package ∈ (classifier.classifyMember tables owner member).2.made.keys ↔
      package ∈ tables.made.keys ∨ package ∈ classifier.askedForMember owner member :=
  mem_keys_adaptation? classifier.graph tables _ _

/-- Members are classified alike with all tables of the graph. -/
lemma classifyMembers_eq (owner : Declaration) (members : List Member) {tables' : AdapterTables}
    (h : tables.Faithful classifier.graph) (h' : tables'.Faithful classifier.graph)
    (types : OrderedMap SchemaType) :
    (classifier.classifyMembers owner tables members types).1 =
      (classifier.classifyMembers owner tables' members types).1 := by
  induction members generalizing tables tables' types with
  | nil => rfl
  | cons member rest ih =>
    have hmember := faithful_classifyMember h owner member
    have hmember' := faithful_classifyMember h' owner member
    have heq := (classifyMember_eq_alone h owner member).trans
      (classifyMember_eq_alone h' owner member).symm
    rw [classifyMembers, classifyMembers]
    -- Both runs come to an error at the same member, if at all.
    rcases hfirst : classifier.classifyMember tables owner member with ⟨_ | type, after⟩ <;>
      rcases hsecond : classifier.classifyMember tables' owner member with ⟨_ | type', after'⟩ <;>
      rw [hfirst, hsecond] at heq <;> cases heq
    · rfl
    · rw [hfirst] at hmember
      rw [hsecond] at hmember'
      exact ih hmember hmember' _

lemma mem_keys_classifyMembers (owner : Declaration) (members : List Member)
    (h : tables.Faithful classifier.graph) (types : OrderedMap SchemaType) :
    package ∈ (classifier.classifyMembers owner tables members types).2.made.keys ↔
      package ∈ tables.made.keys ∨
        package ∈ (classifier.membersReached owner members).filterMap
          (classifier.askedForMember owner) := by
  induction members generalizing tables types with
  | nil => simp [classifyMembers, membersReached]
  | cons member rest ih =>
    have hkeys := classifier.mem_keys_classifyMember tables owner member package
    have hfaithful := faithful_classifyMember h owner member
    have halone := classifyMember_eq_alone h owner member
    rw [classifyMembers, membersReached]
    rcases hresult : classifier.classifyMember tables owner member with ⟨error | type, after⟩ <;>
      rw [hresult] at hkeys hfaithful halone <;> rw [← halone]
    · rw [show package ∈ after.made.keys ↔ _ from hkeys]
      simp
    · rw [show _ ↔ _ from ih hfaithful _, show package ∈ after.made.keys ↔ _ from hkeys]
      simp [or_assoc]

lemma classifyDeclaration_eq (h : tables.Faithful classifier.graph) (declaration : Declaration) :
    (classifier.classifyDeclaration tables declaration).1 =
      (classifier.classifyDeclaration ∅ declaration).1 := by
  rw [classifyDeclaration, classifyDeclaration]
  cases classifier.classify declaration.asType with
  | error error => rfl
  | ok type =>
    exact congrArg (Except.map (DeclarationSchema.mk declaration.name type))
      (classifyMembers_eq declaration declaration.members h (faithful_empty classifier.graph) ∅)

lemma mem_keys_classifyDeclaration (h : tables.Faithful classifier.graph)
    (declaration : Declaration) :
    package ∈ (classifier.classifyDeclaration tables declaration).2.made.keys ↔
      package ∈ tables.made.keys ∨ package ∈ classifier.askedForDeclaration declaration := by
  rw [classifyDeclaration, askedForDeclaration]
  cases classifier.classify declaration.asType with
  | error error => simp
  | ok type => exact mem_keys_classifyMembers declaration declaration.members h ∅

end Classifier

/-! ### Operations -/

/-- What is done with the tables of a graph: a look-up in a package, the search for the adaptation
of an element, or the classification of a member or of a declaration. The settings and the registry
may be others each time. -/
inductive Operation where
  | lookup (package name : String)
  | adaptation (settings : Settings) (position : AdapterPosition) (type : TypeUse)
  | member (settings : Settings) (registry : Registry) (owner : Declaration) (member : Member)
  | declaration (settings : Settings) (registry : Registry) (declaration : Declaration)

/-- What an operation returns. -/
inductive Answer where
  | adapter (result : Except MetadataError (Option Adapter))
  | adaptation (result : Except MetadataError (Option Adaptation))
  | schemaType (result : Except MetadataError SchemaType)
  | declaration (result : Except MetadataError DeclarationSchema)

namespace TypeGraph

variable {graph : TypeGraph} {tables : AdapterTables} {package : String}

/-- Do an operation with the tables that have been made. -/
def perform (graph : TypeGraph) (tables : AdapterTables) : Operation → Answer × AdapterTables
  | .lookup package name => (tables.lookup graph package name).map .adapter id
  | .adaptation settings position type =>
    ((graph.under settings).adaptation? tables position type).map .adaptation id
  | .member settings registry owner member =>
    (Classifier.classifyMember ⟨graph.under settings, registry⟩ tables owner member).map
      .schemaType id
  | .declaration settings registry declaration =>
    (Classifier.classifyDeclaration ⟨graph.under settings, registry⟩ tables declaration).map
      .declaration id

/-- Do operations in order, with the same tables. -/
def performAll (graph : TypeGraph) :
    AdapterTables → List Operation → List Answer × AdapterTables
  | tables, [] => ([], tables)
  | tables, operation :: rest =>
    let (answer, tables) := graph.perform tables operation
    let (answers, tables) := graph.performAll tables rest
    (answer :: answers, tables)

/-- The packages that an operation asks. -/
def askedFor (graph : TypeGraph) : Operation → List String
  | .lookup package _ => [package]
  | .adaptation settings position type =>
    (graph.asked? position ((graph.under settings).element type).1).toList
  | .member settings registry owner member =>
    (Classifier.askedForMember ⟨graph.under settings, registry⟩ owner member).toList
  | .declaration settings registry declaration =>
    Classifier.askedForDeclaration ⟨graph.under settings, registry⟩ declaration

lemma perform_eq (h : tables.Faithful graph) (operation : Operation) :
    (graph.perform tables operation).1 = (graph.perform ∅ operation).1 := by
  cases operation with
  | lookup package name =>
    exact congrArg Answer.adapter
      ((lookup_eq h package name).trans (lookup_eq (faithful_empty graph) package name).symm)
  | adaptation settings position type =>
    have hunder : tables.Faithful (graph.under settings) := h
    exact congrArg Answer.adaptation (adaptation?_eq hunder position type)
  | member settings registry owner member =>
    exact congrArg Answer.schemaType (Classifier.classifyMember_eq_alone h owner member)
  | declaration settings registry declaration =>
    exact congrArg Answer.declaration (Classifier.classifyDeclaration_eq h declaration)

lemma faithful_perform (h : tables.Faithful graph) (operation : Operation) :
    (graph.perform tables operation).2.Faithful graph := by
  cases operation with
  | lookup package name => exact faithful_lookup h package name
  | adaptation settings position type =>
    have hunder : tables.Faithful (graph.under settings) := h
    exact faithful_adaptation? hunder position type
  | member settings registry owner member =>
    have hunder : tables.Faithful (graph.under settings) := h
    exact Classifier.faithful_classifyMember hunder owner member
  | declaration settings registry declaration =>
    have hunder : tables.Faithful (graph.under settings) := h
    exact Classifier.faithful_classifyDeclaration hunder declaration

lemma mem_keys_perform (h : tables.Faithful graph) (operation : Operation) :
    package ∈ (graph.perform tables operation).2.made.keys ↔
      package ∈ tables.made.keys ∨ package ∈ graph.askedFor operation := by
  cases operation with
  | lookup asked name =>
    rw [askedFor, List.mem_singleton]
    exact mem_keys_table tables graph asked
  | adaptation settings position type =>
    rw [askedFor, Option.mem_toList]
    exact mem_keys_adaptation? (graph.under settings) tables position type
  | member settings registry owner member =>
    rw [askedFor, Option.mem_toList]
    exact Classifier.mem_keys_classifyMember _ tables owner member package
  | declaration settings registry declaration =>
    exact Classifier.mem_keys_classifyDeclaration h declaration

/-! ### Runs over operations -/

/-- Each operation of a run answers what it answers alone. -/
lemma performAll_eq (h : tables.Faithful graph) (operations : List Operation) :
    (graph.performAll tables operations).1 =
      operations.map fun operation => (graph.perform ∅ operation).1 := by
  induction operations generalizing tables with
  | nil => rfl
  | cons operation rest ih =>
    rw [List.map_cons, ← perform_eq h, ← ih (faithful_perform h operation)]
    rfl

lemma faithful_performAll (h : tables.Faithful graph) (operations : List Operation) :
    (graph.performAll tables operations).2.Faithful graph := by
  induction operations generalizing tables with
  | nil => exact h
  | cons operation rest ih => exact ih (faithful_perform h operation)

lemma mem_keys_performAll (h : tables.Faithful graph) (operations : List Operation) :
    package ∈ (graph.performAll tables operations).2.made.keys ↔
      package ∈ tables.made.keys ∨ package ∈ operations.flatMap graph.askedFor := by
  induction operations generalizing tables with
  | nil => simp [performAll]
  | cons operation rest ih =>
    rw [List.flatMap_cons, List.mem_append, ← or_assoc, ← mem_keys_perform h]
    exact ih (faithful_perform h operation)

/-- A run that begins without tables leaves one for each package that was asked. -/
lemma size_performAll (graph : TypeGraph) (operations : List Operation) :
    (graph.performAll ∅ operations).2.size =
      (operations.flatMap graph.askedFor).toFinset.card := by
  have hkeys : (graph.performAll ∅ operations).2.made.keys.toFinset =
      (operations.flatMap graph.askedFor).toFinset := by
    ext package
    rw [List.mem_toFinset, List.mem_toFinset, mem_keys_performAll (faithful_empty graph)]
    exact or_iff_right List.not_mem_nil
  have hnodup : (graph.performAll ∅ operations).2.made.keys.Nodup :=
    (graph.performAll ∅ operations).2.made.nodup_keys
  rw [← hkeys, List.toFinset_card_of_nodup hnodup]
  exact (List.length_map _).symm

/-- A table that cannot be made gives its error to every look-up. -/
lemma lookup_error (h : tables.Faithful graph) {error : MetadataError}
    (htable : graph.adapterTable package = .error error) (name : String) :
    (tables.lookup graph package name).1 = .error error := by
  rw [lookup_eq h, htable]
  rfl

end TypeGraph

/-! ### Runs over declarations -/

namespace Classifier

/-- Declarations are classified one after the other by the operations on them. -/
lemma performAll_declarations (classifier : Classifier) (tables : AdapterTables)
    (declarations : List Declaration) :
    classifier.graph.performAll tables (declarations.map
        (.declaration classifier.graph.settings classifier.registry)) =
      (classifier.classifyAll tables declarations).map (·.map .declaration) id := by
  induction declarations generalizing tables with
  | nil => rfl
  | cons declaration rest ih =>
    rw [List.map_cons, performAll, classifyAll]
    dsimp only
    rw [ih]
    rfl

/-- Each declaration of a run has the result that it has alone. -/
lemma classifyAll_eq (classifier : Classifier) (declarations : List Declaration) :
    (classifier.classifyAll ∅ declarations).1 =
      declarations.map fun declaration => (classifier.classifyDeclaration ∅ declaration).1 := by
  have hanswers := performAll_eq (faithful_empty classifier.graph) (declarations.map
    (.declaration classifier.graph.settings classifier.registry))
  rw [performAll_declarations, List.map_map] at hanswers
  have hinjective : Function.Injective Answer.declaration := fun _ _ h => by cases h; rfl
  refine hinjective.list_map ?_
  rw [List.map_map]
  exact hanswers

lemma size_classifyAll (classifier : Classifier) (declarations : List Declaration) :
    (classifier.classifyAll ∅ declarations).2.size =
      (declarations.flatMap classifier.askedForDeclaration).toFinset.card := by
  have hsize := size_performAll classifier.graph (declarations.map
    (.declaration classifier.graph.settings classifier.registry))
  rw [performAll_declarations, List.flatMap_map] at hsize
  exact hsize

lemma size_classifyAll_perm (classifier : Classifier) {declarations permuted : List Declaration}
    (h : permuted.Perm declarations) :
    (classifier.classifyAll ∅ permuted).2.size =
      (classifier.classifyAll ∅ declarations).2.size := by
  rw [size_classifyAll, size_classifyAll]
  exact congrArg _ (List.toFinset_eq_of_perm _ _ (h.flatMap_right _))

/-- The declarations that can be classified, each as if there were no other. -/
def classifiedAlone (classifier : Classifier) (declarations : List Declaration) :
    List DeclarationSchema :=
  declarations.filterMap fun declaration => (classifier.classifyDeclaration ∅ declaration).1.toOption

end Classifier

namespace Invocation

variable {invocation : Invocation} {space : FileSpace} {model : Model}

/-- The schemas of a run are those of the roots that can be classified alone. -/
lemma classifiedRoots_fst (invocation : Invocation) (model : Model) :
    (invocation.classifiedRoots model).1 =
      model.classifier.classifiedAlone (invocation.rootsOf model) := by
  rw [classifiedRoots, Classifier.classifiedAlone]
  dsimp only
  rw [Classifier.classifyAll_eq, List.filterMap_map]
  congr 1
  funext root
  rw [Function.comp_apply]
  cases (model.classifier.classifyDeclaration ∅ root).1 <;> rfl

/-- Each root has a schema or a message. -/
lemma length_classifiedRoots (invocation : Invocation) (model : Model) :
    (invocation.classifiedRoots model).1.length + (invocation.classifiedRoots model).2.length =
      (invocation.rootsOf model).length := by
  rw [classifiedRoots]
  dsimp only
  rw [Classifier.classifyAll_eq]
  induction invocation.rootsOf model with
  | nil => rfl
  | cons root rest ih =>
    rw [List.map_cons, List.zip_cons_cons, List.filterMap_cons, List.filterMap_cons]
    cases (model.classifier.classifyDeclaration ∅ root).1 <;>
      simp only [List.length_cons] <;> omega

/-- The document of a run is that of the roots that can be classified alone. Only if there are
roots and none of them can be, there is no document. -/
lemma run_schema {invocation : Invocation} (hcommand : invocation.command = .schema)
    (space : FileSpace) :
    (invocation.run space).result = (invocation.loadModel space).bind fun model =>
      let schemas := model.classifier.classifiedAlone (invocation.rootsOf model)
      if schemas.isEmpty && !(invocation.rootsOf model).isEmpty then .error .everyRoot
      else invocation.deliver space (document schemas).pretty := by
  rw [run, hcommand]
  dsimp only
  rw [runClassified]
  cases invocation.loadModel space with
  | error error => rfl
  | ok model =>
    have hlength := length_classifiedRoots invocation model
    rw [Except.bind]
    dsimp only
    rw [← classifiedRoots_fst]
    cases hschemas : (invocation.classifiedRoots model).1 with
    | cons schema schemas => rfl
    | nil =>
      have hempty : (invocation.classifiedRoots model).2.isEmpty =
          (invocation.rootsOf model).isEmpty := by
        rw [hschemas, List.length_nil, Nat.zero_add] at hlength
        rw [Bool.eq_iff_iff, List.isEmpty_iff_length_eq_zero, List.isEmpty_iff_length_eq_zero,
          hlength]
      rw [hempty]

end Invocation

/-! ### Tables are not seen -/

/-- Operations on a graph answer together what each of them answers alone, and a package whose table
cannot be made gives its error to every look-up. In the end there is one table for each package that
was asked. So declarations have in any order the results that they have alone, and leave as many
tables; and the document of a run is that of the roots that can be classified alone. -/
theorem tables_unobservable (graph : TypeGraph) (operations : List Operation) :
    (graph.performAll ∅ operations).1 =
        operations.map (fun operation => (graph.perform ∅ operation).1) ∧
      (∀ package error, graph.adapterTable package = .error error → ∀ name,
        ((graph.performAll ∅ operations).2.lookup graph package name).1 = .error error) ∧
      (graph.performAll ∅ operations).2.size =
        (operations.flatMap graph.askedFor).toFinset.card ∧
      (∀ (classifier : Classifier) (declarations permuted : List Declaration),
        permuted.Perm declarations →
          (classifier.classifyAll ∅ permuted).1 =
              permuted.map (fun declaration => (classifier.classifyDeclaration ∅ declaration).1) ∧
            (classifier.classifyAll ∅ permuted).2.size =
              (classifier.classifyAll ∅ declarations).2.size) ∧
      ∀ (invocation : Invocation) (space : FileSpace), invocation.command = .schema →
        (invocation.run space).result = (invocation.loadModel space).bind fun model =>
          let schemas := model.classifier.classifiedAlone (invocation.rootsOf model)
          if schemas.isEmpty && !(invocation.rootsOf model).isEmpty then .error .everyRoot
          else invocation.deliver space (document schemas).pretty := by
  have hempty := TypeGraph.faithful_empty graph
  refine ⟨?_, ?_, ?_, ?_, ?_⟩
  · exact TypeGraph.performAll_eq hempty operations
  · intro package error htable name
    exact TypeGraph.lookup_error (TypeGraph.faithful_performAll hempty operations) htable name
  · exact graph.size_performAll operations
  · intro classifier declarations permuted hperm
    exact ⟨classifier.classifyAll_eq permuted, classifier.size_classifyAll_perm hperm⟩
  · intro invocation space hcommand
    exact Invocation.run_schema hcommand space

/-- A class with a member of type `D`. -/
def holderOfD (name : String) : Declaration :=
  { Declaration.bare name with members := [⟨"d", .declared "D" [], none, none⟩] }

/-- Two packages with a class in each. The first one binds text in the place of `D`; the second one
has an adapter that does not say what it adapts. -/
def twoPackages : Classifier where
  graph :=
    { declarations := (OrderedMap.empty.insert "p.A" (holderOfD "p.A")).insert "q.B"
        (holderOfD "q.B")
      packages := (OrderedMap.empty.insert "p"
          ⟨"p", none, [⟨.primitive .char, some (.declared "D" [])⟩]⟩).insert "q"
        ⟨"q", none, [⟨.primitive .char, none⟩]⟩
      settings := ⟨"O", ∅, ∅, ∅⟩ }
  registry := ∅

/-- The command that makes the document of one class of which nothing is known. -/
def classOnly : Invocation := ⟨.schema, [], none, ["p.A"], none, []⟩

/-- The second package fails whatever comes before, and does not touch what is found in the first.
-/
theorem two_packages_any_order :
    let settings := twoPackages.graph.settings
    let operations : List Operation :=
      [.declaration settings ∅ (holderOfD "p.A"), .lookup "q" "E",
        .declaration settings ∅ (holderOfD "q.B"), .lookup "p" "D"]
    let error := MetadataError.packageAdapterWithoutType "q"
    let schema : DeclarationSchema := ⟨"p.A", .object, OrderedMap.empty.insert "d" .string⟩
    (twoPackages.graph.performAll ∅ operations).1 =
        [.declaration (.ok schema), .adapter (.error error), .declaration (.error error),
          .adapter (.ok (some ⟨.primitive .char, some (.declared "D" [])⟩))] ∧
      twoPackages.graph.adapterTable "q" = .error error ∧
      ((twoPackages.graph.performAll ∅ operations).2.lookup twoPackages.graph "q" "D").1 =
        .error error ∧
      (twoPackages.graph.performAll ∅ operations).2.size = 2 ∧
      [holderOfD "q.B", holderOfD "p.A"].Perm [holderOfD "p.A", holderOfD "q.B"] ∧
      (twoPackages.classifyAll ∅ [holderOfD "q.B", holderOfD "p.A"]).1 =
        [.error error, .ok schema] ∧
      (twoPackages.classifyAll ∅ [holderOfD "q.B", holderOfD "p.A"]).2.size =
        (twoPackages.classifyAll ∅ [holderOfD "p.A", holderOfD "q.B"]).2.size ∧
      (classOnly.run .empty).result =
        .ok (.print ((document [⟨"p.A", .object, ∅⟩]).pretty ++ "\n")) := by
  intro settings operations error schema
  obtain ⟨hanswers, herror, hsize, hpermuted, hrun⟩ :=
    tables_unobservable twoPackages.graph operations
  have htable : twoPackages.graph.adapterTable "q" = .error error := by
    cbv
  have hperm : [holderOfD "q.B", holderOfD "p.A"].Perm [holderOfD "p.A", holderOfD "q.B"] :=
    .swap _ _ []
  obtain ⟨hresults, hsizes⟩ := hpermuted twoPackages _ _ hperm
  have hfirst : twoPackages.classify (holderOfD "p.A").asType = .ok .object :=
    Classifier.visit_of_bare (UseStack.not_blocks_empty _ _) (by cbv) (by cbv) (by cbv) .plain
  have hsecond : twoPackages.classify (holderOfD "q.B").asType = .ok .object :=
    Classifier.visit_of_bare (UseStack.not_blocks_empty _ _) (by cbv) (by cbv) (by cbv) .plain
  have hclassified : (twoPackages.classifyDeclaration ∅ (holderOfD "p.A")).1 = .ok schema := by
    rw [Classifier.classifyDeclaration, hfirst]
    cbv
  have hfailed : (twoPackages.classifyDeclaration ∅ (holderOfD "q.B")).1 = .error error := by
    rw [Classifier.classifyDeclaration, hsecond]
    cbv
  have hmembers (name : String) :
      (holderOfD name).members = [⟨"d", .declared "D" [], none, none⟩] := rfl
  have hasked (package : String) : twoPackages.graph.asked? ⟨none, some package⟩
      (twoPackages.graph.element (.declared "D" [])).1 = some package := by
    have helement : twoPackages.graph.element (.declared "D" []) = (.declared "D" [], .none) := by
      cbv
    rw [helement]
    rfl
  have haskedFirst : twoPackages.askedForDeclaration (holderOfD "p.A") = ["p"] :=
    (Classifier.askedForDeclaration_of_one (hmembers _) hfirst).trans
      (congrArg Option.toList (hasked "p"))
  have haskedSecond : twoPackages.askedForDeclaration (holderOfD "q.B") = ["q"] :=
    (Classifier.askedForDeclaration_of_one (hmembers _) hsecond).trans
      (congrArg Option.toList (hasked "q"))
  have hclass : (∅ : Model).classifier.classify (Declaration.bare "p.A").asType = .ok .object :=
    Classifier.visit_of_undeclared (fun _ => rfl) (UseStack.not_blocks_empty _ _)
      (by decide +kernel) (by decide +kernel) .plain
  refine ⟨?_, htable, herror "q" error htable "D", ?_, hperm, ?_, hsizes, ?_⟩
  · rw [hanswers]
    have hfirstLookup : ((∅ : AdapterTables).lookup twoPackages.graph "q" "E").1 =
        .error error := by
      cbv
    have hsecondLookup : ((∅ : AdapterTables).lookup twoPackages.graph "p" "D").1 =
        .ok (some ⟨.primitive .char, some (.declared "D" [])⟩) := by
      cbv
    show [Answer.declaration (twoPackages.classifyDeclaration ∅ (holderOfD "p.A")).1,
      .adapter ((∅ : AdapterTables).lookup twoPackages.graph "q" "E").1,
      .declaration (twoPackages.classifyDeclaration ∅ (holderOfD "q.B")).1,
      .adapter ((∅ : AdapterTables).lookup twoPackages.graph "p" "D").1] = _
    rw [hclassified, hfirstLookup, hfailed, hsecondLookup]
  · rw [hsize]
    show (twoPackages.askedForDeclaration (holderOfD "p.A") ++ ("q" ::
      (twoPackages.askedForDeclaration (holderOfD "q.B") ++ ["p"]))).toFinset.card = 2
    rw [haskedFirst, haskedSecond]
    decide
  · rw [hresults, List.map_cons, List.map_cons, hclassified, hfailed]
    rfl
  · have hload : classOnly.loadModel .empty = .ok ∅ := by cbv
    have hroots : classOnly.rootsOf ∅ = [.bare "p.A"] := by cbv
    rw [hrun classOnly .empty rfl, hload, Except.bind, hroots]
    dsimp only
    rw [Classifier.classifiedAlone, List.filterMap_cons, Classifier.classifyDeclaration, hclass]
    rfl

end SchemaTyping
