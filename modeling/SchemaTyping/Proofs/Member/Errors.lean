import SchemaTyping.Proofs.Member.Sequences
import SchemaTyping.Proofs.Visit.Errors

/-!
# Errors of members and declarations

A type use fails to be classified only for an enumeration of qualified names whose table cannot be
made. A member may also fail for the adapters of the package around it, if these are asked for at
all. A declaration fails as its own type does, else as its first member that fails.
-/

namespace SchemaTyping

open TypeGraph

namespace TypeGraph

variable {graph : TypeGraph} {package : String} {type : TypeUse}

/-- The element of a type is declared, and its declaration, if there is one, has no adapter. -/
def UnadaptedElement (graph : TypeGraph) (type : TypeUse) : Prop :=
  ∃ name, (graph.element type).1.declaredName? = some name ∧
    ∀ declaration, graph.declaration? name = some declaration → declaration.adapter = none

lemma unadaptedElement_iff {name : String}
    (hname : (graph.element type).1.declaredName? = some name) :
    graph.UnadaptedElement type ↔ graph.adapterOf? name = none := by
  rw [adapterOf?, Option.bind_eq_none_iff]
  constructor
  · rintro ⟨other, hother, h⟩
    rw [hname] at hother
    cases hother
    exact h
  · exact fun h => ⟨name, hname, h⟩

/-- The search for an adapter fails if and only if it comes to a package whose adapters are in
error. -/
lemma adaptationAt_eq_error_iff {position : AdapterPosition}
    (hposition : position.package = some package) {error : MetadataError} :
    graph.adaptationAt position type = .error error ↔
      position.member = none ∧ graph.UnadaptedElement type ∧
        graph.adapterTable package = .error error := by
  obtain ⟨member, _⟩ := position
  cases hposition
  cases member with
  | some adapter => simp [adaptationAt_member]
  | none =>
    cases hname : (graph.element type).1.declaredName? with
    | none => simp [adaptationAt_undeclared hname, UnadaptedElement, hname]
    | some name =>
      rw [unadaptedElement_iff hname]
      cases hadapter : graph.adapterOf? name with
      | some adapter => simp [adaptationAt_type hname hadapter]
      | none =>
        rw [adaptationAt_package hname hadapter]
        simp only [true_and]
        exact map_eq_error_iff

end TypeGraph

namespace Classifier

variable {classifier : Classifier} {tables : AdapterTables} {error : MetadataError}

/-! ### Type uses -/

/-- Where all enumerations of qualified names have their tables, every type use is classified. -/
lemma exists_visit_eq_ok (h : ∀ error, ¬ classifier.EnumerationError error) (type : TypeUse)
    (context : Context) (stack : UseStack) :
    ∃ schema, classifier.visit type context stack = .ok schema := by
  cases hvisit : classifier.visit type context stack with
  | ok schema => exact ⟨schema, rfl⟩
  | error error => exact absurd (enumerationError_of_visit type context stack hvisit) (h error)

/-! ### Members -/

/-- A member fails as the search for its adapter does, else as what is visited in its place. -/
lemma classifyMember_eq_error_iff (htables : tables.Faithful classifier.graph)
    (owner : Declaration) (member : Member) :
    (classifier.classifyMember tables owner member).1 = .error error ↔
      (member.adapter = none ∧ classifier.graph.UnadaptedElement member.effectiveType ∧
        classifier.graph.adapterTable owner.package = .error error) ∨
      ∃ found, classifier.graph.adaptationAt (positionOf owner member) member.effectiveType =
          .ok found ∧
        classifier.visitAdapted member.effectiveType found = .error error := by
  have hsearch : classifier.graph.adaptationAt (positionOf owner member) member.effectiveType =
      .error error ↔ member.adapter = none ∧
        classifier.graph.UnadaptedElement member.effectiveType ∧
          classifier.graph.adapterTable owner.package = .error error :=
    adaptationAt_eq_error_iff rfl
  rw [classifyMember_eq htables, ← hsearch]
  exact bind_eq_error_iff

lemma enumerationError_of_visitAdapted {type : TypeUse} {found : Option Adaptation}
    (h : classifier.visitAdapted type found = .error error) :
    classifier.EnumerationError error := by
  cases found with
  | none => exact enumerationError_of_visit _ _ _ h
  | some adaptation => exact enumerationError_of_visit _ _ _ h

/-! ### Declarations -/

/-- Members are classified until the first one that fails. -/
lemma classifyMembers_eq_error_iff (owner : Declaration) (members : List Member)
    (htables : tables.Faithful classifier.graph) (types : OrderedMap SchemaType) :
    (classifier.classifyMembers owner tables members types).1 = .error error ↔
      ∃ before member after, members = before ++ member :: after ∧
        (∀ earlier ∈ before, ∃ type,
          (classifier.classifyMember ∅ owner earlier).1 = .ok type) ∧
        (classifier.classifyMember ∅ owner member).1 = .error error := by
  induction members generalizing tables types with
  | nil => simp [classifyMembers]
  | cons first rest ih =>
    have halone := classifyMember_eq_alone htables owner first
    have hafter := faithful_classifyMember htables owner first
    rw [classifyMembers]
    rcases hfirst : classifier.classifyMember tables owner first with ⟨failure | type, after⟩ <;>
      rw [hfirst] at halone hafter
    · constructor
      · intro h
        cases h
        exact ⟨[], first, rest, rfl, by simp, halone.symm⟩
      · rintro ⟨before, member, later, hsplit, hbefore, hmember⟩
        cases before with
        | nil =>
          cases hsplit
          cases halone.trans hmember
          rfl
        | cons head before =>
          cases hsplit
          obtain ⟨type, htype⟩ := hbefore first List.mem_cons_self
          rw [← halone] at htype
          cases htype
    · refine (ih hafter _).trans ⟨?_, ?_⟩
      · rintro ⟨before, member, later, rfl, hbefore, hmember⟩
        refine ⟨first :: before, member, later, rfl, ?_, hmember⟩
        exact List.forall_mem_cons.2 ⟨⟨type, halone.symm⟩, hbefore⟩
      · rintro ⟨before, member, later, hsplit, hbefore, hmember⟩
        cases before with
        | nil =>
          cases hsplit
          rw [← halone] at hmember
          cases hmember
        | cons head before =>
          cases hsplit
          exact ⟨before, member, later, rfl, (List.forall_mem_cons.1 hbefore).2, hmember⟩

lemma classifyDeclaration_eq_error_iff (htables : tables.Faithful classifier.graph)
    (declaration : Declaration) :
    (classifier.classifyDeclaration tables declaration).1 = .error error ↔
      classifier.classify declaration.asType = .error error ∨
        (∃ type, classifier.classify declaration.asType = .ok type) ∧
          ∃ before member after, declaration.members = before ++ member :: after ∧
            (∀ earlier ∈ before, ∃ type,
              (classifier.classifyMember ∅ declaration earlier).1 = .ok type) ∧
            (classifier.classifyMember ∅ declaration member).1 = .error error := by
  rw [classifyDeclaration, ← classifyMembers_eq_error_iff declaration _ htables ∅]
  cases classifier.classify declaration.asType with
  | error failure => simp
  | ok type =>
    simp only [reduceCtorEq, false_or, Except.ok.injEq, exists_eq', true_and]
    exact map_eq_error_iff

/-! ### All errors -/

/-- If the tables of all enumerations can be made, every type use is classified, and otherwise an
error is that of one of them. A member may also have the error of the adapters of its owner's
package: it has that error if and only if it has no adapter of its own and its element is declared
without one. A declaration has the error of its own type, else that of its first member in error. -/
theorem errors_of_classification (classifier : Classifier) :
    ((∀ name declaration info, classifier.graph.declaration? name = some declaration →
        declaration.kind = .enumeration → declaration.qnameInfo = some info →
          ∃ table, declaration.qnameTable info
            (classifier.graph.package? declaration.package) = .ok table) →
      ∀ type context stack, ∃ schema, classifier.visit type context stack = .ok schema) ∧
    (∀ type context stack error, classifier.visit type context stack = .error error →
      classifier.EnumerationError error) ∧
    ∀ tables : AdapterTables, tables.Faithful classifier.graph → ∀ owner error,
      (∀ member, (classifier.classifyMember tables owner member).1 = .error error →
        classifier.EnumerationError error ∨
          classifier.graph.adapterTable owner.package = .error error) ∧
      (∀ member, classifier.graph.adapterTable owner.package = .error error →
        ((classifier.classifyMember tables owner member).1 = .error error ↔
          member.adapter = none ∧
            classifier.graph.UnadaptedElement member.effectiveType)) ∧
      ((classifier.classifyDeclaration tables owner).1 = .error error ↔
        classifier.classify owner.asType = .error error ∨
          (∃ type, classifier.classify owner.asType = .ok type) ∧
            ∃ before member after, owner.members = before ++ member :: after ∧
              (∀ earlier ∈ before, ∃ type,
                (classifier.classifyMember tables owner earlier).1 = .ok type) ∧
              (classifier.classifyMember tables owner member).1 = .error error) := by
  refine ⟨?_, ?_, ?_⟩
  · intro htables
    apply exists_visit_eq_ok
    rintro error ⟨name, declaration, info, hdecl, hkind, hinfo, herror⟩
    obtain ⟨table, htable⟩ := htables name declaration info hdecl hkind hinfo
    rw [htable] at herror
    cases herror
  · exact fun type context stack error h => enumerationError_of_visit type context stack h
  · intro tables htables owner error
    refine ⟨?_, ?_, ?_⟩
    · intro member h
      rcases (classifyMember_eq_error_iff htables owner member).1 h with
        ⟨-, -, htable⟩ | ⟨found, -, hvisit⟩
      · exact .inr htable
      · exact .inl (enumerationError_of_visitAdapted hvisit)
    · intro member htable
      rw [classifyMember_eq_error_iff htables]
      constructor
      · rintro (⟨hmember, helement, -⟩ | ⟨found, -, hvisit⟩)
        · exact ⟨hmember, helement⟩
        · -- an error of a visit is never one of adapters
          exact absurd (ofAdapters_adapterTable htable)
            (enumerationError_of_visitAdapted hvisit).not_ofAdapters
      · rintro ⟨hmember, helement⟩
        exact .inl ⟨hmember, helement, htable⟩
    · simp only [classifyMember_eq_alone htables]
      exact classifyDeclaration_eq_error_iff htables owner

/-- An enumeration of qualified names that is written in one of two ways. -/
def enumeration (base : QNameBase) : Declaration :=
  { Declaration.bare "Q" with kind := .enumeration, qnameInfo := some ⟨base, none⟩ }

/-- The enumeration, and a package with an adapter that does not say what it adapts. -/
def enumerated (base : QNameBase) : Classifier where
  graph :=
    { declarations := OrderedMap.empty.insert "Q" (enumeration base)
      packages := OrderedMap.empty.insert "p" ⟨"p", none, [⟨.primitive .char, none⟩]⟩
      settings := ⟨"O", ∅, ∅, ∅⟩ }
  registry := ∅

/-- A class in the package with a number, an array of `B`, and a `B` that is adapted to the
enumeration. -/
def ownerInPackage : Declaration :=
  { Declaration.bare "p.A" with
    members := [⟨"number", .primitive .int, none, none⟩,
      ⟨"array", .array (.declared "B" []), none, none⟩,
      ⟨"adapted", .declared "B" [], none, some ⟨.declared "Q" [], none⟩⟩] }

/-- Written as URIs the enumeration is a string, and otherwise an error. Of the three members the
second one asks the package, so it has the error of the package and the class has it too; the third
one does not ask it and has the error of the enumeration. -/
theorem errors_of_enumerated :
    (∃ schema, (enumerated .uri).visit (.declared "Q" []) .array ⟨["S"]⟩ = .ok schema) ∧
      (enumerated .qname).visit (.declared "Q" []) .plain ∅ =
        .error (.qnameEnumBase "Q" "QNAME") ∧
      (enumerated .qname).EnumerationError (.qnameEnumBase "Q" "QNAME") ∧
      ((enumerated .qname).classifyMember ∅ ownerInPackage
          ⟨"adapted", .declared "B" [], none, some ⟨.declared "Q" [], none⟩⟩).1 =
        .error (.qnameEnumBase "Q" "QNAME") ∧
      ((enumerated .qname).EnumerationError (.qnameEnumBase "Q" "QNAME") ∨
        (enumerated .qname).graph.adapterTable ownerInPackage.package =
          .error (.qnameEnumBase "Q" "QNAME")) ∧
      ((enumerated .qname).classifyMember ∅ ownerInPackage
          ⟨"array", .array (.declared "B" []), none, none⟩).1 =
        .error (.packageAdapterWithoutType "p") ∧
      ((enumerated .qname).classifyDeclaration ∅ ownerInPackage).1 =
        .error (.packageAdapterWithoutType "p") := by
  obtain ⟨hall, -, -⟩ := errors_of_classification (enumerated .uri)
  obtain ⟨-, hvisits, hmembers⟩ := errors_of_classification (enumerated .qname)
  have hempty := faithful_empty (enumerated .qname).graph
  have htable : (enumerated .qname).graph.adapterTable ownerInPackage.package =
      .error (.packageAdapterWithoutType "p") := by
    cbv
  have henumeration : (enumerated .qname).visit (.declared "Q" []) .plain ∅ =
      .error (.qnameEnumBase "Q" "QNAME") :=
    visit_of_bare (UseStack.not_blocks_empty _ _) (by cbv) (by cbv) (by cbv) .plain
  have hadapted : ((enumerated .qname).classifyMember ∅ ownerInPackage
      ⟨"adapted", .declared "B" [], none, some ⟨.declared "Q" [], none⟩⟩).1 =
        .error (.qnameEnumBase "Q" "QNAME") := by
    have hfound : (enumerated .qname).graph.adaptationAt
        ⟨some ⟨.declared "Q" [], none⟩, some ownerInPackage.package⟩ (.declared "B" []) =
          .ok (some ⟨.declared "Q" [], .member, .none⟩) := by
      cbv
    rw [classifyMember_eq hempty]
    exact (congrArg (Except.bind · _) hfound).trans henumeration
  have harray : ((enumerated .qname).classifyMember ∅ ownerInPackage
      ⟨"array", .array (.declared "B" []), none, none⟩).1 =
        .error (.packageAdapterWithoutType "p") := by
    refine ((hmembers ∅ hempty ownerInPackage _).2.1 _ htable).2 ⟨rfl, "B", rfl, ?_⟩
    exact fun declaration h => by cases h
  refine ⟨hall ?_ _ _ _, henumeration, hvisits _ _ _ _ henumeration, hadapted,
    (hmembers ∅ hempty ownerInPackage _).1 _ hadapted, harray, ?_⟩
  · intro name declaration info hdecl hkind hinfo
    have hget := OrderedMap.get?_insert OrderedMap.empty "Q" (enumeration .uri) name
    replace hget := hget.symm.trans hdecl
    split at hget
    · cases hget
      cases hinfo
      exact ⟨[], by cbv⟩
    · cases hget
  · refine (hmembers ∅ hempty ownerInPackage _).2.2.2 (.inr ⟨⟨.object, ?_⟩, [⟨"number",
      .primitive .int, none, none⟩], _, _, rfl, ?_, harray⟩)
    · exact visit_of_bare (UseStack.not_blocks_empty _ _) (by cbv) (by cbv) (by cbv) .plain
    · intro earlier hearlier
      cases List.mem_singleton.1 hearlier
      have hfound : (enumerated .qname).graph.adaptationAt
          ⟨none, some ownerInPackage.package⟩ (.primitive .int) = .ok none :=
        adaptationAt_undeclared rfl _
      refine ⟨.numeric .whole (some .int32), ?_⟩
      rw [classifyMember_eq hempty]
      exact (congrArg (Except.bind · _) hfound).trans (visit_primitive _ _ _ _)

end Classifier

end SchemaTyping
