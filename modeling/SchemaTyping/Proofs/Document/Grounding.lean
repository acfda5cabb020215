import Mathlib.Logic.Relation
import SchemaTyping.Document
import SchemaTyping.Proofs.Member.Sequences
import SchemaTyping.Proofs.Visit.References

/-!
# References between definitions

A definition may be nothing but a reference, which leads to another definition of its document or
out of it. Following references from a name either comes to an end or goes round in a cycle. A cycle
is a class that is registered and has no members, so that its definition is a reference to itself,
or all references in it are known types.
-/

namespace SchemaTyping

open Relation

/-! ### Ways to an end -/

section Ways

variable {α : Type} {r : α → α → Prop} {a b c : α}

/-- A way from one of finitely many sources to the next comes to its end or to a cycle. -/
lemma exists_last_or_cycle (sources : Finset α) (hsources : ∀ a b, r a b → a ∈ sources) (a : α) :
    (∃ last, ReflTransGen r a last ∧ ∀ next, ¬ r last next) ∨
      ∃ turn, ReflTransGen r a turn ∧ TransGen r turn turn := by
  classical
  -- a source that does not come back to itself is not reached from what comes after it
  induction hn : (sources.filter (ReflTransGen r a)).card using Nat.strong_induction_on
    generalizing a with
  | _ n ih =>
    by_cases hlast : ∀ next, ¬ r a next
    · exact .inl ⟨a, .refl, hlast⟩
    · obtain ⟨next, hstep⟩ := not_forall_not.1 hlast
      by_cases hturn : TransGen r a a
      · exact .inr ⟨a, .refl, hturn⟩
      · have hfewer : (sources.filter (ReflTransGen r next)).card < n := by
          rw [← hn]
          refine Finset.card_lt_card ((Finset.ssubset_iff_of_subset fun b hb => ?_).2 ⟨a, ?_, ?_⟩)
          · obtain ⟨hmem, hway⟩ := Finset.mem_filter.1 hb
            exact Finset.mem_filter.2 ⟨hmem, .head hstep hway⟩
          · exact Finset.mem_filter.2 ⟨hsources a next hstep, .refl⟩
          · exact fun hmem => hturn (.head' hstep (Finset.mem_filter.1 hmem).2)
        rcases ih _ hfewer next rfl with ⟨last, hway, hend⟩ | ⟨turn, hway, hcycle⟩
        · exact .inl ⟨last, .head hstep hway, hend⟩
        · exact .inr ⟨turn, .head hstep hway, hcycle⟩

/-- Where each step is determined, everything on the way from a cycle leads back to it. -/
lemma transGen_of_cycle (hunique : Relator.RightUnique r) (hcycle : TransGen r a a)
    (hway : ReflTransGen r a b) : TransGen r b a := by
  induction hway with
  | refl => exact hcycle
  | tail _ hstep ih =>
    obtain ⟨next, hnext, hback⟩ := TransGen.head'_iff.1 ih
    obtain rfl := hunique hnext hstep
    exact hcycle.trans_right hback

lemma not_cycle_of_last (hunique : Relator.RightUnique r) (hlast : ReflTransGen r a b)
    (hend : ∀ next, ¬ r b next) (hway : ReflTransGen r a c) : ¬ TransGen r c c := by
  intro hcycle
  have hback : TransGen r b b := by
    rcases hlast.total_of_right_unique hunique hway with hforth | hforth
    · rcases hforth.cases_head with rfl | ⟨next, hstep, -⟩
      · exact hcycle
      · exact absurd hstep (hend next)
    · exact (transGen_of_cycle hunique hcycle hforth).trans_left hforth
  obtain ⟨next, hstep, -⟩ := TransGen.head'_iff.1 hback
  exact hend next hstep

end Ways

/-! ### References -/

/-- What stands under `$ref` at the top of a schema. -/
def Json.ref? : Json → Option Json
  | .object members => members.lookup "$ref"
  | _ => none

/-- The definition of one name is a reference to another name. -/
def Refers (definitions : OrderedMap Json) (source target : String) : Prop :=
  ∃ schema, definitions.get? source = some schema ∧
    schema.ref? = some (.string (referencePath target))

/-- Following references from a name comes to a definition that is none, or out of the document. -/
def Grounded (definitions : OrderedMap Json) (name : String) : Prop :=
  ∃ last, ReflTransGen (Refers definitions) name last ∧
    ∀ schema, definitions.get? last = some schema → schema.ref? = none

lemma refers_rightUnique (definitions : OrderedMap Json) :
    Relator.RightUnique (Refers definitions) := by
  rintro source target other ⟨schema, hschema, href⟩ ⟨schema', hschema', href'⟩
  rw [hschema] at hschema'
  cases hschema'
  rw [href] at href'
  exact referencePath_injective (Json.string.inj (Option.some.inj href'))

namespace DeclarationSchema

/-- The name to which a definition refers that is nothing but a reference. -/
def reference? (declaration : DeclarationSchema) : Option String :=
  match declaration.members.entries, declaration.type with
  | [], .reference target => some target
  | _, _ => none

lemma reference?_eq_some_iff {declaration : DeclarationSchema} {target : String} :
    declaration.reference? = some target ↔
      declaration.members.entries = [] ∧ declaration.type = .reference target := by
  rw [reference?]
  split
  · next hmembers htype => simp [hmembers, htype]
  · next hnone =>
    refine ⟨nofun, fun ⟨hmembers, htype⟩ => ?_⟩
    exact absurd htype (hnone _ hmembers)

lemma ref?_definition (declaration : DeclarationSchema) :
    declaration.definition.ref? =
      declaration.reference?.map fun target => .string (referencePath target) := by
  obtain ⟨name, type, ⟨entries, hkeys⟩⟩ := declaration
  rw [definition, Json.ref?, bodyMembers, reference?]
  cases entries with
  | cons entry rest => simp
  | nil =>
    cases type with
    | numeric kind format =>
      cases format <;> simp [SchemaType.schemaMembers, Json.memberOf?]
    | map key value =>
      cases hkey : key.keyPattern? <;> simp [SchemaType.schemaMembers, Json.memberOf?, hkey]
    | _ => simp [SchemaType.schemaMembers]

end DeclarationSchema

/-- The last of some declarations that has a name. -/
def lastNamed? (schemas : List DeclarationSchema) (name : String) : Option DeclarationSchema :=
  schemas.reverse.find? (·.name = name)

lemma mem_of_lastNamed? {schemas : List DeclarationSchema} {name : String}
    {schema : DeclarationSchema} (h : lastNamed? schemas name = some schema) :
    schema ∈ schemas ∧ schema.name = name := by
  rw [lastNamed?] at h
  have hname := List.find?_some h
  exact ⟨List.mem_reverse.1 (List.mem_of_find?_eq_some h), of_decide_eq_true hname⟩

/-- The last declaration of a name makes its definition. -/
lemma get?_definitionsOf (schemas : List DeclarationSchema) (name : String) :
    (definitionsOf schemas).get? name =
      (lastNamed? schemas name).map DeclarationSchema.definition := by
  rw [definitionsOf, OrderedMap.get?_ofList, ← List.map_reverse, OrderedMap.read_map, lastNamed?]

lemma refers_definitionsOf_iff {schemas : List DeclarationSchema} {source target : String} :
    Refers (definitionsOf schemas) source target ↔
      ∃ schema, lastNamed? schemas source = some schema ∧ schema.members.entries = [] ∧
        schema.type = .reference target := by
  rw [Refers, get?_definitionsOf]
  constructor
  · rintro ⟨_, hschema, href⟩
    obtain ⟨schema, hlast, rfl⟩ := Option.map_eq_some_iff.1 hschema
    rw [schema.ref?_definition] at href
    obtain ⟨other, hother, hpath⟩ := Option.map_eq_some_iff.1 href
    obtain rfl := referencePath_injective (Json.string.inj hpath)
    exact ⟨schema, hlast, DeclarationSchema.reference?_eq_some_iff.1 hother⟩
  · rintro ⟨schema, hlast, hschema⟩
    refine ⟨schema.definition, by rw [hlast]; rfl, ?_⟩
    rw [schema.ref?_definition, DeclarationSchema.reference?_eq_some_iff.2 hschema]
    rfl

/-- The way from a name ends where its definition refers to no other. -/
lemma grounded_iff_exists_last {schemas : List DeclarationSchema} {name : String} :
    Grounded (definitionsOf schemas) name ↔
      ∃ last, ReflTransGen (Refers (definitionsOf schemas)) name last ∧
        ∀ target, ¬ Refers (definitionsOf schemas) last target := by
  refine exists_congr fun last => and_congr_right fun _ => ⟨?_, ?_⟩
  · rintro hend target ⟨schema, hschema, href⟩
    rw [hend schema hschema] at href
    cases href
  · intro hend schema hschema
    by_contra href
    obtain ⟨found, hlast, rfl⟩ : ∃ found, lastNamed? schemas last = some found ∧
        found.definition = schema := by
      rwa [get?_definitionsOf, Option.map_eq_some_iff] at hschema
    rw [found.ref?_definition, Option.map_eq_none_iff, ← Ne, Option.ne_none_iff_exists'] at href
    obtain ⟨target, htarget⟩ := href
    exact hend target (refers_definitionsOf_iff.2
      ⟨found, hlast, DeclarationSchema.reference?_eq_some_iff.1 htarget⟩)

/-- References from a name come to an end unless they come to a cycle. -/
theorem grounded_iff {schemas : List DeclarationSchema} {name : String} :
    Grounded (definitionsOf schemas) name ↔
      ∀ other, ReflTransGen (Refers (definitionsOf schemas)) name other →
        ¬ TransGen (Refers (definitionsOf schemas)) other other := by
  rw [grounded_iff_exists_last]
  constructor
  · rintro ⟨last, hway, hend⟩ other hother
    exact not_cycle_of_last (refers_rightUnique _) hway hend hother
  · intro hacyclic
    have hsources (source target : String) (h : Refers (definitionsOf schemas) source target) :
        source ∈ (definitionsOf schemas).keys.toFinset := by
      obtain ⟨schema, hschema, -⟩ := h
      exact List.mem_toFinset.2 (List.mem_map_of_mem (OrderedMap.mem_entries_of_get? hschema))
    refine (exists_last_or_cycle _ hsources name).resolve_right ?_
    rintro ⟨turn, hway, hcycle⟩
    exact hacyclic turn hway hcycle

/-! ### References of classified declarations -/

lemma OrderedMap.write_ne_nil {α : Type} (key : String) (value : α)
    (entries : List (String × α)) : write key value entries ≠ [] := by
  cases entries with
  | nil => exact List.cons_ne_nil _ _
  | cons entry rest =>
    rw [write]
    split <;> exact List.cons_ne_nil _ _

namespace Classifier

variable {classifier : Classifier} {roots : List Declaration} {schema : DeclarationSchema}

lemma mem_classifiedAlone_iff :
    schema ∈ classifier.classifiedAlone roots ↔
      ∃ root ∈ roots, (classifier.classifyDeclaration ∅ root).1 = .ok schema := by
  rw [classifiedAlone, List.mem_filterMap]
  refine exists_congr fun root => and_congr_right fun _ => ?_
  cases (classifier.classifyDeclaration ∅ root).1 <;> simp [Except.toOption]

/-- There are types of members if and only if there are members. -/
lemma entries_classifyMembers_eq_nil_iff {owner : Declaration} {members : List Member}
    {tables : AdapterTables} {types made : OrderedMap SchemaType}
    (h : (classifier.classifyMembers owner tables members types).1 = .ok made) :
    made.entries = [] ↔ members = [] ∧ types.entries = [] := by
  induction members generalizing tables types with
  | nil =>
    cases h
    simp
  | cons member rest ih =>
    rw [classifyMembers] at h
    split at h
    · cases h
    · rw [ih h, OrderedMap.entries_insert]
      simp [OrderedMap.write_ne_nil]

/-- The schema of a root has its name and its own type, and members if and only if it has any. -/
lemma exists_root_of_mem (h : schema ∈ classifier.classifiedAlone roots) :
    ∃ root ∈ roots, root.name = schema.name ∧ classifier.classify root.asType = .ok schema.type ∧
      (schema.members.entries = [] ↔ root.members = []) := by
  obtain ⟨root, hroot, hschema⟩ := mem_classifiedAlone_iff.1 h
  rw [classifyDeclaration] at hschema
  split at hschema
  · cases hschema
  · next type hown =>
    obtain ⟨members, hmembers, rfl⟩ := map_eq_ok_iff.1 hschema
    refine ⟨root, hroot, rfl, hown, ?_⟩
    rw [entries_classifyMembers_eq_nil_iff hmembers]
    exact and_iff_left rfl

/-- What the definitions of roots refer to is what these are classified as. -/
lemma exists_root_of_refers {source target : String}
    (h : Refers (definitionsOf (classifier.classifiedAlone roots)) source target) :
    ∃ root ∈ roots, root.name = source ∧ root.members = [] ∧
      classifier.classify root.asType = .ok (.reference target) := by
  obtain ⟨schema, hlast, hmembers, htype⟩ := refers_definitionsOf_iff.1 h
  obtain ⟨hmem, rfl⟩ := mem_of_lastNamed? hlast
  obtain ⟨root, hroot, hname, hown, hnone⟩ := exists_root_of_mem hmem
  exact ⟨root, hroot, hname, hnone.1 hmembers, htype ▸ hown⟩

/-- Some use of a name is classified as the reference to the definition of the name. -/
structure HasOwnReference (classifier : Classifier) (name : String) : Prop where
  registered : name ∈ classifier.registry.definitions
  unknown : classifier.registry.known? name = none
  bare : ∃ args, classifier.Bare name args
  named : classifier.named name = .ok (.reference name)

/-- A reference is a known type, or leads to a class that some use refers to by its own name. -/
lemma known_or_hasOwnReference_of_refers {source target : String}
    (h : Refers (definitionsOf (classifier.classifiedAlone roots)) source target) :
    (∃ known, classifier.registry.known? known = some (.reference target)) ∨
      classifier.HasOwnReference target := by
  obtain ⟨root, -, -, -, hown⟩ := exists_root_of_refers h
  obtain ⟨-, name, args, hbare, hnamed⟩ := exists_bare_of_visit _ _ _ target hown
  rcases reference_of_named hnamed with hknown | ⟨hunknown, hregistered, rfl⟩
  · exact .inl ⟨name, hknown⟩
  · exact .inr ⟨hregistered, hunknown, ⟨args, hbare⟩, hnamed⟩

/-- Such a class refers to nothing but itself. -/
lemma HasOwnReference.eq_of_refers {name target : String} (h : classifier.HasOwnReference name)
    (hrefers : Refers (definitionsOf (classifier.classifiedAlone roots)) name target) :
    target = name := by
  obtain ⟨root, -, rfl, -, hown⟩ := exists_root_of_refers hrefers
  obtain ⟨args, hbare⟩ := h.bare
  exact hbare.eq_of_classify h.named hown

lemma HasOwnReference.eq_of_way {name target : String} (h : classifier.HasOwnReference name)
    (hway : ReflTransGen (Refers (definitionsOf (classifier.classifiedAlone roots))) name target) :
    target = name := by
  induction hway with
  | refl => rfl
  | tail _ hstep ih =>
    subst ih
    exact h.eq_of_refers hstep

/-- A cycle is a registered class that refers to itself, or consists of known types. -/
lemma cycle_cases {name : String}
    (hcycle : TransGen (Refers (definitionsOf (classifier.classifiedAlone roots))) name name) :
    (Refers (definitionsOf (classifier.classifiedAlone roots)) name name ∧
        name ∈ classifier.registry.definitions ∧ classifier.registry.known? name = none) ∨
      ∀ source target,
        ReflTransGen (Refers (definitionsOf (classifier.classifiedAlone roots))) name source →
        Refers (definitionsOf (classifier.classifiedAlone roots)) source target →
          ∃ known, classifier.registry.known? known = some (.reference target) := by
  by_contra hneither
  rw [not_or] at hneither
  obtain ⟨hself, hother⟩ := hneither
  refine hother fun source target hway hstep => ?_
  refine (known_or_hasOwnReference_of_refers hstep).resolve_right fun hown => hself ?_
  -- the cycle comes back from the target, which leads to nothing but itself
  have hback := transGen_of_cycle (refers_rightUnique _) hcycle (hway.tail hstep)
  obtain rfl := hown.eq_of_way hback.to_reflTransGen
  obtain ⟨next, hnext, -⟩ := TransGen.head'_iff.1 hback
  obtain rfl := hown.eq_of_refers hnext
  exact ⟨hnext, hown.registered, hown.unknown⟩

/-- In the document of classified declarations, a definition refers to another name if its last
declaration has no members and its own type is that reference. From each name, references come to an
end if and only if they do not come to a cycle; and a cycle is a class that is registered and refers
to itself, or all references in it are known types. So where no known type is a reference and all
registered classes have members, all references come to an end. -/
theorem references_grounded_iff_acyclic (classifier : Classifier) (roots : List Declaration) :
    let schemas := classifier.classifiedAlone roots
    let refers := Refers (definitionsOf schemas)
    (∀ source target, refers source target ↔
      ∃ schema, lastNamed? schemas source = some schema ∧ schema.members.entries = [] ∧
        schema.type = .reference target) ∧
    (∀ name, Grounded (definitionsOf schemas) name ↔
      ∀ other, ReflTransGen refers name other → ¬ TransGen refers other other) ∧
    (∀ name, TransGen refers name name →
      (refers name name ∧ name ∈ classifier.registry.definitions ∧
          classifier.registry.known? name = none) ∨
        ∀ source target, ReflTransGen refers name source → refers source target →
          ∃ known, classifier.registry.known? known = some (.reference target)) ∧
    ((∀ known target, classifier.registry.known? known ≠ some (.reference target)) →
      (∀ root ∈ roots, root.name ∈ classifier.registry.definitions → root.members ≠ []) →
        ∀ name, Grounded (definitionsOf schemas) name) := by
  refine ⟨fun source target => refers_definitionsOf_iff, fun name => grounded_iff,
    fun name => cycle_cases, fun hknown hmembers name => ?_⟩
  refine grounded_iff.2 fun other _ hcycle => ?_
  rcases cycle_cases hcycle with ⟨hself, hregistered, -⟩ | hall
  · obtain ⟨root, hroot, rfl, hnone, -⟩ := exists_root_of_refers hself
    exact hmembers root hroot hregistered hnone
  · obtain ⟨next, hstep, -⟩ := TransGen.head'_iff.1 hcycle
    obtain ⟨known, hreference⟩ := hall other next .refl hstep
    exact hknown known next hreference

/-- A class `B` with a definition, and a class `A` that is hinted to be `B`. -/
def hintedToRegistered : Classifier where
  graph :=
    { declarations := OrderedMap.empty.insert "A"
        { Declaration.bare "A" with typeHint := some (.declared "B" []) }
      packages := ∅
      settings := ⟨"O", ∅, ∅, ∅⟩ }
  registry := Registry.empty.define "B"

/-- The class with the definition has a number as its member. -/
def classWithMember : Declaration :=
  { Declaration.bare "B" with members := [⟨"m", .primitive .int, none, none⟩] }

/-- The definition of `A` refers to that of `B`, which has members and is the end of the way. -/
theorem reference_to_members_grounded :
    let roots := [.bare "A", classWithMember]
    let definitions := definitionsOf (hintedToRegistered.classifiedAlone roots)
    (∀ known target, hintedToRegistered.registry.known? known ≠ some (.reference target)) ∧
      (∀ root ∈ roots, root.name ∈ hintedToRegistered.registry.definitions →
        root.members ≠ []) ∧
      Refers definitions "A" "B" ∧ Grounded definitions "A" := by
  intro roots definitions
  obtain ⟨hrefers, -, -, hgrounded⟩ := references_grounded_iff_acyclic hintedToRegistered roots
  have hknown : ∀ known target,
      hintedToRegistered.registry.known? known ≠ some (.reference target) := nofun
  have hmembers : ∀ root ∈ roots, root.name ∈ hintedToRegistered.registry.definitions →
      root.members ≠ [] := by
    decide
  have htarget (stack : UseStack) (hpass : ¬ stack.blocks "B" (.declared "B" [])) :
      hintedToRegistered.visit (.declared "B" []) .plain stack = .ok (.reference "B") :=
    visit_of_bare hpass (by cbv) (by cbv) (by cbv) .plain
  have hhinted : hintedToRegistered.classify (Declaration.bare "A").asType =
      .ok (.reference "B") := by
    have hhint : hintedToRegistered.replacements "A" (.declared "A" []) =
        [] ++ [.type (.declared "B" [])] := rfl
    refine (visit_of_replaced (UseStack.not_blocks_empty _ _) hhint (visitReplacements_nil _ _)
      .plain).trans ?_
    rw [htarget _ (by decide)]
    rfl
  have hregistered : hintedToRegistered.classify classWithMember.asType = .ok (.reference "B") :=
    htarget ∅ (UseStack.not_blocks_empty _ _)
  have hschemas : hintedToRegistered.classifiedAlone roots =
      [⟨"A", .reference "B", ∅⟩,
        ⟨"B", .reference "B", OrderedMap.empty.insert "m" (.numeric .whole (some .int32))⟩] := by
    rw [classifiedAlone, List.filterMap_cons, List.filterMap_cons, classifyDeclaration,
      classifyDeclaration, hhinted, hregistered]
    cbv
  refine ⟨hknown, hmembers, (hrefers "A" "B").2 ⟨⟨"A", .reference "B", ∅⟩, ?_, rfl, rfl⟩,
    hgrounded hknown hmembers "A"⟩
  rw [hschemas]
  rfl

/-- A class `A` is registered, and nothing else is said about it. -/
def registeredClass : Model where
  declarations := ∅
  packages := ∅
  known := ∅
  definitions := .ofList ["A"]
  settings := ⟨"O", ∅, ∅, ∅⟩

/-- A registered class without members has a definition that is nothing but a reference to
itself. -/
theorem registered_class_refers_to_itself :
    let definitions := definitionsOf (registeredClass.classifier.classifiedAlone [.bare "A"])
    definitions.get? "A" =
        some (.object [("$ref", .string "#/definitions/A"), ("title", .string "A")]) ∧
      Refers definitions "A" "A" ∧ ¬ Grounded definitions "A" := by
  intro definitions
  have hown : registeredClass.classifier.classify (Declaration.bare "A").asType =
      .ok (.reference "A") :=
    visit_of_undeclared (fun _ => rfl) (UseStack.not_blocks_empty _ _) (by decide) (by decide)
      .plain
  have hschemas : registeredClass.classifier.classifiedAlone [.bare "A"] =
      [⟨"A", .reference "A", ∅⟩] := by
    rw [classifiedAlone, List.filterMap_cons, classifyDeclaration, hown]
    rfl
  have hself : Refers definitions "A" "A" :=
    refers_definitionsOf_iff.2 ⟨⟨"A", .reference "A", ∅⟩, by rw [hschemas]; rfl, rfl, rfl⟩
  refine ⟨?_, hself, fun hgrounded => ?_⟩
  · show (definitionsOf _).get? "A" = _
    rw [hschemas, get?_definitionsOf]
    rfl
  · exact grounded_iff.1 hgrounded "A" .refl (.single hself)

end Classifier

end SchemaTyping
