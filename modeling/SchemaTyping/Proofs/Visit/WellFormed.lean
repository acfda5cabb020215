import SchemaTyping.Proofs.Guard.Below
import SchemaTyping.Proofs.Member.Tables
import SchemaTyping.Proofs.Model.Writes
import SchemaTyping.Proofs.Results
import SchemaTyping.Proofs.Visit.Layers

/-!
# Well-formed schema types

A schema type is well formed for a registry if all references in it lead to registered definitions
and all numbers in it have formats of their kind. Classification puts its results together from
primitive types, from what is known, from definitions, and from layers and maps around these; so it
comes to nothing but well-formed types if all that is known is well formed.
-/

namespace SchemaTyping

/-- The formats that numbers of a kind may have. -/
def NumberKind.formats : NumberKind → List NumberFormat
  | whole => [.int32, .int64]
  | number => [.float, .double]

namespace SchemaType

/-- Each reference names a registered definition, and each format is one of its kind of number. -/
def WellFormed (registry : Registry) : SchemaType → Prop
  | .numeric kind format => ∀ f ∈ format, f ∈ kind.formats
  | .string | .boolean | .object => True
  | .reference name => name ∈ registry.definitions
  | .array items => items.WellFormed registry
  | .map key value => key.WellFormed registry ∧ value.WellFormed registry

/-- Whether a schema type is well formed is decided part by part. -/
instance decidableWellFormed (registry : Registry) :
    (type : SchemaType) → Decidable (type.WellFormed registry)
  | .numeric kind none => isTrue nofun
  | .numeric kind (some format) =>
    decidable_of_iff (format ∈ kind.formats) (by simp [WellFormed])
  | .string | .boolean | .object => isTrue trivial
  | .reference name => inferInstanceAs (Decidable (name ∈ registry.definitions))
  | .array items => decidableWellFormed registry items
  | .map key value =>
    have := decidableWellFormed registry key
    have := decidableWellFormed registry value
    inferInstanceAs (Decidable (key.WellFormed registry ∧ value.WellFormed registry))

variable {registry : Registry} {type : SchemaType}

lemma wellFormed_wrap (context : Context) (h : type.WellFormed registry) :
    (context.wrap type).WellFormed registry := by
  rw [Context.wrap, wrapIf]
  split
  · exact h
  · exact h

lemma wellFormed_primitive (registry : Registry) (context : Context) (kind : PrimitiveKind) :
    (context.primitive kind).WellFormed registry := by
  rw [Context.primitive]
  split
  · trivial
  · apply wellFormed_wrap
    cases kind <;> simp [PrimitiveKind.schemaType, WellFormed, NumberKind.formats]

/-- More definitions leave a well-formed type well formed. -/
lemma WellFormed.mono {other : Registry} (h : type.WellFormed registry)
    (hdefinitions : ∀ name ∈ registry.definitions, name ∈ other.definitions) :
    type.WellFormed other := by
  induction type with
  | numeric kind format => exact h
  | string | boolean | object => trivial
  | reference name => exact hdefinitions name h
  | array items ih => exact ih h
  | map key value ihkey ihvalue => exact ⟨ihkey h.1, ihvalue h.2⟩

end SchemaType

/-! ### Registries -/

namespace Registry

variable {registry : Registry} {name : String} {type : SchemaType}

/-- A registry knows the type of a name, or else has a definition for it. -/
lemma lookup_eq_some_iff :
    registry.lookup name = some type ↔ registry.known? name = some type ∨
      registry.known? name = none ∧ name ∈ registry.definitions ∧ type = .reference name := by
  rw [lookup, definition?]
  cases registry.known? name with
  | some known => simp
  | none =>
    by_cases hname : name ∈ registry.definitions
    · simp [hname, eq_comm]
    · simp [hname]

/-- All that is known is well formed. -/
def WellFormed (registry : Registry) : Prop :=
  ∀ name type, registry.known? name = some type → type.WellFormed registry

/-- What a registry says about a name is well formed. -/
lemma WellFormed.lookup (h : registry.WellFormed) (hlookup : registry.lookup name = some type) :
    type.WellFormed registry := by
  rcases lookup_eq_some_iff.1 hlookup with hknown | ⟨-, hname, rfl⟩
  · exact h name type hknown
  · exact hname

/-- A model's registry is well formed if all that the model itself knows is, since the value classes
have no references in their types. -/
lemma wellFormed_ofModel {model : Model}
    (h : ∀ name type, model.known.get? name = some type → type.WellFormed (.ofModel model)) :
    (ofModel model).WellFormed := by
  have hbuiltins : ∀ entry ∈ builtinTypes, entry.2.WellFormed ∅ := by decide
  intro name type hknown
  rw [Registry.known?, ofModel, OrderedMap.get?_union, Option.or_eq_some_iff] at hknown
  rcases hknown with hown | ⟨-, hbuiltin⟩
  · exact h name type hown
  · rw [builtins, OrderedMap.get?_ofList] at hbuiltin
    have hentry : (name, type) ∈ builtinTypes :=
      List.mem_reverse.1 (OrderedMap.mem_of_read hbuiltin)
    exact (hbuiltins _ hentry).mono nofun

end Registry

/-! ### Classification -/

namespace Classifier

variable {classifier : Classifier} {tables : AdapterTables} {schema : SchemaType}

lemma wellFormed_cutShort (classifier : Classifier) (use : TypeUse) :
    (classifier.cutShort use).WellFormed classifier.registry := by
  rw [cutShort, SchemaType.wrapIf]
  split <;> trivial

lemma wellFormed_registered (h : classifier.registry.WellFormed) (name : String) :
    (classifier.registered name).WellFormed classifier.registry := by
  rw [registered]
  cases hlookup : classifier.registry.lookup name with
  | none => trivial
  | some type => exact h.lookup hlookup

lemma wellFormed_of_named (h : classifier.registry.WellFormed) {name : String}
    (hnamed : classifier.named name = .ok schema) : schema.WellFormed classifier.registry := by
  rw [named] at hnamed
  split at hnamed
  · cases hnamed
    exact wellFormed_registered h name
  · split at hnamed
    · cases hnamed
      trivial
    · obtain ⟨table, -, rfl⟩ := map_eq_ok_iff.1 hnamed
      trivial
    · cases hnamed
      exact wellFormed_registered h name

/-- All that a visit comes to is well formed. -/
lemma wellFormed_of_visit (h : classifier.registry.WellFormed) (type : TypeUse) (context : Context)
    (stack : UseStack) : ∀ schema, classifier.visit type context stack = .ok schema →
      schema.WellFormed classifier.registry := by
  induction type, context, stack using classifier.visit_induction
    (Q := fun replacements stack => ∀ schema,
      classifier.visitReplacements replacements stack = .ok (some schema) →
        schema.WellFormed classifier.registry) with
  | primitive kind context stack =>
    intro schema hvisit
    rw [visit_primitive] at hvisit
    cases hvisit
    exact SchemaType.wellFormed_primitive _ context kind
  | dimension inner context stack ih =>
    intro schema hvisit
    rw [visit_array_array] at hvisit
    obtain ⟨items, hitems, rfl⟩ := map_eq_ok_iff.1 hvisit
    exact ih items hitems
  | array component context stack hcomponent ih =>
    rw [visit_array classifier hcomponent]
    exact ih
  | varNone name context stack =>
    intro schema hvisit
    rw [visit_var_none] at hvisit
    cases hvisit
    exact SchemaType.wellFormed_wrap context trivial
  | wildcardNone context stack =>
    intro schema hvisit
    rw [visit_wildcard_none] at hvisit
    cases hvisit
    exact SchemaType.wellFormed_wrap context trivial
  | varSome name bound context stack ih =>
    intro schema hvisit
    rw [visit_var_some] at hvisit
    obtain ⟨inner, hinner, rfl⟩ := map_eq_ok_iff.1 hvisit
    exact SchemaType.wellFormed_wrap context (ih inner hinner)
  | wildcardSome bound context stack ih =>
    intro schema hvisit
    rw [visit_wildcard_some] at hvisit
    obtain ⟨inner, hinner, rfl⟩ := map_eq_ok_iff.1 hvisit
    exact SchemaType.wellFormed_wrap context (ih inner hinner)
  | cutShort name args context stack hblocks =>
    intro schema hvisit
    rw [visit_of_blocks classifier hblocks] at hvisit
    cases hvisit
    exact classifier.wellFormed_cutShort _
  | failed name args context stack error hpass hreplacements _ =>
    intro schema hvisit
    rw [visit_failed hpass hreplacements] at hvisit
    cases hvisit
  | replaced name args context stack type hpass hreplacements ih =>
    intro schema hvisit
    rw [visit_replaced hpass hreplacements] at hvisit
    cases hvisit
    exact SchemaType.wellFormed_wrap context (ih type hreplacements)
  | map name args context stack key value hpass hreplacements hentry _ ihkey ihvalue =>
    intro schema hvisit
    rw [visit_map hpass hreplacements hentry] at hvisit
    obtain ⟨keyType, hkey, hrest⟩ := bind_eq_ok_iff.1 hvisit
    obtain ⟨valueType, hvalue, hmap⟩ := bind_eq_ok_iff.1 hrest
    cases hmap
    exact SchemaType.wellFormed_wrap context ⟨ihkey keyType hkey, ihvalue valueType hvalue⟩
  | component name args context stack component hpass hreplacements hentry hcomponent _ ih =>
    rw [visit_component hpass hreplacements hentry hcomponent]
    exact ih
  | named name args context stack hpass hreplacements hentry hcomponent _ =>
    intro schema hvisit
    rw [visit_named hpass hreplacements hentry hcomponent] at hvisit
    obtain ⟨found, hnamed, rfl⟩ := map_eq_ok_iff.1 hvisit
    exact SchemaType.wellFormed_wrap context (wellFormed_of_named h hnamed)
  | nil stack schema hnil =>
    rw [visitReplacements_nil] at hnil
    cases hnil
  | unstructured rest stack ih schema hall =>
    rw [visitReplacements_unstructured] at hall
    obtain ⟨later, hrest, hlater⟩ := map_eq_ok_iff.1 hall
    cases later with
    | none =>
      cases hlater
      trivial
    | some stronger =>
      cases hlater
      exact ih stronger hrest
  | type use rest stack ihuse ihrest schema hall =>
    rw [visitReplacements_type] at hall
    obtain ⟨weaker, huse, hstronger⟩ := bind_eq_ok_iff.1 hall
    obtain ⟨later, hrest, hlater⟩ := bind_eq_ok_iff.1 hstronger
    cases later with
    | none =>
      cases hlater
      exact ihuse weaker huse
    | some stronger =>
      cases hlater
      exact ihrest stronger hrest

lemma wellFormed_of_classifyMember (h : classifier.registry.WellFormed) (owner : Declaration)
    (member : Member) (hmember : (classifier.classifyMember tables owner member).1 = .ok schema) :
    schema.WellFormed classifier.registry := by
  obtain ⟨found, -, hvisit⟩ := bind_eq_ok_iff.1 hmember
  cases found with
  | none => exact wellFormed_of_visit h _ _ _ _ hvisit
  | some adaptation => exact wellFormed_of_visit h _ _ _ _ hvisit

/-- Members are written one after the other, each with a well-formed type. -/
lemma wellFormed_of_classifyMembers (h : classifier.registry.WellFormed) (owner : Declaration)
    (members : List Member) {types made : OrderedMap SchemaType}
    (htypes : ∀ name type, types.get? name = some type → type.WellFormed classifier.registry)
    (hmembers : (classifier.classifyMembers owner tables members types).1 = .ok made) :
    ∀ name type, made.get? name = some type → type.WellFormed classifier.registry := by
  induction members generalizing tables types with
  | nil =>
    cases hmembers
    exact htypes
  | cons member rest ih =>
    rw [classifyMembers] at hmembers
    split at hmembers
    · cases hmembers
    · next type tables' hmember =>
      refine ih (fun name made hget => ?_) hmembers
      rw [OrderedMap.get?_insert] at hget
      split at hget
      · cases hget
        exact wellFormed_of_classifyMember h owner member (congrArg Prod.fst hmember)
      · exact htypes name made hget

lemma wellFormed_of_classifyDeclaration (h : classifier.registry.WellFormed)
    (declaration : Declaration) {made : DeclarationSchema}
    (hmade : (classifier.classifyDeclaration tables declaration).1 = .ok made) :
    made.type.WellFormed classifier.registry ∧
      ∀ name type, made.members.get? name = some type → type.WellFormed classifier.registry := by
  rw [classifyDeclaration] at hmade
  split at hmade
  · cases hmade
  · next type hown =>
    obtain ⟨members, hmembers, rfl⟩ := map_eq_ok_iff.1 hmade
    exact ⟨wellFormed_of_visit h _ _ _ _ hown,
      wellFormed_of_classifyMembers h declaration declaration.members
        (fun _ _ hget => by cases hget) hmembers⟩

/-- If all that a registry knows is well formed, then so is every type that classification comes to:
that of a use in any context and with any uses open, that of a member, and those of a declaration
and of its members. -/
theorem classified_wellFormed (classifier : Classifier) (h : classifier.registry.WellFormed) :
    (∀ type context stack schema, classifier.visit type context stack = .ok schema →
      schema.WellFormed classifier.registry) ∧
    (∀ tables owner member schema, (classifier.classifyMember tables owner member).1 = .ok schema →
      schema.WellFormed classifier.registry) ∧
    ∀ tables declaration made, (classifier.classifyDeclaration tables declaration).1 = .ok made →
      made.type.WellFormed classifier.registry ∧
        ∀ name type, made.members.get? name = some type →
          type.WellFormed classifier.registry :=
  ⟨wellFormed_of_visit h, fun _ owner member _ => wellFormed_of_classifyMember h owner member,
    fun _ declaration _ => wellFormed_of_classifyDeclaration h declaration⟩

/-- A class `D` has a definition, `K` is known as a map with values of that class, and `L` is a
list. -/
def knownMap : Model where
  declarations := ∅
  packages := ∅
  known := OrderedMap.empty.insert "K" (.map .string (.reference "D"))
  definitions := .ofList ["D"]
  settings := ⟨"O", .ofList ["L"], ∅, ∅⟩

/-- A class with a list of `K` as its member. -/
def holderOfKnown : Declaration :=
  { Declaration.bare "C" with members := [⟨"m", .declared "L" [.declared "K" []], none, none⟩] }

/-- A list of `K` is an array of maps, and `D` is registered. -/
theorem list_of_known_wellFormed :
    let schema : SchemaType := .array (.map .string (.reference "D"))
    let made : DeclarationSchema := ⟨"C", .object, OrderedMap.empty.insert "m" schema⟩
    (Registry.ofModel knownMap).WellFormed ∧
      knownMap.classifier.visit (.declared "L" [.declared "K" []]) .plain ∅ = .ok schema ∧
      schema.WellFormed (.ofModel knownMap) ∧
      (knownMap.classifier.classifyDeclaration ∅ holderOfKnown).1 = .ok made ∧
      made.type.WellFormed (.ofModel knownMap) ∧
      made.members.get? "m" = some schema := by
  intro schema made
  have hregistry : (Registry.ofModel knownMap).WellFormed := by
    refine Registry.wellFormed_ofModel fun name type hknown => ?_
    rw [knownMap, OrderedMap.get?_insert] at hknown
    split at hknown
    · cases hknown
      decide
    · cases hknown
  obtain ⟨hvisits, -, hdeclarations⟩ := classified_wellFormed knownMap.classifier hregistry
  have hundeclared (name : String) : knownMap.classifier.graph.declaration? name = none := rfl
  have hcomponent : knownMap.classifier.graph.component? (.declared "L" [.declared "K" []]) =
      some (.declared "K" []) :=
    TypeGraph.component?_of_isCollectionRoot rfl rfl
  have hlist : knownMap.classifier.visit (.declared "L" [.declared "K" []]) .plain ∅ =
      .ok schema := by
    have hentry := TypeGraph.keyValue?_of_undeclared (hundeclared "L") [.declared "K" []]
    rw [if_neg (by decide)] at hentry
    rw [visit_of_component (UseStack.not_blocks_empty _ _) rfl hentry hcomponent]
    exact visit_of_undeclared hundeclared (by decide) (by decide) (by decide) .collection
  have hmade : (knownMap.classifier.classifyDeclaration ∅ holderOfKnown).1 = .ok made := by
    have hown : knownMap.classifier.classify holderOfKnown.asType = .ok .object :=
      visit_of_undeclared hundeclared (UseStack.not_blocks_empty _ _) (by decide) (by decide)
        .plain
    have hfound : knownMap.classifier.graph.adaptationAt ⟨none, some holderOfKnown.package⟩
        (.declared "L" [.declared "K" []]) = .ok none := by
      have hgraph : knownMap.classifier.graph = ⟨∅, ∅, knownMap.settings⟩ := rfl
      rw [hgraph]
      cbv
    have hmember : (knownMap.classifier.classifyMember ∅ holderOfKnown
        ⟨"m", .declared "L" [.declared "K" []], none, none⟩).1 = .ok schema := by
      rw [classifyMember_eq (TypeGraph.faithful_empty _)]
      exact (congrArg (Except.bind · _) hfound).trans hlist
    rw [classifyDeclaration, hown, holderOfKnown, classifyMembers]
    rcases hresult : knownMap.classifier.classifyMember ∅ holderOfKnown
      ⟨"m", .declared "L" [.declared "K" []], none, none⟩ with ⟨result, tables⟩
    obtain rfl : result = .ok schema := (congrArg Prod.fst hresult).symm.trans hmember
    rw [holderOfKnown] at hresult
    dsimp only
    rw [hresult]
    rfl
  exact ⟨hregistry, hlist, hvisits _ _ _ _ hlist, hmade, (hdeclarations _ _ _ hmade).1, by decide⟩

end Classifier

end SchemaTyping
