import Mathlib.Data.List.Nodup
import SchemaTyping.Document
import SchemaTyping.Proofs.Model.Writes

/-!
# What a schema tells

The schema of a type tells everything about the type but the keys of its maps. Of a key it tells the
kind of number that it is, if it is a number, and nothing else. So two types have equal schemas if
and only if they are equal once every key is replaced by its kind. Schemas are compared as values:
the order in which the members of an object are listed does not count.
-/

namespace SchemaTyping

/-! ### Equal values -/

namespace Json

open OrderedMap

/-- Trees that are equal as values. The members of an object, of which no two have the same key, may
be listed in any order. -/
inductive Same : Json → Json → Prop where
  | null : Same .null .null
  | bool (value : Bool) : Same (.bool value) (.bool value)
  | number (text : String) : Same (.number text) (.number text)
  | string (text : String) : Same (.string text) (.string text)
  | array {items others : List Json} (hlength : items.length = others.length)
    (hitems : ∀ i (h : i < items.length) (h' : i < others.length), Same items[i] others[i]) :
    Same (.array items) (.array others)
  | object {members others : List (String × Json)}
    (hkeys : (members.map Prod.fst).Perm (others.map Prod.fst))
    (hvalues : ∀ key value other, (key, value) ∈ members → (key, other) ∈ others →
      Same value other) : Same (.object members) (.object others)

variable {members others : List (String × Json)}

lemma Same.symm {tree other : Json} (h : tree.Same other) : other.Same tree := by
  induction h with
  | null => exact .null
  | bool value => exact .bool value
  | number text => exact .number text
  | string text => exact .string text
  | array hlength _ ih => exact .array hlength.symm fun i h h' => ih i h' h
  | object hkeys _ ih =>
    exact .object hkeys.symm fun key value other hvalue hother => ih key other value hother hvalue

lemma Same.eq_of_string {text other : String} (h : Same (.string text) (.string other)) :
    text = other := by
  cases h
  rfl

/-- What one object has under a key, an equal one has as well. -/
lemma Same.exists_read (h : Same (.object members) (.object others)) (key : String) {value : Json}
    (hvalue : OrderedMap.read key members = some value) :
    ∃ other, OrderedMap.read key others = some other ∧ value.Same other := by
  cases h with
  | object hkeys hvalues =>
    have hmem := mem_of_read hvalue
    have hkey : key ∈ others.map Prod.fst := hkeys.mem_iff.1 (List.mem_map_of_mem hmem)
    obtain ⟨other, hother⟩ := Option.ne_none_iff_exists'.1 (mt read_eq_none_iff.1 (not_not.2 hkey))
    exact ⟨other, hother, hvalues key value other hmem (mem_of_read hother)⟩

/-- Equal objects have the same under a key if what is written there can be told from its value. -/
lemma Same.written_eq {α : Type} {encode : α → Json}
    (hencode : ∀ {a b}, (encode a).Same (encode b) → a = b)
    (h : Same (.object members) (.object others)) (key : String) {value other : Option α}
    (hvalue : OrderedMap.read key members = value.map encode)
    (hother : OrderedMap.read key others = other.map encode) : value = other := by
  cases value with
  | none =>
    cases other with
    | none => rfl
    | some b =>
      obtain ⟨tree, htree, -⟩ := h.symm.exists_read key hother
      rw [hvalue] at htree
      cases htree
  | some a =>
    obtain ⟨tree, htree, hsame⟩ := h.exists_read key hvalue
    obtain ⟨b, rfl, rfl⟩ := Option.map_eq_some_iff.1 (hother.symm.trans htree)
    rw [hencode hsame]

/-- An object is equal to itself if no key is listed twice and all values are. -/
lemma same_object (hkeys : (members.map Prod.fst).Nodup)
    (hvalues : ∀ member ∈ members, member.2.Same member.2) :
    Same (.object members) (.object members) := by
  refine .object (.refl _) fun key value other hvalue hother => ?_
  cases List.inj_on_of_nodup_map hkeys hvalue hother rfl
  exact hvalues _ hvalue

@[simp] lemma read_memberOf? {α : Type} (key keyword : String) (encode : α → Json)
    (value : Option α) :
    OrderedMap.read key (memberOf? keyword encode value) =
      if keyword = key then value.map encode else none := by
  cases value <;> simp [memberOf?, OrderedMap.read]

end Json

namespace SchemaType

open Json OrderedMap

/-! ### Kinds of keys -/

/-- What stands for a key of a map: a number of its kind, or text for any other key. -/
def keyKind : SchemaType → SchemaType
  | .numeric kind _ => .numeric kind none
  | _ => .string

/-- A type with every key of a map replaced by its kind. -/
def withKeyKinds : SchemaType → SchemaType
  | .array items => .array items.withKeyKinds
  | .map key value => .map key.keyKind value.withKeyKinds
  | type => type

lemma keyPattern?_keyKind (key : SchemaType) : key.keyKind.keyPattern? = key.keyPattern? := by
  cases key with
  | numeric kind format => cases kind <;> rfl
  | _ => rfl

/-- The pattern of a key tells its kind and no more. -/
lemma keyPattern?_eq_iff {key other : SchemaType} :
    key.keyPattern? = other.keyPattern? ↔ key.keyKind = other.keyKind := by
  constructor
  · intro h
    cases key with
    | numeric kind _ =>
      cases other with
      | numeric kind' _ => cases kind <;> cases kind' <;> simp_all [keyPattern?, keyKind]
      | _ => cases kind <;> simp [keyPattern?] at h
    | _ =>
      cases other with
      | numeric kind' _ => cases kind' <;> simp [keyPattern?] at h
      | _ => rfl
  · intro h
    rw [← keyPattern?_keyKind key, h, keyPattern?_keyKind]

/-- The kinds of the keys are enough to write the schema. -/
lemma schemaMembers_withKeyKinds (type : SchemaType) :
    type.withKeyKinds.schemaMembers = type.schemaMembers := by
  induction type with
  | array items ih => simp only [withKeyKinds, schemaMembers, ih]
  | map key value _ ih => simp only [withKeyKinds, schemaMembers, ih, keyPattern?_keyKind]
  | numeric | string | boolean | object | reference => rfl

/-! ### Words of schemas -/

/-- The word that the schema of a type has for its sort. -/
def word? : SchemaType → Option String
  | .numeric kind _ => some (numberWord kind)
  | .string => some "string"
  | .boolean => some "boolean"
  | .object | .map _ _ => some "object"
  | .array _ => some "array"
  | .reference _ => none

lemma read_word (type : SchemaType) :
    OrderedMap.read "type" type.schemaMembers = type.word?.map .string := by
  cases type <;> simp [schemaMembers, word?, OrderedMap.read]

lemma not_numberWord (kind : NumberKind) :
    "string" ≠ numberWord kind ∧ "boolean" ≠ numberWord kind ∧ "object" ≠ numberWord kind ∧
      "array" ≠ numberWord kind := by
  cases kind <;> decide

lemma numberWord_injective : Function.Injective numberWord := by
  intro kind other h
  cases kind <;> cases other <;> simp_all [numberWord]

lemma formatName_injective : Function.Injective NumberFormat.name := by
  intro format other h
  cases format <;> cases other <;> simp_all [NumberFormat.name]

lemma same_pattern (pattern : String) :
    Same (.object [("pattern", .string pattern)]) (.object [("pattern", .string pattern)]) := by
  apply same_object <;> simp [Same.string]

lemma pattern_injective {pattern other : String}
    (h : Same (.object [("pattern", .string pattern)]) (.object [("pattern", .string other)])) :
    pattern = other := by
  obtain ⟨value, hvalue, hsame⟩ := h.exists_read "pattern" rfl
  cases hvalue
  exact hsame.eq_of_string

/-! ### Schemas -/

/-- The schema of a type is equal to itself: it lists no key twice. -/
lemma same_schema (type : SchemaType) : type.schema.Same type.schema := by
  induction type with
  | numeric kind format =>
    cases format <;> apply same_object <;> simp [schemaMembers, memberOf?, Same.string]
  | string | boolean | object | reference =>
    apply same_object <;> simp [schemaMembers, Same.string]
  | array items ih =>
    rw [schema] at ih
    apply same_object <;> simp [schemaMembers, Same.string, ih]
  | map key value _ ih =>
    rw [schema] at ih
    cases h : key.keyPattern? <;> apply same_object <;>
      simp [schemaMembers, memberOf?, h, Same.string, ih, same_pattern]

lemma word?_eq_of_same {type other : SchemaType} (h : type.schema.Same other.schema) :
    type.word? = other.word? :=
  h.written_eq Same.eq_of_string "type" type.read_word other.read_word

/-- Types with equal schemas differ at most in what the keys are beyond their kinds. -/
lemma withKeyKinds_eq_of_same {type other : SchemaType} (h : type.schema.Same other.schema) :
    type.withKeyKinds = other.withKeyKinds := by
  -- the word leaves no choice, except between objects and maps
  have hword := word?_eq_of_same h
  induction type generalizing other with
  | numeric kind format =>
    cases other with
    | numeric kind' format' =>
      rw [numberWord_injective (Option.some.inj hword)]
      have hformat : format = format' :=
        h.written_eq (fun hsame => formatName_injective hsame.eq_of_string) "format"
          (by simp [schemaMembers, OrderedMap.read]) (by simp [schemaMembers, OrderedMap.read])
      rw [hformat]
    | _ => cases kind <;> simp [word?, numberWord] at hword
  | string =>
    cases other with
    | string => rfl
    | _ => simp [word?, not_numberWord] at hword
  | boolean =>
    cases other with
    | boolean => rfl
    | _ => simp [word?, not_numberWord] at hword
  | object =>
    cases other with
    | object => rfl
    | map key' value' =>
      -- a map has the word of an object, and in addition a schema for its values
      obtain ⟨value, hvalue, -⟩ := h.symm.exists_read "additionalProperties" rfl
      cases hvalue
    | _ => simp [word?, not_numberWord] at hword
  | reference name =>
    cases other with
    | reference name' =>
      obtain ⟨path, hpath, hsame⟩ := h.exists_read "$ref" rfl
      cases hpath
      rw [referencePath_injective hsame.eq_of_string]
    | _ => simp [word?] at hword
  | array items ih =>
    cases other with
    | array items' =>
      obtain ⟨value, hvalue, hsame⟩ := h.exists_read "items" rfl
      cases hvalue
      rw [withKeyKinds, withKeyKinds, ih hsame (word?_eq_of_same hsame)]
    | _ => simp [word?, not_numberWord] at hword
  | map key value _ ih =>
    cases other with
    | map key' value' =>
      obtain ⟨tree, htree, hsame⟩ := h.exists_read "additionalProperties" rfl
      cases htree
      have hkey : key.keyPattern? = key'.keyPattern? :=
        h.written_eq pattern_injective "propertyNames"
          (by simp [schemaMembers, OrderedMap.read]) (by simp [schemaMembers, OrderedMap.read])
      rw [withKeyKinds, withKeyKinds, ih hsame (word?_eq_of_same hsame),
        keyPattern?_eq_iff.1 hkey]
    | object =>
      obtain ⟨tree, htree, -⟩ := h.exists_read "additionalProperties" rfl
      cases htree
    | _ => simp [word?, not_numberWord] at hword

/-- Two types have equal schemas if and only if they are equal up to the kinds of their keys, and
schemas that are equal up to the order of members are equal in that order as well. -/
theorem schema_same_iff (type other : SchemaType) :
    (type.schema.Same other.schema ↔ type.withKeyKinds = other.withKeyKinds) ∧
      (type.schema = other.schema ↔ type.withKeyKinds = other.withKeyKinds) := by
  have heq (h : type.withKeyKinds = other.withKeyKinds) : type.schema = other.schema := by
    rw [schema, schema, ← schemaMembers_withKeyKinds type, h, schemaMembers_withKeyKinds]
  refine ⟨⟨withKeyKinds_eq_of_same, fun h => ?_⟩, ⟨fun h => withKeyKinds_eq_of_same ?_, heq⟩⟩
  · exact heq h ▸ same_schema type
  · exact h ▸ same_schema type

/-- A key that is no number is not told. -/
example : (map .boolean .object).schema = (map (.reference "acme.Key") .object).schema := rfl

end SchemaType

end SchemaTyping
