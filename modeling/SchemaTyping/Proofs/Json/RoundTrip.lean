import SchemaTyping.Declaration.Json
import SchemaTyping.Proofs.Json.Records
import SchemaTyping.Proofs.Model.Writes
import SchemaTyping.SchemaType.Json
import SchemaTyping.Settings

/-!
# Types, declarations and settings read back

Decoding the JSON of a value gives the value. For the recursive types this is an induction on the
value, and for a record it is shown field by field: a field that is left out has the value with
which the decoder starts.
-/

namespace SchemaTyping

open Decoded Json JsonSource

/-! ### Type uses -/

namespace TypeUse

lemma toJson_declared (name : String) (args : List TypeUse) :
    (declared name args).toJson = .object [("declared",
      .object (("name", .string name) :: memberOfList "args" toJson args))] := by
  cases args with
  | nil => simp [toJson, memberOfList]
  | cons arg rest => simp [toJson, memberOfList, toJsonArgs_eq_map]

lemma toJson_var (name : String) (bound : Option TypeUse) :
    (var name bound).toJson = .object [("var",
      .object (("name", .string name) :: memberOf? "bound" toJson bound))] := by
  cases bound <;> simp [toJson, memberOf?]

lemma toJson_wildcard (bound : Option TypeUse) :
    (wildcard bound).toJson =
      .object [("wildcard", .object (memberOf? "extends" toJson bound))] := by
  cases bound <;> simp [toJson, memberOf?]

lemma source_toJson_ne_null (type : TypeUse) : type.toJson.source ≠ .null := by
  cases type with
  | declared name args =>
    rw [toJson_declared]
    exact source_object_ne_null _
  | var name bound =>
    rw [toJson_var]
    exact source_object_ne_null _
  | wildcard bound =>
    rw [toJson_wildcard]
    exact source_object_ne_null _
  | _ =>
    rw [toJson]
    exact source_object_ne_null _

lemma optionalBelow_source {size : Nat} {type : TypeUse}
    {read : (tree : JsonSource) → sizeOf tree < size → Decoded TypeUse}
    (h : sizeOf type.toJson.source < size) (hread : read type.toJson.source h = .ok type) :
    optionalBelow read type.toJson.source h = .ok (some type) := by
  have hnull := type.source_toJson_ne_null
  unfold optionalBelow
  split
  · next heq _ => exact absurd heq hnull
  · rw [hread]
    rfl

/-- A type use is read back. -/
theorem decode_toJson (type : TypeUse) : decode type.toJson.source = .ok type := by
  -- the decoder bounds the size of each part, and the hypotheses hold for any bound
  induction type with
  | primitive kind =>
    rw [toJson, source_tagged, decode]
    refine asTagged_of_lookup (rfl : TypeForm.choices.lookup "primitive" = some .primitive) ?_
    cases kind <;> rfl
  | declared name args ih =>
    rw [toJson_declared, source_tagged, decode]
    refine asTagged_of_lookup (rfl : TypeForm.choices.lookup "declared" = some .declared) ?_
    refine bind_eq_ok_iff.2 ⟨(name, args), asRecord_of_entered (by simp [field]) ?_, rfl⟩
    refine .value rfl ?_
    cases args with
    | nil => exact .absent rfl (.nil _)
    | cons arg rest =>
      refine .present (fun h => ?_) (.nil _)
      exact map_eq_ok_iff.2 ⟨_, asListBelow_source (fun other hother _ => ih other hother) _, rfl⟩
  | array component ih =>
    rw [toJson, source_tagged, decode]
    refine asTagged_of_lookup (rfl : TypeForm.choices.lookup "array" = some .array) ?_
    exact map_eq_ok_iff.2 ⟨component, ih, rfl⟩
  | var name bound ih =>
    rw [toJson_var, source_tagged, decode]
    refine asTagged_of_lookup (rfl : TypeForm.choices.lookup "var" = some .var) ?_
    refine bind_eq_ok_iff.2 ⟨(name, bound), asRecord_of_entered (by simp [field]) ?_, rfl⟩
    refine .value rfl ?_
    cases bound with
    | none => exact .absent rfl (.nil _)
    | some b =>
      refine .present (fun h => ?_) (.nil _)
      exact map_eq_ok_iff.2 ⟨some b, optionalBelow_source h (ih b rfl), rfl⟩
  | wildcard bound ih =>
    rw [toJson_wildcard, source_tagged, decode]
    refine asTagged_of_lookup (rfl : TypeForm.choices.lookup "wildcard" = some .wildcard) ?_
    refine bind_eq_ok_iff.2 ⟨bound, asRecord_of_entered (by simp) ?_, rfl⟩
    cases bound with
    | none => exact .absent rfl (.nil _)
    | some b => exact .present (fun h => optionalBelow_source h (ih b rfl)) (.nil _)

end TypeUse

/-! ### Schema types -/

namespace SchemaType

variable {readTag : JsonSource → Decoded SchemaTag} {tag : SchemaTag} {word : String}
  {members : List (String × Json)}

/-- A tag may be given by its word. -/
def ReadsWords (readTag : JsonSource → Decoded SchemaTag) : Prop :=
  ∀ word tag, SchemaTag.choices.lookup word = some tag → readTag (.string word) = .ok tag

lemma readsWords_tagOfWord : ReadsWords tagOfWord := by
  intro word tag h
  rw [tagOfWord, h]

lemma readsWords_tagOfWordOrPosition : ReadsWords tagOfWordOrPosition :=
  readsWords_tagOfWord

/-- After the tag no other member is taken for one. -/
lemma tagOfMembers_sourceMembers (h : ∀ member ∈ members, member.1 ≠ "type") :
    tagOfMembers readTag true (some tag) (sourceMembers members) = .ok tag := by
  induction members with
  | nil => rfl
  | cons member rest ih =>
    obtain ⟨hmember, hrest⟩ := List.forall_mem_cons.1 h
    rw [sourceMembers, tagOfMembers, if_neg hmember, unreadableAt?_source]
    exact ih hrest

lemma filter_sourceMembers (h : ∀ member ∈ members, member.1 ≠ "type") :
    (sourceMembers members).filter (·.1 ≠ some "type") = sourceMembers members := by
  rw [List.filter_eq_self, sourceMembers_eq_map]
  intro entry hentry
  obtain ⟨member, hmember, rfl⟩ := List.mem_map.1 hentry
  simpa using h member hmember

lemma splitTag_source (hread : readTag (.string word) = .ok tag)
    (h : ∀ member ∈ members, member.1 ≠ "type") :
    splitTag readTag (Json.object (("type", .string word) :: members)).source =
      .ok (tag, (Json.object members).source) := by
  have htag : tagOfMembers readTag true none (sourceMembers (("type", .string word) :: members)) =
      .ok tag := by
    rw [sourceMembers, tagOfMembers, if_pos rfl, source, hread]
    exact tagOfMembers_sourceMembers h
  have hcontent : (sourceMembers (("type", .string word) :: members)).filter
      (·.1 ≠ some "type") = sourceMembers members := by
    rw [sourceMembers, List.filter_cons_of_neg (by simp), filter_sourceMembers h]
  rw [source, splitTag, htag, hcontent, source]
  rfl

/-- Read the content of a form. -/
def decodeForm (content : JsonSource) : SchemaTag → Decoded SchemaType
  | .primitive => readNumeric content
  | .string => unit .string content
  | .boolean => unit .boolean content
  | .object => unit .object content
  | .reference => readReference content
  | .array => do
    let items ← asRecord content
      [⟨"items", true, fun part _ _ => decodeTagged tagOfWordOrPosition part⟩] SchemaType.object
    return .array items
  | .map => do
    let (key, value) ← asRecord content
      [⟨"key", true, fun part _ body =>
          (·, body.2) <$> decodeTagged tagOfWordOrPosition part⟩,
        ⟨"value", true, fun part _ body =>
          (body.1, ·) <$> decodeTagged tagOfWordOrPosition part⟩]
      (SchemaType.object, SchemaType.object)
    return .map key value

lemma decodeTagged_of_splitTag {tree content : JsonSource}
    (h : splitTag readTag tree = .ok (tag, content)) :
    decodeTagged readTag tree = withoutPath (decodeForm content tag) := by
  rw [decodeTagged]
  split
  · next hsplit =>
    rw [h] at hsplit
    cases hsplit
  · next hsplit =>
    rw [h] at hsplit
    cases hsplit
    cases tag <;> rfl

/-- A schema type is read back if the content of its form is. -/
lemma decodeTagged_source {type : SchemaType} (hread : ReadsWords readTag)
    (hword : SchemaTag.choices.lookup word = some tag)
    (hmembers : ∀ member ∈ members, member.1 ≠ "type")
    (h : decodeForm (Json.object members).source tag = .ok type) :
    decodeTagged readTag (Json.object (("type", .string word) :: members)).source = .ok type := by
  rw [decodeTagged_of_splitTag (splitTag_source (hread word tag hword) hmembers), h]
  rfl

lemma keptChoice_numberKind (kind : NumberKind) :
    keptChoice NumberKind.choices (Json.string kind.name).source = .ok kind := by
  cases kind <;> rfl

lemma keptChoice_numberFormat (format : NumberFormat) :
    keptChoice NumberFormat.choices (Json.string format.name).source = .ok format := by
  cases format <;> rfl

/-- A schema type is read back in any way that takes the words of tags. -/
theorem decodeTagged_toJson (hread : ReadsWords readTag) (type : SchemaType) :
    decodeTagged readTag type.toJson.source = .ok type := by
  -- parts are read in another way than the whole, so the way is not fixed
  induction type generalizing readTag with
  | numeric kind format =>
    refine decodeTagged_source hread (rfl : SchemaTag.choices.lookup "primitive" = _) ?_ ?_
    · cases format <;> simp [memberOf?]
    · refine bind_eq_ok_iff.2 ⟨(kind, format), asRecord_of_entered (by simp [field]) ?_, rfl⟩
      refine .value (keptChoice_numberKind kind) ?_
      exact .optional_last (fun f _ => keptChoice_numberFormat f) (by simp [source]) rfl
  | string =>
    exact decodeTagged_source hread (rfl : SchemaTag.choices.lookup "string" = _) (by simp) rfl
  | boolean =>
    exact decodeTagged_source hread (rfl : SchemaTag.choices.lookup "boolean" = _) (by simp) rfl
  | object =>
    exact decodeTagged_source hread (rfl : SchemaTag.choices.lookup "object" = _) (by simp) rfl
  | reference name =>
    refine decodeTagged_source hread (rfl : SchemaTag.choices.lookup "class" = _) (by simp) ?_
    refine bind_eq_ok_iff.2 ⟨name, asRecord_of_entered (by simp [field]) ?_, rfl⟩
    exact .value rfl (.nil _)
  | array items ih =>
    refine decodeTagged_source hread (rfl : SchemaTag.choices.lookup "array" = _) (by simp) ?_
    refine bind_eq_ok_iff.2 ⟨items, asRecord_of_entered (by simp) ?_, rfl⟩
    exact .present (fun _ => ih readsWords_tagOfWordOrPosition) (.nil _)
  | map key value ihkey ihvalue =>
    refine decodeTagged_source hread (rfl : SchemaTag.choices.lookup "map" = _) (by simp) ?_
    refine bind_eq_ok_iff.2 ⟨(key, value), asRecord_of_entered (by simp) ?_, rfl⟩
    have hkey := ihkey readsWords_tagOfWordOrPosition
    have hvalue := ihvalue readsWords_tagOfWordOrPosition
    refine .present (fun _ => map_eq_ok_iff.2 ⟨key, hkey, rfl⟩) ?_
    exact .present (fun _ => map_eq_ok_iff.2 ⟨value, hvalue, rfl⟩) (.nil _)

theorem decode_toJson (type : SchemaType) : decode type.toJson.source = .ok type :=
  decodeTagged_toJson readsWords_tagOfWord type

end SchemaType

/-! ### Parts of declarations -/

theorem Adapter.decode_toJson (adapter : Adapter) : decode adapter.toJson.source = .ok adapter := by
  rw [toJson, decode]
  apply asRecord_of_entered (by simp [field])
  refine .value adapter.target.decode_toJson ?_
  exact .optional_last (fun type _ => type.decode_toJson) TypeUse.source_toJson_ne_null rfl

theorem Serialization.decode_toJson (serialization : Serialization) :
    decode serialization.toJson.source = .ok serialization := by
  rw [toJson, decode]
  apply asRecord_of_entered (by simp [field])
  refine .value rfl ?_
  exact .optional_last (fun type _ => type.decode_toJson) TypeUse.source_toJson_ne_null rfl

theorem QNameInfo.decode_toJson (info : QNameInfo) : decode info.toJson.source = .ok info := by
  have hbase (base : QNameBase) :
      asChoice QNameBase.choices (Json.string base.name).source = .ok base := by
    cases base <;> rfl
  rw [toJson, decode]
  apply asRecord_of_entered (by simp [field])
  refine .value (hbase info.base) ?_
  exact .optional_last (fun _ _ => rfl) source_string_ne_null rfl

theorem Constant.decode_toJson (constant : Constant) :
    decode constant.toJson.source = .ok constant := by
  rw [toJson, decode]
  apply asRecord_of_entered (by simp [field])
  simp only [List.append_assoc, List.cons_append, List.nil_append]
  refine .value rfl ?_
  refine .optional (fun _ _ => rfl) source_string_ne_null rfl ?_
  refine .optional (fun _ _ => rfl) source_string_ne_null rfl ?_
  refine .value rfl ?_
  exact .value rfl (.nil _)

theorem Member.decode_toJson (member : Member) : decode member.toJson.source = .ok member := by
  rw [toJson, decode]
  apply asRecord_of_entered (by simp [field])
  simp only [List.cons_append, List.nil_append]
  refine .value rfl ?_
  refine .value member.type.decode_toJson ?_
  refine .optional (fun type _ => type.decode_toJson) TypeUse.source_toJson_ne_null rfl ?_
  exact .optional_last (fun adapter _ => adapter.decode_toJson)
    (fun _ => source_object_ne_null _) rfl

/-! ### Declarations and packages -/

theorem Declaration.decode_toJson (declaration : Declaration) :
    decode declaration.toJson.source = .ok declaration := by
  have hkind (kind : DeclarationKind) :
      asChoice DeclarationKind.choices (Json.string kind.name).source = .ok kind := by
    cases kind <;> rfl
  rw [toJson, decode]
  apply asRecord_of_entered (by simp [field])
  simp only [List.append_assoc, List.cons_append, List.nil_append]
  refine .value rfl ?_
  refine .value (hkind declaration.kind) ?_
  refine .list (fun _ _ => rfl) rfl ?_
  refine .list (fun type _ => type.decode_toJson) rfl ?_
  refine .optional (fun type _ => type.decode_toJson) TypeUse.source_toJson_ne_null rfl ?_
  refine .optional (fun serialization _ => serialization.decode_toJson)
    (fun _ => source_object_ne_null _) rfl ?_
  refine .optional (fun adapter _ => adapter.decode_toJson)
    (fun _ => source_object_ne_null _) rfl ?_
  refine .value rfl ?_
  refine .list (fun member _ => member.decode_toJson) rfl ?_
  refine .optional (fun info _ => info.decode_toJson) (fun _ => source_object_ne_null _) rfl ?_
  refine .list (fun constant _ => constant.decode_toJson) rfl ?_
  exact .optional_last (fun _ _ => rfl) source_string_ne_null rfl

theorem Package.decode_toJson (package : Package) :
    decode package.toJson.source = .ok package := by
  rw [toJson, decode]
  apply asRecord_of_entered (by simp [field])
  simp only [List.cons_append, List.nil_append]
  refine .value rfl ?_
  refine .optional (fun _ _ => rfl) source_string_ne_null rfl ?_
  exact .list_last (fun adapter _ => adapter.decode_toJson) rfl

/-! ### Settings -/

lemma Settings.readNames_ofStrings (names : OrderedSet) :
    readNames (ofStrings names.toList).source = .ok names := by
  rw [readNames, asList_asString_source]
  exact congrArg Except.ok names.ofList_toList

theorem Settings.decode_toJson (settings : Settings) :
    decode settings.toJson.source = .ok settings := by
  rw [toJson, decode]
  apply asRecord_of_entered (by simp [field])
  refine .value rfl ?_
  refine .value (readNames_ofStrings settings.collectionTypes) ?_
  refine .value (readNames_ofStrings settings.streamTypes) ?_
  exact .value (readNames_ofStrings settings.mapTypes) (.nil _)

end SchemaTyping
