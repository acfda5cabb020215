import SchemaTyping.Proofs.Json.RoundTrip
import SchemaTyping.Proofs.Model.Listing

/-!
# Models read back

A model is read back from its JSON exactly if its declarations and packages are kept under their
names, since only their values are written. A model that was read is kept that way, so reading,
writing and reading again changes nothing.
-/

namespace SchemaTyping.Model

open Json JsonSource

variable {α : Type}

lemma readNamed_source {read : JsonSource → Decoded α} {encode : α → Json} {name : α → String}
    {map : OrderedMap α} (hread : ∀ value, read (encode value).source = .ok value)
    (h : map.Named name) :
    readNamed read name (Json.array (map.values.map encode)).source = .ok map := by
  rw [readNamed, asList_source fun value _ => hread value]
  exact congrArg Except.ok (OrderedMap.ofNamed_values h)

lemma readKnownMembers_source (entries : List (String × SchemaType)) :
    readKnownMembers (sourceMembers (entries.map fun entry => (entry.1, entry.2.toJson))) =
      .ok entries := by
  induction entries with
  | nil => rfl
  | cons entry rest ih =>
    rw [List.map_cons, sourceMembers, readKnownMembers, SchemaType.decode_toJson, ih]
    rfl

lemma readKnown_source (known : OrderedMap SchemaType) :
    readKnown (Json.object (known.entries.map fun entry => (entry.1, entry.2.toJson))).source =
      .ok known := by
  rw [source, readKnown, readKnownMembers_source]
  exact congrArg Except.ok known.ofList_entries

/-- A model is read back if and only if all declarations and packages are under their names. -/
theorem decode_toJson_iff (model : Model) :
    decode model.toJson.source = .ok model ↔ model.WellNamed := by
  constructor
  · exact wellNamed_of_decode
  · intro h
    rw [toJson, decode]
    apply asRecord_of_entered (by simp [field])
    refine .value (readNamed_source Declaration.decode_toJson h.declarations) ?_
    refine .value (readNamed_source Package.decode_toJson h.packages) ?_
    refine .value (readKnown_source model.known) ?_
    refine .value (Settings.readNames_ofStrings model.definitions) ?_
    exact .value model.settings.decode_toJson (.nil _)

/-- Nothing is lost when a value is written as JSON and read back. Of a model that is so exactly if
every declaration and package is under its name, which holds in any model that was read. -/
theorem json_round_trip :
    (∀ type : TypeUse, TypeUse.decode type.toJson.source = .ok type) ∧
    (∀ type : SchemaType, SchemaType.decode type.toJson.source = .ok type) ∧
    (∀ declaration : Declaration,
      Declaration.decode declaration.toJson.source = .ok declaration) ∧
    (∀ package : Package, Package.decode package.toJson.source = .ok package) ∧
    (∀ settings : Settings, Settings.decode settings.toJson.source = .ok settings) ∧
    (∀ model : Model, decode model.toJson.source = .ok model ↔ model.WellNamed) ∧
    ∀ tree, (decode tree >>= fun model => decode model.toJson.source) = decode tree := by
  refine ⟨TypeUse.decode_toJson, SchemaType.decode_toJson, Declaration.decode_toJson,
    Package.decode_toJson, Settings.decode_toJson, decode_toJson_iff, ?_⟩
  intro tree
  cases h : decode tree with
  | error fault => rfl
  | ok model => exact (decode_toJson_iff model).2 (wellNamed_of_decode h)

end SchemaTyping.Model
