import SchemaTyping.Model.Json
import SchemaTyping.Proofs.Json.Records
import SchemaTyping.Proofs.Model.Writes

/-!
# Models as they are listed

A file lists declarations, packages and schema types, and may list a name more than once. Reading a
model is reading these lists and then writing them, one entry after the other. So in every model
that is read, a declaration or package is kept under its own name.
-/

namespace SchemaTyping

/-! ### Values kept by name -/

namespace OrderedMap

variable {α : Type} {map : OrderedMap α} {name : α → String}

/-- Every value is kept under its name. -/
def Named (name : α → String) (map : OrderedMap α) : Prop :=
  ∀ entry ∈ map.entries, entry.1 = name entry.2

/-- The map that a list of values writes, each one under its name. -/
def ofNamed (name : α → String) (values : List α) : OrderedMap α :=
  ofList (values.map fun value => (name value, value))

lemma read_eq_some_of_mem {entries : List (String × α)} (h : (entries.map Prod.fst).Nodup)
    {key : String} {value : α} (hentry : (key, value) ∈ entries) :
    read key entries = some value := by
  induction entries with
  | nil => cases hentry
  | cons first rest ih =>
    obtain ⟨k, v⟩ := first
    obtain ⟨hk, hrest⟩ := List.nodup_cons.1 h
    rcases List.mem_cons.1 hentry with hfirst | hentry
    · cases hfirst
      simp [read]
    · have hkey : key ∈ rest.map Prod.fst := List.mem_map.2 ⟨_, hentry, rfl⟩
      have hne : k ≠ key := fun e => hk (e ▸ hkey)
      rw [read, if_neg hne, ih hrest hentry]

lemma mem_entries_iff {key : String} {value : α} :
    (key, value) ∈ map.entries ↔ map.get? key = some value :=
  ⟨read_eq_some_of_mem map.nodup_keys, mem_entries_of_get?⟩

lemma named_iff : map.Named name ↔ ∀ key value, map.get? key = some value → key = name value := by
  constructor
  · exact fun h key value hget => h (key, value) (mem_entries_iff.2 hget)
  · exact fun h entry hentry => h entry.1 entry.2 (mem_entries_iff.1 hentry)

lemma keys_ofNamed (values : List α) :
    (ofNamed name values).keys = (values.map name).eraseDups := by
  rw [ofNamed, keys_ofList, List.map_map]
  rfl

/-- Under a name is the last value that has it. -/
lemma get?_ofNamed (values : List α) (key : String) :
    (ofNamed name values).get? key = values.reverse.find? (fun value => name value = key) := by
  rw [ofNamed, get?_ofList, ← List.map_reverse]
  exact (read_map name id _ key).trans Option.map_id'

lemma named_ofNamed (name : α → String) (values : List α) : (ofNamed name values).Named name := by
  rw [named_iff]
  intro key value hget
  rw [get?_ofNamed] at hget
  simpa [eq_comm] using List.find?_some hget

/-- The values of a map write it again if they are kept under their names. -/
lemma ofNamed_values (h : map.Named name) : ofNamed name map.values = map := by
  have hentries : (map.values.map fun value => (name value, value)) = map.entries := by
    rw [values, List.map_map]
    refine (List.map_congr_left fun entry hentry => ?_).trans (List.map_id map.entries)
    exact Prod.ext (h entry hentry).symm rfl
  rw [ofNamed, hentries, ofList_entries]

end OrderedMap

/-- Every declaration and every package of a model is kept under its name. -/
structure Model.WellNamed (model : Model) : Prop where
  declarations : model.declarations.Named Declaration.name
  packages : model.packages.Named Package.name

/-! ### Lists of entries -/

/-- What a file lists for a model, repeated names included. -/
structure Listing where
  declarations : List Declaration
  packages : List Package
  known : List (String × SchemaType)
  definitions : List String
  settings : Settings

namespace Listing

open JsonSource

/-- The listing without entries. -/
def empty : Listing := ⟨[], [], [], [], .standard⟩

/-- The model that a listing writes. -/
def model (listing : Listing) : Model where
  declarations := .ofNamed Declaration.name listing.declarations
  packages := .ofNamed Package.name listing.packages
  known := .ofList listing.known
  definitions := .ofList listing.definitions
  settings := listing.settings

/-- The entries of an object of schema types, as they are listed. -/
def readKnown : JsonSource → Decoded (List (String × SchemaType))
  | .object members closed => do
    let entries ← Model.readKnownMembers members
    requireClosed closed
    return entries
  | tree => tree.refuse

lemma readKnown_eq (tree : JsonSource) :
    Model.readKnown tree = OrderedMap.ofList <$> readKnown tree := by
  cases tree with
  | object members closed => simp only [Model.readKnown, readKnown, map_bind, map_pure]
  | _ => rfl

/-- Read the lists of a model. -/
def decode (tree : JsonSource) : Decoded Listing :=
  asRecord tree
    [field _ "declarations" false (asList Declaration.decode)
        fun declarations l => { l with declarations },
      field _ "packages" false (asList Package.decode) fun packages l => { l with packages },
      field _ "known" false readKnown fun known l => { l with known },
      field _ "definitions" false (asList asString) fun definitions l => { l with definitions },
      field _ "settings" false Settings.decode fun settings l => { l with settings }]
    empty

/-- A model is read by writing what is listed. -/
theorem decode_eq (tree : JsonSource) : Model.decode tree = model <$> decode tree := by
  refine asRecord_images (f := model) ?_ empty
  refine .cons (.field (.ofNamed Declaration.name) (fun _ => rfl) fun _ _ => rfl) ?_
  refine .cons (.field (.ofNamed Package.name) (fun _ => rfl) fun _ _ => rfl) ?_
  refine .cons (.field .ofList readKnown_eq fun _ _ => rfl) ?_
  refine .cons (.field .ofList (fun _ => rfl) fun _ _ => rfl) ?_
  exact .cons (.field id (fun _ => (id_map _).symm) fun _ _ => rfl) .nil

lemma wellNamed_model (listing : Listing) : listing.model.WellNamed :=
  ⟨OrderedMap.named_ofNamed _ _, OrderedMap.named_ofNamed _ _⟩

end Listing

/-- In a model that is read, all declarations and packages are kept under their names. -/
theorem Model.wellNamed_of_decode {tree : JsonSource} {model : Model}
    (h : Model.decode tree = .ok model) : model.WellNamed := by
  rw [Listing.decode_eq] at h
  obtain ⟨listing, -, rfl⟩ := map_eq_ok_iff.1 h
  exact listing.wellNamed_model

end SchemaTyping
