import SchemaTyping.Json.Decoding
import SchemaTyping.Proofs.Results

/-!
# Records read back

What a record writes for its fields, in their order, is read back field by field: a member that is
there enters its value, and a field whose member was left out keeps the value of the start. A record
that is computed from another one is read by the fields that enter what the others compute.
-/

namespace SchemaTyping

/-! ### Trees without faults -/

namespace Json

open JsonSource

lemma source_object_ne_null (members : List (String × Json)) :
    (Json.object members).source ≠ .null := by
  simp [source]

lemma source_string_ne_null (text : String) : (Json.string text).source ≠ .null := by
  simp [source]

lemma source_tagged (key : String) (content : Json) :
    (Json.object [(key, content)]).source = .object [(some key, content.source)] true := by
  simp [source, sourceMembers]

mutual
/-- All parts of a tree can be read. -/
lemma unreadableAt?_source (tree : Json) : tree.source.unreadableAt? = none := by
  cases tree with
  | array items => simpa [source, unreadableAt?] using unreadableItem?_sourceItems items 0
  | object members => simpa [source, unreadableAt?] using unreadableMember?_sourceMembers members
  | _ => simp [source, unreadableAt?]

lemma unreadableItem?_sourceItems (items : List Json) (position : Nat) :
    unreadableItem? true position (sourceItems items) = none := by
  cases items with
  | nil => rfl
  | cons item rest =>
    simp only [sourceItems, unreadableItem?, unreadableAt?_source item]
    exact unreadableItem?_sourceItems rest (position + 1)

lemma unreadableMember?_sourceMembers (members : List (String × Json)) :
    unreadableMember? true (sourceMembers members) = none := by
  cases members with
  | nil => rfl
  | cons member rest =>
    simp only [sourceMembers, unreadableMember?, unreadableAt?_source member.2]
    exact unreadableMember?_sourceMembers rest
end

end Json

namespace JsonSource

open Decoded

variable {α ρ σ : Type} {bound : Nat}

/-! ### Values and lists -/

lemma asOptional_of_ne_null {read : JsonSource → Decoded α} {tree : JsonSource}
    (h : tree ≠ .null) : asOptional read tree = some <$> read tree := by
  cases tree with
  | null => exact absurd rfl h
  | _ => rfl

/-- The only member of an object whose key is one of the words. -/
lemma asTagged_of_lookup {choices : List (String × σ)} {key : String} {choice : σ}
    {read : σ → Decoded α} {value : α} (hkey : choices.lookup key = some choice)
    (hread : read choice = .ok value) : asTagged choices (some key) true [] read = .ok value := by
  simp only [asTagged, hkey, hread]
  rfl

section Lists

variable {encode : α → Json} {values : List α}

lemma readItemsBelow_sourceItems {read : (item : JsonSource) → sizeOf item < bound → Decoded α}
    (hread : ∀ value ∈ values, ∀ h, read (encode value).source h = .ok value) (position : Nat)
    (h : ∀ item ∈ Json.sourceItems (values.map encode), sizeOf item < bound) :
    readItemsBelow bound read position (Json.sourceItems (values.map encode)) h = .ok values := by
  induction values generalizing position with
  | nil => rfl
  | cons value rest ih =>
    obtain ⟨hvalue, hrest⟩ := List.forall_mem_cons.1 hread
    simp only [List.map_cons, Json.sourceItems, readItemsBelow, hvalue, ih hrest, within_ok]
    rfl

lemma asListBelow_source {read : (item : JsonSource) → sizeOf item < bound → Decoded α}
    (hread : ∀ value ∈ values, ∀ h, read (encode value).source h = .ok value)
    (h : sizeOf (Json.array (values.map encode)).source ≤ bound) :
    asListBelow bound read (Json.array (values.map encode)).source h = .ok values := by
  simp only [Json.source, asListBelow, readItemsBelow_sourceItems hread]
  rfl

lemma asList_source {read : JsonSource → Decoded α}
    (hread : ∀ value ∈ values, read (encode value).source = .ok value) :
    asList read (Json.array (values.map encode)).source = .ok values :=
  asListBelow_source (fun value hvalue _ => hread value hvalue) _

lemma asList_asString_source (texts : List String) :
    asList asString (Json.ofStrings texts).source = .ok texts :=
  asList_source fun _ _ => rfl

end Lists

/-! ### Fields -/

/-- The members are written for some of the fields, in their order, and turn the first record into
the second one. Only fields that are not required are left out. -/
inductive Entered : List (Field ρ bound) → List (String × Json) → ρ → ρ → Prop where
  | nil (record : ρ) : Entered [] [] record record
  | present {field : Field ρ bound} {fields : List (Field ρ bound)} {value : Json}
      {members : List (String × Json)} {record next last : ρ}
      (hvalue : ∀ h, field.enter value.source h record = .ok next)
      (hrest : Entered fields members next last) :
      Entered (field :: fields) ((field.name, value) :: members) record last
  | absent {field : Field ρ bound} {fields : List (Field ρ bound)}
      {members : List (String × Json)} {record last : ρ} (hfield : field.required = false)
      (hrest : Entered fields members record last) :
      Entered (field :: fields) members record last

namespace Entered

variable {fields : List (Field ρ bound)} {members : List (String × Json)} {record last : ρ}
  {name : String} {required : Bool}

/-- A field that is always written. -/
lemma value {read : JsonSource → Decoded α} {set : α → ρ → ρ} {tree : Json} {a : α}
    (hread : read tree.source = .ok a) (hrest : Entered fields members (set a record) last) :
    Entered (field bound name required read set :: fields) ((name, tree) :: members)
      record last := by
  apply Entered.present (fun h => ?_) hrest
  simp only [field, hread]
  rfl

section Optional

variable {read : JsonSource → Decoded α} {set : Option α → ρ → ρ} {encode : α → Json}
  {a : Option α}

/-- A field that is written unless it has no value. -/
lemma optional (hread : ∀ b ∈ a, read (encode b).source = .ok b)
    (hnull : ∀ b, (encode b).source ≠ .null) (hset : set none record = record)
    (hrest : Entered fields members (set a record) last) :
    Entered (field bound name false (asOptional read) set :: fields)
      (Json.memberOf? name encode a ++ members) record last := by
  cases a with
  | none =>
    rw [hset] at hrest
    exact .absent rfl hrest
  | some b =>
    apply value _ hrest
    rw [asOptional_of_ne_null (hnull b), hread b rfl]
    rfl

lemma optional_last (hread : ∀ b ∈ a, read (encode b).source = .ok b)
    (hnull : ∀ b, (encode b).source ≠ .null) (hset : set none record = record) :
    Entered [field bound name false (asOptional read) set] (Json.memberOf? name encode a) record
      (set a record) := by
  rw [← List.append_nil (Json.memberOf? name encode a)]
  exact optional hread hnull hset (.nil _)

end Optional

section Lists

variable {read : JsonSource → Decoded α} {set : List α → ρ → ρ} {encode : α → Json}
  {values : List α}

/-- A field that is written unless its list is empty. -/
lemma list (hread : ∀ value ∈ values, read (encode value).source = .ok value)
    (hset : set [] record = record) (hrest : Entered fields members (set values record) last) :
    Entered (field bound name false (asList read) set :: fields)
      (Json.memberOfList name encode values ++ members) record last := by
  cases values with
  | nil =>
    rw [hset] at hrest
    exact .absent rfl hrest
  | cons first rest => exact value (asList_source hread) hrest

lemma list_last (hread : ∀ value ∈ values, read (encode value).source = .ok value)
    (hset : set [] record = record) :
    Entered [field bound name false (asList read) set] (Json.memberOfList name encode values)
      record (set values record) := by
  rw [← List.append_nil (Json.memberOfList name encode values)]
  exact list hread hset (.nil _)

end Lists

/-! #### The record that is read -/

lemma mem_of_required (h : Entered fields members record last) {field : Field ρ bound}
    (hfield : field ∈ fields) (hrequired : field.required = true) :
    field.name ∈ members.map Prod.fst := by
  induction h with
  | nil => cases hfield
  | present _ _ ih =>
    rcases List.mem_cons.1 hfield with rfl | hfield
    · exact List.mem_cons_self
    · exact List.mem_cons_of_mem _ (ih hfield)
  | absent habsent _ ih =>
    rcases List.mem_cons.1 hfield with rfl | hfield
    · rw [hrequired] at habsent
      cases habsent
    · exact ih hfield

lemma find?_name {fields : List (Field ρ bound)} (hnames : (fields.map Field.name).Nodup)
    {field : Field ρ bound} (hfield : field ∈ fields) :
    fields.find? (·.name = field.name) = some field := by
  induction fields with
  | nil => cases hfield
  | cons first rest ih =>
    obtain ⟨hfirst, hrest⟩ := List.nodup_cons.1 hnames
    rcases List.mem_cons.1 hfield with rfl | hfield
    · simp
    · have hne : first.name ≠ field.name := fun e => hfirst (e ▸ List.mem_map_of_mem hfield)
      rw [List.find?_cons_of_neg (by simpa using hne), ih hrest hfield]

/-- The members are entered one after the other. The fields that are still to come are among all
fields, and none of them was seen. -/
lemma enterMembers_eq {all : List (Field ρ bound)} (h : Entered fields members record last)
    (hall : ∀ field ∈ fields, all.find? (·.name = field.name) = some field)
    (hnames : (fields.map Field.name).Nodup) (seen : List String)
    (hseen : ∀ field ∈ fields, field.name ∉ seen)
    (hsizes : ∀ m ∈ Json.sourceMembers members, sizeOf m.2 < bound) :
    enterMembers all (Json.sourceMembers members) hsizes seen record =
      .ok (last, (members.map Prod.fst).reverse ++ seen) := by
  induction h generalizing seen with
  | nil => rfl
  | @present field fields value members record next last hvalue hrest ih =>
    obtain ⟨hfield, hfields⟩ := List.forall_mem_cons.1 hall
    obtain ⟨hunseen, hunseens⟩ := List.forall_mem_cons.1 hseen
    obtain ⟨hname, hnames⟩ := List.nodup_cons.1 hnames
    -- no later field has this name, so none of them will be a duplicate
    have hafter : ∀ other ∈ fields, other.name ∉ field.name :: seen := by
      intro other hother
      simp only [List.mem_cons, not_or]
      exact ⟨fun e => hname (e ▸ List.mem_map_of_mem hother), hunseens other hother⟩
    simp only [Json.sourceMembers, enterMembers, hfield, if_neg hunseen, hvalue, within_ok]
    refine (ih hfields hnames _ hafter _).trans ?_
    simp
  | absent hfield hrest ih =>
    exact ih (List.forall_mem_cons.1 hall).2 (List.nodup_cons.1 hnames).2 _
      (List.forall_mem_cons.1 hseen).2 hsizes

end Entered

lemma asRecordBelow_of_entered {members : List (String × Json)} {fields : List (Field ρ bound)}
    {record last : ρ} (hnames : (fields.map Field.name).Nodup)
    (h : Entered fields members record last) (hsize : sizeOf (Json.object members).source ≤ bound) :
    asRecordBelow bound fields record (Json.object members).source hsize = .ok last := by
  have hmembers := h.enterMembers_eq (fun _ => Entered.find?_name hnames) hnames [] (by simp)
  have hrequired : fields.find? (fun field => field.required && field.name ∉
      (members.map Prod.fst).reverse ++ []) = none := by
    rw [List.find?_eq_none]
    intro field hfield
    simpa using h.mem_of_required hfield
  simp only [Json.source, asRecordBelow]
  refine bind_eq_ok_iff.2 ⟨_, hmembers _, bind_eq_ok_iff.2 ⟨(), rfl, ?_⟩⟩
  rw [hrequired]
  rfl

/-- A record is read back from what it writes. -/
theorem asRecord_of_entered {members : List (String × Json)}
    {fields : List (Field ρ (sizeOf (Json.object members).source))} {record last : ρ}
    (hnames : (fields.map Field.name).Nodup) (h : Entered fields members record last) :
    asRecord (Json.object members).source fields record = .ok last :=
  asRecordBelow_of_entered hnames h _

/-! ### Computed records -/

/-- A field of a record that is computed from another one: it enters what the other's field does. -/
structure Field.Image (f : ρ → σ) (field : Field ρ bound) (image : Field σ bound) : Prop where
  name_eq : image.name = field.name
  required_eq : image.required = field.required
  enter_eq : ∀ value h record, image.enter value h (f record) = f <$> field.enter value h record

section Images

variable {f : ρ → σ} {fields : List (Field ρ bound)} {images : List (Field σ bound)}

/-- A field whose value is computed from the other's one. -/
lemma Field.Image.field {β : Type} {name : String} {required : Bool}
    {read : JsonSource → Decoded α} {readImage : JsonSource → Decoded β} {set : α → ρ → ρ}
    {setImage : β → σ → σ} (g : α → β) (hread : ∀ tree, readImage tree = g <$> read tree)
    (hset : ∀ a record, setImage (g a) (f record) = f (set a record)) :
    Field.Image f (field bound name required read set)
      (field bound name required readImage setImage) := by
  refine ⟨rfl, rfl, fun value _ record => ?_⟩
  simp only [JsonSource.field, hread, Functor.map_map, hset]

/-- The first field with a name and a requirement of some kind has its image there. -/
lemma find?_images (h : List.Forall₂ (Field.Image f) fields images)
    (p : String → Bool → Bool) :
    (fields.find? (fun field => p field.name field.required) = none ∧
      images.find? (fun image => p image.name image.required) = none) ∨
    ∃ field image, fields.find? (fun field => p field.name field.required) = some field ∧
      images.find? (fun image => p image.name image.required) = some image ∧
        Field.Image f field image := by
  induction h with
  | nil => exact .inl ⟨rfl, rfl⟩
  | @cons field image fields images hfield _ ih =>
    cases hp : p field.name field.required with
    | true =>
      refine .inr ⟨field, image, ?_, ?_, hfield⟩
      · exact List.find?_cons_of_pos hp
      · apply List.find?_cons_of_pos
        rw [hfield.name_eq, hfield.required_eq, hp]
    | false =>
      rw [List.find?_cons_of_neg (by simp [hp]), List.find?_cons_of_neg (by
        simp [hfield.name_eq, hfield.required_eq, hp])]
      exact ih

lemma enterMembers_images (h : List.Forall₂ (Field.Image f) fields images)
    (members : List (Option String × JsonSource)) (hsizes : ∀ m ∈ members, sizeOf m.2 < bound)
    (seen : List String) (record : ρ) :
    enterMembers images members hsizes seen (f record) =
      (fun result => (f result.1, result.2)) <$>
        enterMembers fields members hsizes seen record := by
  induction members generalizing seen record with
  | nil => rfl
  | cons member rest ih =>
    obtain ⟨_ | key, value⟩ := member
    · rfl
    · rcases find?_images h (fun name _ => name = key) with
        ⟨hfield, himage⟩ | ⟨field, image, hfield, himage, hfields⟩
      · simp only [enterMembers, hfield, himage, ih]
        split <;> rfl
      · simp only [enterMembers, hfield, himage]
        split
        · rfl
        · rw [hfields.enter_eq]
          cases field.enter value (hsizes _ List.mem_cons_self) record with
          | error fault => rfl
          | ok next => exact ih _ _ next

lemma any_required_images (h : List.Forall₂ (Field.Image f) fields images) :
    images.any Field.required = fields.any Field.required := by
  induction h with
  | nil => rfl
  | cons hfield _ ih => rw [List.any_cons, List.any_cons, hfield.required_eq, ih]

lemma enterItems_images (h : List.Forall₂ (Field.Image f) fields images) (closed : Bool)
    (items : List JsonSource) (hsizes : ∀ item ∈ items, sizeOf item < bound) (position : Nat)
    (record : ρ) :
    enterItems closed images items hsizes position (f record) =
      f <$> enterItems closed fields items hsizes position record := by
  induction items generalizing fields images position record with
  | nil =>
    simp only [enterItems, any_required_images h, map_bind]
    split <;> rfl
  | cons item items ih =>
    cases h with
    | nil => rfl
    | @cons field image _ _ hfield hfields =>
      simp only [enterItems, hfield.enter_eq]
      cases field.enter item (hsizes _ List.mem_cons_self) record with
      | error fault => rfl
      | ok next => exact ih hfields _ _ next

/-- A computed record is read by computing it from what is read. -/
theorem asRecord_images {tree : JsonSource} {fields : List (Field ρ (sizeOf tree))}
    {images : List (Field σ (sizeOf tree))} (h : List.Forall₂ (Field.Image f) fields images)
    (start : ρ) : asRecord tree images (f start) = f <$> asRecord tree fields start := by
  rw [asRecord, asRecord]
  cases tree with
  | object members closed =>
    simp only [asRecordBelow, enterMembers_images h, map_bind, bind_map_left]
    congr 1
    ext result
    rcases find?_images h (fun name required => required && name ∉ result.2) with
      ⟨hfield, himage⟩ | ⟨field, image, hfield, himage, hfields⟩
    · simp only [hfield, himage]
      rfl
    · simp only [hfield, himage, hfields.name_eq]
      rfl
  | array items closed => exact enterItems_images h closed items _ 0 start
  | _ => rfl

end Images

end JsonSource

end SchemaTyping
