/-!
# Ordered maps and sets

Maps keyed by text and sets of text that remember their order of entry. A key keeps the place of
its first write and has the value of its last write; an element keeps the place where it was
first added.
-/

namespace SchemaTyping

/-! ### Maps -/

/-- A map from text that lists its keys in the order of their first writes. -/
structure OrderedMap (α : Type) where
  entries : List (String × α)
  nodup_keys : (entries.map Prod.fst).Nodup
deriving DecidableEq

namespace OrderedMap

variable {α : Type}

/-- The first value listed under a key. -/
def read (key : String) : List (String × α) → Option α
  | [] => none
  | (k, v) :: rest => if k = key then some v else read key rest

/-- Write one entry: in its place if the key is there, else at the end. -/
def write (key : String) (value : α) : List (String × α) → List (String × α)
  | [] => [(key, value)]
  | (k, v) :: rest => if k = key then (key, value) :: rest else (k, v) :: write key value rest

theorem keys_write (key : String) (value : α) (entries : List (String × α)) :
    (write key value entries).map Prod.fst =
      if key ∈ entries.map Prod.fst then entries.map Prod.fst
      else entries.map Prod.fst ++ [key] := by
  induction entries with
  | nil => simp [write]
  | cons entry rest ih =>
    obtain ⟨k, v⟩ := entry
    by_cases h : k = key
    · simp [write, h]
    · have hne : ¬key = k := fun e => h e.symm
      simp only [write, if_neg h, List.map_cons, ih, List.mem_cons, hne, false_or]
      split <;> simp

theorem nodup_keys_write {entries : List (String × α)} (h : (entries.map Prod.fst).Nodup)
    (key : String) (value : α) : ((write key value entries).map Prod.fst).Nodup := by
  rw [keys_write]
  split
  · exact h
  · next hmem =>
    rw [List.nodup_append]
    refine ⟨h, by simp, fun a ha b hb => ?_⟩
    rw [List.mem_singleton] at hb
    exact fun e => hmem (hb ▸ e ▸ ha)

theorem read_write (key : String) (value : α) (entries : List (String × α)) (k : String) :
    read k (write key value entries) = if key = k then some value else read k entries := by
  induction entries with
  | nil => simp [write, read]
  | cons entry rest ih =>
    obtain ⟨k', v⟩ := entry
    by_cases hk : k' = key
    · subst hk
      by_cases h : k' = k <;> simp [write, read, h]
    · by_cases h : k' = k
      · subst h
        simp [write, read, hk, Ne.symm hk]
      · simp [write, read, hk, h, ih]

theorem mem_of_read {key : String} {value : α} {entries : List (String × α)}
    (h : read key entries = some value) : (key, value) ∈ entries := by
  induction entries with
  | nil => simp [read] at h
  | cons entry rest ih =>
    obtain ⟨k, v⟩ := entry
    by_cases hk : k = key
    · simp_all [read]
    · exact List.mem_cons_of_mem _ (ih (by simpa [read, hk] using h))

/-- The map without entries. -/
def empty : OrderedMap α := ⟨[], List.nodup_nil⟩

instance : EmptyCollection (OrderedMap α) := ⟨empty⟩

instance : Inhabited (OrderedMap α) := ⟨empty⟩

/-- Write the value of a key. -/
def insert (map : OrderedMap α) (key : String) (value : α) : OrderedMap α :=
  ⟨write key value map.entries, nodup_keys_write map.nodup_keys key value⟩

/-- The value of a key. -/
def get? (map : OrderedMap α) (key : String) : Option α :=
  read key map.entries

/-- The keys, in order. -/
def keys (map : OrderedMap α) : List String :=
  map.entries.map Prod.fst

/-- The values, in the order of their keys. -/
def values (map : OrderedMap α) : List α :=
  map.entries.map Prod.snd

/-- The number of keys. -/
def size (map : OrderedMap α) : Nat :=
  map.entries.length

/-- Write a list of entries, one after the other. -/
def insertMany (map : OrderedMap α) (entries : List (String × α)) : OrderedMap α :=
  entries.foldl (fun m entry => m.insert entry.1 entry.2) map

/-- Write all entries of another map. -/
def union (map other : OrderedMap α) : OrderedMap α :=
  map.insertMany other.entries

/-- The map that a list of entries writes. -/
def ofList (entries : List (String × α)) : OrderedMap α :=
  empty.insertMany entries

@[simp] theorem entries_empty : (∅ : OrderedMap α).entries = [] := rfl

@[simp] theorem entries_insert (map : OrderedMap α) (key : String) (value : α) :
    (map.insert key value).entries = write key value map.entries := rfl

@[simp] theorem get?_empty (key : String) : (∅ : OrderedMap α).get? key = none := rfl

theorem keys_insert (map : OrderedMap α) (key : String) (value : α) :
    (map.insert key value).keys =
      if key ∈ map.keys then map.keys else map.keys ++ [key] :=
  keys_write key value map.entries

/-- The last write of a key is what is read, and it changes no other key. -/
theorem get?_insert (map : OrderedMap α) (key : String) (value : α) (k : String) :
    (map.insert key value).get? k = if key = k then some value else map.get? k :=
  read_write key value map.entries k

/-- A value that is read stands in an entry under its key. -/
theorem mem_entries_of_get? {map : OrderedMap α} {key : String} {value : α}
    (h : map.get? key = some value) : (key, value) ∈ map.entries :=
  mem_of_read h

end OrderedMap

/-! ### Sets -/

/-- A set of texts that lists its elements in the order in which they were added. -/
structure OrderedSet where
  toList : List String
  nodup : toList.Nodup
deriving DecidableEq

namespace OrderedSet

/-- The set without elements. -/
def empty : OrderedSet := ⟨[], List.nodup_nil⟩

instance : EmptyCollection OrderedSet := ⟨empty⟩

instance : Inhabited OrderedSet := ⟨empty⟩

instance : Membership String OrderedSet := ⟨fun set name => name ∈ set.toList⟩

instance (name : String) (set : OrderedSet) : Decidable (name ∈ set) :=
  inferInstanceAs (Decidable (name ∈ set.toList))

/-- Add an element at the end, unless it is there. -/
def insert (set : OrderedSet) (name : String) : OrderedSet :=
  if h : name ∈ set.toList then set
  else ⟨set.toList ++ [name], by
    rw [List.nodup_append]
    refine ⟨set.nodup, by simp, fun a ha b hb => ?_⟩
    rw [List.mem_singleton] at hb
    exact fun e => h (hb ▸ e ▸ ha)⟩

/-- Add a list of elements, one after the other. -/
def insertMany (set : OrderedSet) (names : List String) : OrderedSet :=
  names.foldl insert set

/-- Add all elements of another set. -/
def union (set other : OrderedSet) : OrderedSet :=
  set.insertMany other.toList

/-- The set of the listed elements. -/
def ofList (names : List String) : OrderedSet :=
  empty.insertMany names

theorem mem_iff {name : String} {set : OrderedSet} : name ∈ set ↔ name ∈ set.toList := Iff.rfl

theorem toList_insert (set : OrderedSet) (name : String) :
    (set.insert name).toList = if name ∈ set then set.toList else set.toList ++ [name] := by
  by_cases h : name ∈ set.toList <;> simp [insert, mem_iff, h]

/-- Adding an element makes it a member and no other. -/
theorem mem_insert {set : OrderedSet} {name n : String} :
    n ∈ set.insert name ↔ n ∈ set ∨ n = name := by
  rw [mem_iff, toList_insert]
  split
  · next h =>
    rw [mem_iff]
    exact ⟨Or.inl, fun e => e.elim id fun e => e ▸ h⟩
  · simp [mem_iff]

end OrderedSet

end SchemaTyping
