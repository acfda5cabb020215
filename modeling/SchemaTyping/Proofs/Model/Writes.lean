import Mathlib.Data.List.Induction
import SchemaTyping.OrderedMap

/-!
# Ordered maps and sets as what was written

A map is determined by its keys in order and by their values. The keys are those that were written,
each at the place of its first write, and the value of a key is that of its last write. So a map
depends only on the list of all writes, and the laws of unions are laws of lists. A set is the list
of what was added, each element at its first place.
-/

namespace SchemaTyping

/-! ### First places -/

section FirstPlaces

variable {xs ys : List String}

lemma eraseDups_concat (xs : List String) (x : String) :
    (xs ++ [x]).eraseDups = if x ∈ xs then xs.eraseDups else xs.eraseDups ++ [x] := by
  rw [List.eraseDups_append]
  split
  · next h => simp [List.removeAll, h]
  · next h => simp [List.removeAll, h, List.eraseDups_cons]

lemma nodup_eraseDups (xs : List String) : xs.eraseDups.Nodup := by
  induction xs using List.reverseRecOn with
  | nil => exact List.nodup_nil
  | append_singleton xs x ih =>
    rw [eraseDups_concat]
    split
    · exact ih
    · next h =>
      rw [List.nodup_append]
      refine ⟨ih, by simp, fun y hy z hz => ?_⟩
      rw [List.mem_singleton] at hz
      exact fun e => h (hz ▸ e ▸ List.mem_eraseDups.1 hy)

lemma eraseDups_of_nodup (h : xs.Nodup) : xs.eraseDups = xs := by
  induction xs using List.reverseRecOn with
  | nil => rfl
  | append_singleton xs x ih =>
    rw [List.nodup_append] at h
    have hx : x ∉ xs := fun hx => h.2.2 x hx x (by simp) rfl
    rw [eraseDups_concat, if_neg hx, ih h.1]

/-- What is there already is not added. -/
lemma eraseDups_append_of_subset (h : ys ⊆ xs) : (xs ++ ys).eraseDups = xs.eraseDups := by
  have hnone : ys.removeAll xs = [] :=
    List.filter_eq_nil_iff.2 fun y hy => by simp [h hy]
  rw [List.eraseDups_append, hnone]
  exact List.append_nil _

lemma eraseDups_append_eraseDups (xs ys : List String) :
    (xs ++ ys.eraseDups).eraseDups = (xs ++ ys).eraseDups := by
  induction ys using List.reverseRecOn with
  | nil => rfl
  | append_singleton ys y ih =>
    rw [← List.append_assoc, eraseDups_concat (xs ++ ys), ← ih, eraseDups_concat]
    by_cases hys : y ∈ ys
    · simp [hys]
    · rw [if_neg hys, ← List.append_assoc, eraseDups_concat]
      simp

lemma eraseDups_eraseDups_append (xs ys : List String) :
    (xs.eraseDups ++ ys).eraseDups = (xs ++ ys).eraseDups := by
  induction ys using List.reverseRecOn with
  | nil => simp [eraseDups_of_nodup (nodup_eraseDups xs)]
  | append_singleton ys y ih =>
    rw [← List.append_assoc, ← List.append_assoc, eraseDups_concat, eraseDups_concat, ih]
    simp

end FirstPlaces

/-! ### Maps -/

namespace OrderedMap

variable {α : Type} {map other : OrderedMap α}

/-! #### Entries -/

lemma read_eq_lookup (key : String) (entries : List (String × α)) :
    read key entries = entries.lookup key := by
  induction entries with
  | nil => rfl
  | cons entry rest ih =>
    obtain ⟨k, v⟩ := entry
    rw [read, List.lookup_cons, ih]
    by_cases h : k = key
    · simp [h]
    · have hbeq : (key == k) = false := beq_eq_false_iff_ne.2 (Ne.symm h)
      simp [h, hbeq]

lemma read_append (key : String) (entries more : List (String × α)) :
    read key (entries ++ more) = (read key entries).or (read key more) := by
  induction entries with
  | nil => rfl
  | cons entry rest ih =>
    obtain ⟨k, v⟩ := entry
    by_cases h : k = key <;> simp [read, h, ih]

lemma read_eq_none_iff {key : String} {entries : List (String × α)} :
    read key entries = none ↔ key ∉ entries.map Prod.fst := by
  induction entries with
  | nil => simp [read]
  | cons entry rest ih =>
    obtain ⟨k, v⟩ := entry
    by_cases h : k = key
    · simp [read, h]
    · rw [read, if_neg h, ih]
      simp [Ne.symm h]

/-- Entries that values make are read where the first value stands that has the key. -/
lemma read_filterMap {β : Type} (key? : β → Option String) (value : β → α) (makers : List β)
    (key : String) :
    read key (makers.filterMap fun maker => (key? maker).map fun k => (k, value maker)) =
      (makers.find? (key? · = some key)).map value := by
  induction makers with
  | nil => rfl
  | cons maker rest ih =>
    cases hkey : key? maker with
    | none => simp [hkey, ih]
    | some k => by_cases h : k = key <;> simp [hkey, read, h, ih]

lemma read_map {β : Type} (name : β → String) (value : β → α) (makers : List β) (key : String) :
    read key (makers.map fun maker => (name maker, value maker)) =
      (makers.find? (name · = key)).map value := by
  have h := read_filterMap (fun maker => some (name maker)) value makers key
  simpa only [Option.map_some, Option.some.injEq, List.filterMap_eq_map'] using h

/-- Where no key is listed twice, its first value is its last one. -/
lemma read_reverse {entries : List (String × α)} (h : (entries.map Prod.fst).Nodup)
    (key : String) : read key entries.reverse = read key entries := by
  induction entries with
  | nil => rfl
  | cons entry rest ih =>
    obtain ⟨k, v⟩ := entry
    obtain ⟨hk, hrest⟩ := List.nodup_cons.1 h
    rw [List.reverse_cons, read_append, ih hrest]
    by_cases hkey : k = key
    · subst hkey
      rw [read_eq_none_iff.2 hk]
      simp [read]
    · simp [read, hkey]

/-- Entries with the same keys in the same places are the same if all keys have the same values. -/
lemma entries_ext {entries more : List (String × α)} (h : (entries.map Prod.fst).Nodup)
    (hkeys : entries.map Prod.fst = more.map Prod.fst)
    (hread : ∀ key, read key entries = read key more) : entries = more := by
  induction entries generalizing more with
  | nil =>
    rw [List.map_nil] at hkeys
    rw [List.map_eq_nil_iff.1 hkeys.symm]
  | cons entry rest ih =>
    obtain ⟨k, v⟩ := entry
    obtain ⟨⟨k', w⟩, others, rfl, rfl, hothers⟩ := List.map_eq_cons_iff.1 hkeys.symm
    obtain ⟨hk, hrest⟩ := List.nodup_cons.1 h
    have hvalue : v = w := by
      simpa [read] using hread k'
    have htail : ∀ key, read key rest = read key others := by
      intro key
      by_cases hkey : k' = key
      · subst hkey
        rw [read_eq_none_iff.2 hk, read_eq_none_iff.2 (hothers ▸ hk)]
      · simpa [read, hkey] using hread key
    rw [hvalue, ih hrest hothers.symm htail]

/-- A map is determined by its keys in order and their values. -/
lemma ext_of_keys (hkeys : map.keys = other.keys) (hget : ∀ key, map.get? key = other.get? key) :
    map = other := by
  have h := entries_ext map.nodup_keys hkeys hget
  cases map
  cases other
  cases h
  rfl

/-! #### Writes -/

lemma insertMany_append (map : OrderedMap α) (writes more : List (String × α)) :
    map.insertMany (writes ++ more) = (map.insertMany writes).insertMany more :=
  List.foldl_append

lemma insertMany_concat (map : OrderedMap α) (writes : List (String × α)) (key : String)
    (value : α) :
    map.insertMany (writes ++ [(key, value)]) = (map.insertMany writes).insert key value :=
  insertMany_append map writes [(key, value)]

/-- A key is at the place of its first write. -/
theorem keys_insertMany (map : OrderedMap α) (writes : List (String × α)) :
    (map.insertMany writes).keys = (map.keys ++ writes.map Prod.fst).eraseDups := by
  induction writes using List.reverseRecOn with
  | nil =>
    rw [List.map_nil, List.append_nil]
    exact (eraseDups_of_nodup map.nodup_keys).symm
  | append_singleton writes write ih =>
    obtain ⟨key, value⟩ := write
    rw [insertMany_concat, keys_insert, ih, List.map_append, ← List.append_assoc,
      List.map_singleton, eraseDups_concat]
    simp only [List.mem_eraseDups]

/-- A key has the value of its last write. -/
theorem get?_insertMany (map : OrderedMap α) (writes : List (String × α)) (key : String) :
    (map.insertMany writes).get? key = (read key writes.reverse).or (map.get? key) := by
  induction writes using List.reverseRecOn with
  | nil => rfl
  | append_singleton writes write ih =>
    obtain ⟨k, value⟩ := write
    rw [insertMany_concat, get?_insert, ih, List.reverse_append]
    by_cases h : k = key <;> simp [read, h]

theorem keys_ofList (writes : List (String × α)) :
    (ofList writes).keys = (writes.map Prod.fst).eraseDups :=
  keys_insertMany empty writes

theorem get?_ofList (writes : List (String × α)) (key : String) :
    (ofList writes).get? key = read key writes.reverse := by
  rw [ofList, get?_insertMany]
  exact Option.or_none

/-- Writing the entries of a map gives the map. -/
@[simp] theorem ofList_entries (map : OrderedMap α) : ofList map.entries = map := by
  apply ext_of_keys
  · rw [keys_ofList]
    exact eraseDups_of_nodup map.nodup_keys
  · intro key
    rw [get?_ofList, read_reverse map.nodup_keys]
    rfl

lemma insert_ofList (writes : List (String × α)) (key : String) (value : α) :
    (ofList writes).insert key value = ofList (writes ++ [(key, value)]) :=
  (insertMany_concat empty writes key value).symm

/-! #### Unions -/

theorem keys_union (map other : OrderedMap α) :
    (map.union other).keys = (map.keys ++ other.keys).eraseDups :=
  keys_insertMany map other.entries

theorem get?_union (map other : OrderedMap α) (key : String) :
    (map.union other).get? key = (other.get? key).or (map.get? key) := by
  rw [union, get?_insertMany, read_reverse other.nodup_keys]
  rfl

theorem union_assoc (map other third : OrderedMap α) :
    (map.union other).union third = map.union (other.union third) := by
  apply ext_of_keys
  · simp only [keys_union, eraseDups_eraseDups_append, eraseDups_append_eraseDups,
      List.append_assoc]
  · intro key
    simp only [get?_union, Option.or_assoc]

/-- Writing a map once more changes nothing. -/
theorem union_union_self (map other : OrderedMap α) :
    (map.union other).union other = map.union other := by
  apply ext_of_keys
  · rw [keys_union, keys_union, eraseDups_eraseDups_append]
    exact eraseDups_append_of_subset (List.subset_append_right _ _)
  · intro key
    rw [get?_union, get?_union, ← Option.or_assoc, Option.or_self]

@[simp] theorem empty_union (map : OrderedMap α) : (∅ : OrderedMap α).union map = map :=
  ofList_entries map

@[simp] theorem union_self (map : OrderedMap α) : map.union map = map := by
  simpa using union_union_self ∅ map

/-- The union of what two lists write is what they write one after the other. -/
theorem union_ofList (writes more : List (String × α)) :
    (ofList writes).union (ofList more) = ofList (writes ++ more) := by
  apply ext_of_keys
  · rw [keys_union, keys_ofList, keys_ofList, keys_ofList, eraseDups_eraseDups_append,
      eraseDups_append_eraseDups, List.map_append]
  · intro key
    rw [get?_union, get?_ofList, get?_ofList, get?_ofList, List.reverse_append, read_append]

end OrderedMap

/-! ### Sets -/

namespace OrderedSet

variable {set other : OrderedSet}

lemma ext_of_toList (h : set.toList = other.toList) : set = other := by
  cases set
  cases other
  cases h
  rfl

/-- An element is at the place where it was first added. -/
theorem toList_insertMany (set : OrderedSet) (names : List String) :
    (set.insertMany names).toList = (set.toList ++ names).eraseDups := by
  induction names using List.reverseRecOn with
  | nil => simp [insertMany, eraseDups_of_nodup set.nodup]
  | append_singleton names name ih =>
    have hlast : set.insertMany (names ++ [name]) = (set.insertMany names).insert name :=
      List.foldl_append
    rw [hlast, toList_insert, ← List.append_assoc, eraseDups_concat]
    simp only [mem_iff, ih, List.mem_eraseDups]

theorem toList_ofList (names : List String) : (ofList names).toList = names.eraseDups :=
  toList_insertMany empty names

/-- Adding the elements of a set gives the set. -/
@[simp] theorem ofList_toList (set : OrderedSet) : ofList set.toList = set := by
  apply ext_of_toList
  rw [toList_ofList]
  exact eraseDups_of_nodup set.nodup

theorem toList_union (set other : OrderedSet) :
    (set.union other).toList = (set.toList ++ other.toList).eraseDups :=
  toList_insertMany set other.toList

theorem union_assoc (set other third : OrderedSet) :
    (set.union other).union third = set.union (other.union third) := by
  apply ext_of_toList
  simp only [toList_union, eraseDups_eraseDups_append, eraseDups_append_eraseDups,
    List.append_assoc]

/-- Adding elements that are there changes nothing. -/
theorem union_of_subset (h : other.toList ⊆ set.toList) : set.union other = set := by
  apply ext_of_toList
  rw [toList_union, eraseDups_append_of_subset h]
  exact eraseDups_of_nodup set.nodup

lemma subset_union_left (set other : OrderedSet) : set.toList ⊆ (set.union other).toList := by
  intro name hname
  simp [toList_union, hname]

lemma subset_union_right (set other : OrderedSet) : other.toList ⊆ (set.union other).toList := by
  intro name hname
  simp [toList_union, hname]

theorem union_union_self (set other : OrderedSet) :
    (set.union other).union other = set.union other :=
  union_of_subset (subset_union_right set other)

@[simp] theorem union_self (set : OrderedSet) : set.union set = set :=
  union_of_subset (List.Subset.refl _)

/-- The union of what two lists add is what they add one after the other. -/
theorem union_ofList (names more : List String) :
    (ofList names).union (ofList more) = ofList (names ++ more) := by
  apply ext_of_toList
  simp only [toList_union, toList_ofList, eraseDups_eraseDups_append, eraseDups_append_eraseDups]

end OrderedSet

end SchemaTyping
