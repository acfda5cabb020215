import SchemaTyping.Json.Basic

/-!
# JSON as it stands in a text

A text is read into a tree also when it is faulty. The tree then tells where the text goes wrong:
a list or an object may end without being closed, a key may be unreadable, and something that is no
value may stand where a value should. So a decoder that goes through the tree in text order meets
the faults of the text in their order.
-/

namespace SchemaTyping

/-- What a text says at the place of a JSON value. -/
inductive JsonSource where
  | null
  | bool (value : Bool)
  | number (text : String)
  | string (text : String)
  /-- Items, and whether the bracket that ends them is there. -/
  | array (items : List JsonSource) (closed : Bool)
  /-- Members in text order, and whether the brace that ends them is there. A key that cannot be
  read is none. -/
  | object (members : List (Option String × JsonSource)) (closed : Bool)
  /-- Text of JSON form that stands for no value: it may be passed over but not used. -/
  | unusable
  /-- Text that is not even of JSON form. -/
  | missing
deriving Inhabited

namespace JsonSource

mutual
/-- Is there text in this tree that is not of JSON form? -/
def isMalformed : JsonSource → Bool
  | .missing => true
  | .array items closed => !closed || itemsMalformed items
  | .object members closed => !closed || membersMalformed members
  | _ => false

/-- The same for one of the items. -/
def itemsMalformed : List JsonSource → Bool
  | [] => false
  | item :: rest => item.isMalformed || itemsMalformed rest

/-- The same for one of the members. -/
def membersMalformed : List (Option String × JsonSource) → Bool
  | [] => false
  | (_, value) :: rest => value.isMalformed || membersMalformed rest
end

/-! ### Sizes of parts -/

theorem sizeOf_lt_of_mem_members {key : Option String} {value : JsonSource} {closed : Bool}
    {members : List (Option String × JsonSource)} (h : (key, value) ∈ members) :
    sizeOf value < sizeOf (JsonSource.object members closed) := by
  have := List.sizeOf_lt_of_mem h
  simp at this ⊢
  omega

theorem sizeOf_lt_of_mem_items {item : JsonSource} {items : List JsonSource} {closed : Bool}
    (h : item ∈ items) : sizeOf item < sizeOf (JsonSource.array items closed) := by
  have := List.sizeOf_lt_of_mem h
  simp
  omega

end JsonSource

/-! ### Trees without faults -/

namespace Json

mutual
/-- A tree as a text says it that has no faults. -/
def source : Json → JsonSource
  | .null => .null
  | .bool value => .bool value
  | .number text => .number text
  | .string text => .string text
  | .array items => .array (sourceItems items) true
  | .object members => .object (sourceMembers members) true

/-- The same for a list of items. -/
def sourceItems : List Json → List JsonSource
  | [] => []
  | item :: rest => item.source :: sourceItems rest

/-- The same for a list of members. -/
def sourceMembers : List (String × Json) → List (Option String × JsonSource)
  | [] => []
  | (key, value) :: rest => (some key, value.source) :: sourceMembers rest
end

theorem sourceItems_eq_map (items : List Json) : sourceItems items = items.map source := by
  induction items with
  | nil => rfl
  | cons item rest ih => rw [sourceItems, ih, List.map_cons]

theorem sourceMembers_eq_map (members : List (String × Json)) :
    sourceMembers members = members.map fun member => (some member.1, member.2.source) := by
  induction members with
  | nil => rfl
  | cons member rest ih => rw [sourceMembers, ih, List.map_cons]

end Json

end SchemaTyping
