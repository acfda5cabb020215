/-!
# JSON trees

The tree that is written as JSON text. Objects keep their members in order, and a number is its
text.
-/

namespace SchemaTyping

/-- A JSON tree. -/
inductive Json where
  | null
  | bool (value : Bool)
  | number (text : String)
  | string (text : String)
  | array (items : List Json)
  | object (members : List (String × Json))
deriving Inhabited

namespace Json

/-- A natural number. -/
def ofNat (n : Nat) : Json := .number (Nat.repr n)

/-- A text, or `null` for none. -/
def ofString? (text : Option String) : Json :=
  match text with
  | some t => .string t
  | none => .null

/-- A list of texts. -/
def ofStrings (texts : List String) : Json := .array (texts.map .string)

/-- The member that an optional value adds to an object. -/
def memberOf? {α : Type} (key : String) (encode : α → Json) : Option α → List (String × Json)
  | some value => [(key, encode value)]
  | none => []

/-- The member that a list adds to an object: nothing if it is empty. -/
def memberOfList {α : Type} (key : String) (encode : α → Json) : List α → List (String × Json)
  | [] => []
  | items => [(key, .array (items.map encode))]

end Json

end SchemaTyping
