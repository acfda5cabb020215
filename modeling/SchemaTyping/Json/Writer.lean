import SchemaTyping.Json.Basic
import SchemaTyping.Json.Quoted

/-!
# Writing JSON text

A tree is written on one line without blanks (`Json.compact`), or over several lines with an
indentation of two blanks (`Json.pretty`).
-/

namespace SchemaTyping.Json

mutual
/-- The text of a tree on one line, without blanks. -/
def compact : Json → String
  | .null => "null"
  | .bool true => "true"
  | .bool false => "false"
  | .number text => text
  | .string text => Quoted.encode text
  | .array [] => "[]"
  | .array (item :: rest) => "[" ++ item.compact ++ compactItems rest ++ "]"
  | .object [] => "\x7b\x7d"
  | .object ((key, value) :: rest) =>
    "\x7b" ++ Quoted.encode key ++ ":" ++ value.compact ++ compactMembers rest ++ "\x7d"

/-- Further items, each after its comma. -/
def compactItems : List Json → String
  | [] => ""
  | item :: rest => "," ++ item.compact ++ compactItems rest

/-- Further members, each after its comma. -/
def compactMembers : List (String × Json) → String
  | [] => ""
  | (key, value) :: rest =>
    "," ++ Quoted.encode key ++ ":" ++ value.compact ++ compactMembers rest
end

/-- A line break and the indentation of a level. -/
def newline (level : Nat) : String :=
  String.ofList ('\n' :: List.replicate (2 * level) ' ')

mutual
/-- The text of a tree with one item or member a line, as it stands at a level of indentation. -/
def prettyAt (level : Nat) : Json → String
  | .null => "null"
  | .bool true => "true"
  | .bool false => "false"
  | .number text => text
  | .string text => Quoted.encode text
  | .array [] => "[]"
  | .array (item :: rest) =>
    "[" ++ newline (level + 1) ++ item.prettyAt (level + 1) ++ prettyItems (level + 1) rest ++
      newline level ++ "]"
  | .object [] => "\x7b\x7d"
  | .object ((key, value) :: rest) =>
    "\x7b" ++ newline (level + 1) ++ Quoted.encode key ++ ": " ++ value.prettyAt (level + 1) ++
      prettyMembers (level + 1) rest ++ newline level ++ "\x7d"

/-- Further items, each on a line of its own. -/
def prettyItems (level : Nat) : List Json → String
  | [] => ""
  | item :: rest => "," ++ newline level ++ item.prettyAt level ++ prettyItems level rest

/-- Further members, each on a line of its own. -/
def prettyMembers (level : Nat) : List (String × Json) → String
  | [] => ""
  | (key, value) :: rest =>
    "," ++ newline level ++ Quoted.encode key ++ ": " ++ value.prettyAt level ++
      prettyMembers level rest
end

/-- The text of a tree over several lines. -/
def pretty (tree : Json) : String :=
  tree.prettyAt 0

end SchemaTyping.Json
