import SchemaTyping.Json.Decoding
import SchemaTyping.TypeUse.Basic

/-!
# Type uses as JSON

A type use is an object with one member, whose key tells the form of the type. Empty argument
lists and absent bounds are not written.
-/

namespace SchemaTyping

open Decoded JsonSource

/-- The primitive types by their words. -/
def PrimitiveKind.choices : List (String × PrimitiveKind) :=
  [("boolean", .boolean), ("byte", .byte), ("short", .short), ("int", .int), ("long", .long),
    ("char", .char), ("float", .float), ("double", .double)]

/-- The forms of a type use. -/
inductive TypeForm where
  | primitive
  | declared
  | array
  | var
  | wildcard
deriving DecidableEq

/-- The forms by their keys. -/
def TypeForm.choices : List (String × TypeForm) :=
  [("primitive", .primitive), ("declared", .declared), ("array", .array), ("var", .var),
    ("wildcard", .wildcard)]

namespace TypeUse

mutual
/-- Write a type use. -/
def toJson : TypeUse → Json
  | .primitive kind => .object [("primitive", .string kind.name)]
  | .declared name [] => .object [("declared", .object [("name", .string name)])]
  | .declared name (arg :: rest) =>
    .object [("declared", .object
      [("name", .string name), ("args", .array (arg.toJson :: toJsonArgs rest))])]
  | .array component => .object [("array", component.toJson)]
  | .var name none => .object [("var", .object [("name", .string name)])]
  | .var name (some bound) =>
    .object [("var", .object [("name", .string name), ("bound", bound.toJson)])]
  | .wildcard none => .object [("wildcard", .object [])]
  | .wildcard (some bound) => .object [("wildcard", .object [("extends", bound.toJson)])]

/-- Write a list of type uses. -/
def toJsonArgs : List TypeUse → List Json
  | [] => []
  | arg :: rest => arg.toJson :: toJsonArgs rest
end

theorem toJsonArgs_eq_map (args : List TypeUse) : toJsonArgs args = args.map toJson := by
  induction args with
  | nil => rfl
  | cons arg rest ih => rw [toJsonArgs, ih, List.map_cons]

/-- An optional value that is smaller than a bound. -/
def optionalBelow {α : Type} {bound : Nat}
    (read : (tree : JsonSource) → sizeOf tree < bound → Decoded α) :
    (tree : JsonSource) → sizeOf tree < bound → Decoded (Option α)
  | .null, _ => .ok none
  | tree, h => some <$> read tree h

/-- Read a type use. -/
def decode : JsonSource → Decoded TypeUse
  | .object ((key, content) :: more) closed =>
    have _hsize : sizeOf content < sizeOf (JsonSource.object ((key, content) :: more) closed) :=
      sizeOf_lt_of_mem_members List.mem_cons_self
    let readBelow (tree : JsonSource) (_ : sizeOf tree < sizeOf content) : Decoded TypeUse :=
      decode tree
    asTagged TypeForm.choices key closed more fun form =>
      match form with
      | .primitive => .primitive <$> asChoice PrimitiveKind.choices content
      | .declared => do
        let (name, args) ← asRecord content
          [field _ "name" true asString fun name body => (name, body.2),
            ⟨"args", false, fun tree h body =>
              (fun args => (body.1, args)) <$>
                asListBelow (sizeOf content) readBelow tree (Nat.le_of_lt h)⟩]
          (("", []) : String × List TypeUse)
        return .declared name args
      | .array => .array <$> decode content
      | .var => do
        let (name, bound) ← asRecord content
          [field _ "name" true asString fun name body => (name, body.2),
            ⟨"bound", false, fun tree h body =>
              (fun bound => (body.1, bound)) <$> optionalBelow readBelow tree h⟩]
          (("", none) : String × Option TypeUse)
        return .var name bound
      | .wildcard => do
        let bound ← asRecord content
          [⟨"extends", false, fun tree h _ => optionalBelow readBelow tree h⟩]
          (none : Option TypeUse)
        return .wildcard bound
  | .string word =>
    match TypeForm.choices.lookup word with
    | some _ => within (.key word) (fail .invalid)
    | none => fail (.unknownVariant word (TypeForm.choices.map Prod.fst))
  | tree => tree.refuse
termination_by tree => sizeOf tree
decreasing_by all_goals omega

end TypeUse

end SchemaTyping
