import SchemaTyping.Json.Decoding
import SchemaTyping.SchemaType.Basic

/-!
# Schema types as JSON

A schema type is an object whose member `type` is the tag of its form, or an array that starts
with the tag. The tag may stand after the other members, so these are kept until the whole object
is there: a fault inside a schema type is reported at the outermost schema type around it. The
tag of a nested schema type may also be given by its position in the list of tags.
-/

namespace SchemaTyping

open Decoded JsonSource

/-- The kinds of numbers by their words. -/
def NumberKind.choices : List (String × NumberKind) :=
  [("whole_number", .whole), ("number", .number)]

/-- The word for a kind of numbers in a file. -/
def NumberKind.name : NumberKind → String
  | whole => "whole_number"
  | number => "number"

/-- The formats by their words. -/
def NumberFormat.choices : List (String × NumberFormat) :=
  [("int32", .int32), ("int64", .int64), ("float", .float), ("double", .double)]

/-- The forms of a schema type. -/
inductive SchemaTag where
  | primitive
  | string
  | boolean
  | object
  | reference
  | array
  | map
deriving DecidableEq

/-- The forms by their words. -/
def SchemaTag.choices : List (String × SchemaTag) :=
  [("primitive", .primitive), ("string", .string), ("boolean", .boolean), ("object", .object),
    ("class", .reference), ("array", .array), ("map", .map)]

namespace SchemaType

/-- Write a schema type. -/
def toJson : SchemaType → Json
  | .numeric kind format =>
    .object ([("type", .string "primitive"), ("kind", .string kind.name)] ++
      Json.memberOf? "format" (fun f => .string f.name) format)
  | .string => .object [("type", .string "string")]
  | .boolean => .object [("type", .string "boolean")]
  | .object => .object [("type", .string "object")]
  | .reference name => .object [("type", .string "class"), ("name", .string name)]
  | .array items => .object [("type", .string "array"), ("items", items.toJson)]
  | .map key value =>
    .object [("type", .string "map"), ("key", key.toJson), ("value", value.toJson)]

/-! ### Tags -/

/-- A tag given by its word. -/
def tagOfWord : JsonSource → Decoded SchemaTag
  | .string word =>
    match SchemaTag.choices.lookup word with
    | some tag => .ok tag
    | none => fail (.unknownVariant word (SchemaTag.choices.map Prod.fst))
  | tree => tree.refuse

/-- A tag given by its word or by its position among the words. -/
def tagOfWordOrPosition : JsonSource → Decoded SchemaTag
  | .number position =>
    match ["0", "1", "2", "3", "4", "5", "6"].zip (SchemaTag.choices.map Prod.snd)
      |>.lookup position with
    | some tag => .ok tag
    | none => fail .invalid
  | tree => tagOfWord tree

/-- The tag among the members of an object. All other members have to be readable, and the object
has to be closed. -/
def tagOfMembers (readTag : JsonSource → Decoded SchemaTag) (closed : Bool) :
    Option SchemaTag → List (Option String × JsonSource) → Decoded SchemaTag
  | tag, [] => do
    requireClosed closed
    match tag with
    | some tag => return tag
    | none => fail (.missingField "type")
  | _, (none, _) :: _ => within .unreadableKey (fail .unreadable)
  | tag, (some key, value) :: rest =>
    if key = "type" then
      match tag with
      | some _ => fail (.duplicateField "type")
      | none => do
        let tag ← within (.key key) (readTag value)
        tagOfMembers readTag closed (some tag) rest
    else
      match value.unreadableAt? with
      | some path => .error ⟨.key key :: path, .unreadable⟩
      | none => tagOfMembers readTag closed tag rest

/-- The tag at the head of an array. All other items have to be readable, and the array has to be
closed. -/
def tagOfItems (readTag : JsonSource → Decoded SchemaTag) (closed : Bool) :
    List JsonSource → Decoded SchemaTag
  | [] => do
    requireClosed closed
    fail (.missingField "type")
  | first :: rest => do
    let tag ← within (.index 0) (readTag first)
    match unreadableItem? closed 1 rest with
    | some path => .error ⟨path, .unreadable⟩
    | none => return tag

/-- The tag of a tree, and the tree without it. -/
def splitTag (readTag : JsonSource → Decoded SchemaTag) :
    JsonSource → Decoded (SchemaTag × JsonSource)
  | .object members closed =>
    (·, .object (members.filter (·.1 ≠ some "type")) closed) <$>
      tagOfMembers readTag closed none members
  | .array items closed => (·, .array items.tail closed) <$> tagOfItems readTag closed items
  | tree => tree.refuse

theorem sizeOf_filter_le (p : Option String × JsonSource → Bool)
    (members : List (Option String × JsonSource)) :
    sizeOf (members.filter p) ≤ sizeOf members := by
  induction members with
  | nil => simp
  | cons member rest ih =>
    rw [List.filter_cons]
    split <;> simp <;> omega

theorem sizeOf_le_of_splitTag {readTag : JsonSource → Decoded SchemaTag}
    {tree content : JsonSource} {tag : SchemaTag}
    (h : splitTag readTag tree = .ok (tag, content)) : sizeOf content ≤ sizeOf tree := by
  cases tree with
  | object members closed =>
    rw [splitTag] at h
    cases htag : tagOfMembers readTag closed none members with
    | error fault => simp [htag, Functor.map, Except.map] at h
    | ok found =>
      simp only [htag, Functor.map, Except.map, Except.ok.injEq, Prod.mk.injEq] at h
      have := sizeOf_filter_le (·.1 ≠ some "type") members
      rw [← h.2]
      simp at this ⊢
      omega
  | array items closed =>
    rw [splitTag] at h
    cases htag : tagOfItems readTag closed items with
    | error fault => simp [htag, Functor.map, Except.map] at h
    | ok found =>
      simp only [htag, Functor.map, Except.map, Except.ok.injEq, Prod.mk.injEq] at h
      rw [← h.2]
      cases items <;> simp
  | _ => simp [splitTag, refuse, fail] at h

/-! ### Forms -/

/-- One of several words in a tree that is kept: as a string, or as the only key of an object
whose value is `null` or an object without members. -/
def keptChoice {α : Type} (choices : List (String × α)) : JsonSource → Decoded α
  | .string word => asChoice choices (.string word)
  | .object [(some key, content)] _ =>
    match choices.lookup key, content with
    | none, _ => fail (.unknownVariant key (choices.map Prod.fst))
    | some value, .null | some value, .object [] _ => .ok value
    | some _, _ => fail .invalid
  | tree => tree.refuse

/-- A form without fields. -/
def unit (type : SchemaType) : JsonSource → Decoded SchemaType
  | .object _ _ | .array [] _ => .ok type
  | _ => fail .invalid

/-- A number: its kind and its format. -/
def readNumeric (content : JsonSource) : Decoded SchemaType := do
  let (kind, format) ← asRecord content
    [field _ "kind" true (keptChoice NumberKind.choices) fun kind body => (kind, body.2),
      field _ "format" false (asOptional (keptChoice NumberFormat.choices))
        fun format body => (body.1, format)]
    ((default, none) : NumberKind × Option NumberFormat)
  return .numeric kind format

/-- A reference to a class: its name. -/
def readReference (content : JsonSource) : Decoded SchemaType := do
  let name ← asRecord content [field _ "name" true asString fun name _ => name] ""
  return .reference name

/-- Read a schema type whose tag is read in a given way. Faults inside its content have no path
of their own. -/
def decodeTagged (readTag : JsonSource → Decoded SchemaTag) (tree : JsonSource) :
    Decoded SchemaType :=
  match _h : splitTag readTag tree with
  | .error fault => .error fault
  | .ok (tag, content) =>
    have _hsize : sizeOf content ≤ sizeOf tree := sizeOf_le_of_splitTag _h
    let readBelow (part : JsonSource) (_ : sizeOf part < sizeOf content) : Decoded SchemaType :=
      decodeTagged tagOfWordOrPosition part
    withoutPath <|
      match tag with
      | .primitive => readNumeric content
      | .string => unit .string content
      | .boolean => unit .boolean content
      | .object => unit .object content
      | .reference => readReference content
      | .array => do
        let items ← asRecord content
          [⟨"items", true, fun part h _ => readBelow part h⟩] SchemaType.object
        return .array items
      | .map => do
        let (key, value) ← asRecord content
          [⟨"key", true, fun part h body => (·, body.2) <$> readBelow part h⟩,
            ⟨"value", true, fun part h body => (body.1, ·) <$> readBelow part h⟩]
          (SchemaType.object, SchemaType.object)
        return .map key value
termination_by sizeOf tree
decreasing_by all_goals omega

/-- Read a schema type. -/
def decode (tree : JsonSource) : Decoded SchemaType :=
  decodeTagged tagOfWord tree

end SchemaType

end SchemaTyping
