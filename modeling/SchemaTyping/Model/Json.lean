import SchemaTyping.Declaration.Json
import SchemaTyping.Model.Basic
import SchemaTyping.SchemaType.Json

/-!
# Models as JSON

Declarations and packages are written as lists and kept by name. All five parts of a model are
written.
-/

namespace SchemaTyping.Model

open Decoded Json JsonSource

/-- Write a model. -/
def toJson (model : Model) : Json :=
  .object [("declarations", .array (model.declarations.values.map Declaration.toJson)),
    ("packages", .array (model.packages.values.map Package.toJson)),
    ("known", .object (model.known.entries.map fun entry => (entry.1, entry.2.toJson))),
    ("definitions", ofStrings model.definitions.toList),
    ("settings", model.settings.toJson)]

/-- A list of values, kept by name. -/
def readNamed {α : Type} (read : JsonSource → Decoded α) (name : α → String) (tree : JsonSource) :
    Decoded (OrderedMap α) :=
  (fun values => .ofList (values.map fun value => (name value, value))) <$> asList read tree

/-- The entries of an object of schema types. -/
def readKnownMembers : List (Option String × JsonSource) → Decoded (List (String × SchemaType))
  | [] => .ok []
  | (none, _) :: _ => within .unreadableKey (fail .unreadable)
  | (some key, value) :: rest => do
    let type ← within (.key key) (SchemaType.decode value)
    let entries ← readKnownMembers rest
    return (key, type) :: entries

/-- Schema types by name. -/
def readKnown : JsonSource → Decoded (OrderedMap SchemaType)
  | .object members closed => do
    let entries ← readKnownMembers members
    requireClosed closed
    return .ofList entries
  | tree => tree.refuse

/-- Read a model; a part that is absent is empty or has its standard value. -/
def decode (tree : JsonSource) : Decoded Model :=
  asRecord tree
    [field _ "declarations" false (readNamed Declaration.decode Declaration.name)
        fun declarations m => { m with declarations },
      field _ "packages" false (readNamed Package.decode Package.name)
        fun packages m => { m with packages },
      field _ "known" false readKnown fun known m => { m with known },
      field _ "definitions" false Settings.readNames fun definitions m => { m with definitions },
      field _ "settings" false Settings.decode fun settings m => { m with settings }]
    empty

end SchemaTyping.Model
