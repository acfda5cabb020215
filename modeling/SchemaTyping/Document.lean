import SchemaTyping.Classification.Declaration
import SchemaTyping.Json.Basic

/-!
# Schema documents

Schema types are written as JSON schemas. A document has one definition for each classified
declaration, and references point into it.
-/

namespace SchemaTyping

/-- The path of a definition in a document. -/
def referencePath (name : String) : String :=
  "#/definitions/" ++ name

theorem referencePath_injective {name other : String}
    (h : referencePath name = referencePath other) : name = other := by
  rw [referencePath, referencePath] at h
  exact (String.append_right_inj _).1 h

namespace SchemaType

/-- The pattern that a map key has to match. Keys are strings in any case, so only keys of
numbers have one. -/
def keyPattern? : SchemaType → Option String
  | .numeric .whole _ => some "^-?[0-9]+$"
  | .numeric .number _ => some "^-?[0-9]+(\\.[0-9]+)?([eE][-+]?[0-9]+)?$"
  | _ => none

/-- The members of the schema of a type. -/
def schemaMembers : SchemaType → List (String × Json)
  | .numeric kind format =>
    ("type", .string (numberWord kind)) ::
      Json.memberOf? "format" (fun f => .string f.name) format
  | .string => [("type", .string "string")]
  | .boolean => [("type", .string "boolean")]
  | .object => [("type", .string "object")]
  | .reference name => [("$ref", .string (referencePath name))]
  | .array items => [("type", .string "array"), ("items", .object items.schemaMembers)]
  | .map key value =>
    [("type", .string "object"), ("additionalProperties", .object value.schemaMembers)] ++
      Json.memberOf? "propertyNames" (fun p => .object [("pattern", .string p)]) key.keyPattern?

/-- The schema of a type. -/
def schema (type : SchemaType) : Json :=
  .object type.schemaMembers

end SchemaType

namespace DeclarationSchema

/-- The members of the definition of a declaration, apart from its title. -/
def bodyMembers (declaration : DeclarationSchema) : List (String × Json) :=
  if declaration.members.entries.isEmpty then declaration.type.schemaMembers
  else
    [("type", .string "object"),
      ("properties", .object
        (declaration.members.entries.map fun entry => (entry.1, entry.2.schema)))]

/-- The definition of a declaration: its properties if it has members, else the schema of its own
type, and its name as the title. -/
def definition (declaration : DeclarationSchema) : Json :=
  .object (declaration.bodyMembers ++ [("title", .string declaration.name)])

end DeclarationSchema

/-- The definitions of declarations by name. -/
def definitionsOf (declarations : List DeclarationSchema) : OrderedMap Json :=
  .ofList (declarations.map fun declaration => (declaration.name, declaration.definition))

/-- The document of a list of declarations. -/
def document (declarations : List DeclarationSchema) : Json :=
  .object [("definitions", .object (definitionsOf declarations).entries)]

end SchemaTyping
