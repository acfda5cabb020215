import SchemaTyping.TypeUse.Basic

/-!
# Schema types

The closed vocabulary into which type uses are classified. A class is a name only: the structure
behind it is described elsewhere.
-/

namespace SchemaTyping

/-- The two kinds of numbers. -/
inductive NumberKind where
  | whole
  | number
deriving DecidableEq, Inhabited, Repr

/-- The width of a number, where it is known. -/
inductive NumberFormat where
  | int32
  | int64
  | float
  | double
deriving DecidableEq, Inhabited, Repr

/-- The word for a format. -/
def NumberFormat.name : NumberFormat → String
  | int32 => "int32"
  | int64 => "int64"
  | float => "float"
  | double => "double"

/-- A schema type. -/
inductive SchemaType where
  | numeric (kind : NumberKind) (format : Option NumberFormat)
  | string
  | boolean
  | object
  | reference (name : String)
  | array (items : SchemaType)
  | map (key value : SchemaType)
deriving DecidableEq, Inhabited, Repr

namespace SchemaType

/-- Put one array layer around a type if asked to. -/
def wrapIf (wrap : Bool) (type : SchemaType) : SchemaType :=
  if wrap then .array type else type

/-- Is this an array or a map? -/
def isContainer : SchemaType → Bool
  | .array _ | .map _ _ => true
  | _ => false

/-- Is this a number of either kind? -/
def isNumber : SchemaType → Bool
  | .numeric _ _ => true
  | _ => false

/-- Is this a whole number? -/
def isWholeNumber : SchemaType → Bool
  | .numeric .whole _ => true
  | _ => false

/-- The format of a number. -/
def format? : SchemaType → Option NumberFormat
  | .numeric _ format => format
  | _ => none

/-- The word for the kind of a number. -/
def numberWord : NumberKind → String
  | .whole => "integer"
  | .number => "number"

/-- A schema type in one line. -/
def text : SchemaType → String
  | .numeric kind none => numberWord kind
  | .numeric kind (some format) => numberWord kind ++ "(" ++ format.name ++ ")"
  | .string => "string"
  | .boolean => "boolean"
  | .object => "object"
  | .reference name => name
  | .array items => "array<" ++ items.text ++ ">"
  | .map key value => "map<" ++ key.text ++ ", " ++ value.text ++ ">"

end SchemaType

/-- The schema type of a primitive type on its own. A character is a string of length one. -/
def PrimitiveKind.schemaType : PrimitiveKind → SchemaType
  | boolean => .boolean
  | byte | short => .numeric .whole none
  | int => .numeric .whole (some .int32)
  | long => .numeric .whole (some .int64)
  | char => .string
  | float => .numeric .number (some .float)
  | double => .numeric .number (some .double)

end SchemaTyping
