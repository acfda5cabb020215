import SchemaTyping.Model.Basic

/-!
# Registries

A registry holds the schema types that are not derived from declarations, and the names that
have a structured definition.
-/

namespace SchemaTyping

/-- Known schema types and defined names. -/
structure Registry where
  known : OrderedMap SchemaType
  definitions : OrderedSet
deriving DecidableEq

namespace Registry

/-- The registry in which nothing is known. -/
def empty : Registry := ⟨∅, ∅⟩

instance : EmptyCollection Registry := ⟨empty⟩

instance : Inhabited Registry := ⟨empty⟩

/-- Set the schema type of a name. -/
def register (registry : Registry) (name : String) (type : SchemaType) : Registry :=
  { registry with known := registry.known.insert name type }

/-- Add a name with a structured definition. -/
def define (registry : Registry) (name : String) : Registry :=
  { registry with definitions := registry.definitions.insert name }

/-- The schema types of the value classes that every program knows. -/
def builtinTypes : List (String × SchemaType) :=
  [("java.lang.String", .string), ("java.lang.Character", .string), ("java.util.UUID", .string),
    ("java.net.URI", .string), ("java.net.URL", .string),
    ("javax.xml.namespace.QName", .string), ("java.util.Locale", .string),
    ("java.util.TimeZone", .string), ("javax.xml.datatype.Duration", .string),
    ("java.util.Date", .numeric .whole (some .int64)),
    ("java.util.Calendar", .numeric .whole (some .int64)),
    ("java.util.GregorianCalendar", .numeric .whole (some .int64)),
    ("java.sql.Timestamp", .numeric .whole (some .int64)),
    ("javax.xml.datatype.XMLGregorianCalendar", .numeric .whole (some .int64)),
    ("java.lang.Boolean", .boolean), ("java.lang.Integer", .numeric .whole (some .int32)),
    ("java.lang.Long", .numeric .whole (some .int64)),
    ("java.lang.Short", .numeric .whole none), ("java.lang.Byte", .numeric .whole none),
    ("java.math.BigInteger", .numeric .whole none),
    ("java.lang.Float", .numeric .number (some .float)),
    ("java.lang.Double", .numeric .number (some .double)),
    ("java.math.BigDecimal", .numeric .number none), ("java.lang.Object", .object)]

/-- The registry of the value classes. -/
def builtins : Registry := ⟨.ofList builtinTypes, ∅⟩

/-- The value classes with all that a model knows written over them. -/
def ofModel (model : Model) : Registry :=
  ⟨builtins.known.union model.known, builtins.definitions.union model.definitions⟩

/-- The schema type that is known for a name. -/
def known? (registry : Registry) (name : String) : Option SchemaType :=
  registry.known.get? name

/-- The reference to the definition of a name, if it has one. -/
def definition? (registry : Registry) (name : String) : Option SchemaType :=
  if name ∈ registry.definitions then some (.reference name) else none

/-- What the registry says about a name: a known type comes before a definition. -/
def lookup (registry : Registry) (name : String) : Option SchemaType :=
  registry.known? name <|> registry.definition? name

end Registry

end SchemaTyping
