/-!
# Metadata errors

The combinations of metadata that cannot be described as a schema. Each of them ends the
classification of the root in which it is met.
-/

namespace SchemaTyping

/-- Metadata that has no meaning. -/
inductive MetadataError where
  /-- A package has an adapter that does not tell which type it adapts. -/
  | packageAdapterWithoutType (package : String)
  /-- A package has an adapter for a type that is no declared use. -/
  | unadaptableType (package type : String)
  /-- An enumeration of qualified names is not written as URIs. -/
  | qnameEnumBase (name base : String)
  /-- Two constants stand for the unknown name. -/
  | duplicateUnknownQName (name : String)
  /-- Two constants have the same URI. -/
  | duplicateQNameValue (name uri : String)
deriving DecidableEq, Inhabited, Repr

/-- The wording of an error. -/
def MetadataError.message : MetadataError → String
  | packageAdapterWithoutType package =>
    "package " ++ package ++ ": a type must be specified for each package-level adapter"
  | unadaptableType package type => "package " ++ package ++ ": unadaptable type: " ++ type
  | qnameEnumBase name base =>
    "qname enum " ++ name ++ " cannot be serialized to JSON because its base is " ++ base
  | duplicateUnknownQName name =>
    name ++ ": no more than one constant can be marked as the unknown qname value"
  | duplicateQNameValue name uri => name ++ ": duplicate qname enum value: " ++ uri

end SchemaTyping
