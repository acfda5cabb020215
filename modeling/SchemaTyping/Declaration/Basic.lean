import SchemaTyping.QualifiedName
import SchemaTyping.TypeUse.Basic

/-!
# Declarations

A declaration tells what stands behind a qualified name: its supertypes and members, and the
metadata that replaces it when it is bound. A package carries a namespace and adapters for all
declarations in it.
-/

namespace SchemaTyping

/-- The kinds of declarations. -/
inductive DeclarationKind where
  | plainClass
  | interface
  | enumeration
deriving DecidableEq, Inhabited, Repr

/-- An adapter binds a type in the place of another one. In a package, `adapted` tells which type
it replaces. -/
structure Adapter where
  target : TypeUse
  adapted : Option TypeUse
deriving DecidableEq, Inhabited

/-- How a declaration is serialized: by a serializer of its own, or as another type. -/
structure Serialization where
  custom : Bool
  substitute : Option TypeUse
deriving DecidableEq, Inhabited

/-- What the constants of an enumeration of qualified names are written as. -/
inductive QNameBase where
  | uri
  | qname
deriving DecidableEq, Inhabited, Repr

/-- The metadata of an enumeration whose constants stand for qualified names. -/
structure QNameInfo where
  base : QNameBase
  namespaceUri : Option String
deriving DecidableEq, Inhabited

/-- A constant of an enumeration. -/
structure Constant where
  name : String
  namespaceUri : Option String
  localPart : Option String
  exclude : Bool
  /-- Does this constant stand for every name that no other constant has? -/
  unknown : Bool
deriving DecidableEq, Inhabited

/-- A member of a declaration. -/
structure Member where
  name : String
  type : TypeUse
  typeHint : Option TypeUse
  adapter : Option Adapter
deriving DecidableEq, Inhabited

/-- The type of a member: its hint if it has one. -/
def Member.effectiveType (member : Member) : TypeUse :=
  member.typeHint.getD member.type

/-- A declared class, interface or enumeration. -/
structure Declaration where
  name : String
  kind : DeclarationKind
  typeParams : List String
  supertypes : List TypeUse
  typeHint : Option TypeUse
  serialization : Option Serialization
  adapter : Option Adapter
  /-- Excluded from binding: as a component it narrows to the object type. -/
  transient : Bool
  members : List Member
  qnameInfo : Option QNameInfo
  constants : List Constant
  clientName : Option String
deriving DecidableEq, Inhabited

namespace Declaration

/-- A class of a name about which nothing else is known. -/
def bare (name : String) : Declaration where
  name := name
  kind := .plainClass
  typeParams := []
  supertypes := []
  typeHint := none
  serialization := none
  adapter := none
  transient := false
  members := []
  qnameInfo := none
  constants := []
  clientName := none

/-- The package of a declaration. -/
def package (declaration : Declaration) : String :=
  packageOf declaration.name

/-- The simple name of a declaration. -/
def simpleName (declaration : Declaration) : String :=
  simpleNameOf declaration.name

/-- A declaration used as a type, with its own parameters as arguments. -/
def asType (declaration : Declaration) : TypeUse :=
  .declared declaration.name (declaration.typeParams.map fun param => .var param none)

/-- The type that a declaration is serialized as, if it names one. -/
def substitute? (declaration : Declaration) : Option TypeUse :=
  declaration.serialization.bind Serialization.substitute

/-- The type that the adapter of a declaration binds in its place. -/
def target? (declaration : Declaration) : Option TypeUse :=
  declaration.adapter.map Adapter.target

/-- Does a declaration have a serializer of its own? -/
def hasCustomSerializer (declaration : Declaration) : Bool :=
  declaration.serialization.any Serialization.custom

/-- The names that a declaration brings into the classification of its uses. -/
def names (declaration : Declaration) : List String :=
  TypeUse.namesOfArgs (declaration.supertypes ++ declaration.typeHint.toList ++
    declaration.substitute?.toList ++ declaration.target?.toList)

end Declaration

/-- A package: a namespace, and adapters for the declarations in it. -/
structure Package where
  name : String
  namespaceUri : Option String
  adapters : List Adapter
deriving DecidableEq, Inhabited

end SchemaTyping
