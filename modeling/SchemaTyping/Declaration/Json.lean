import SchemaTyping.Declaration.Basic
import SchemaTyping.TypeUse.Json

/-!
# Declarations as JSON

Empty lists and absent values are not written; the flags and the kind always are.
-/

namespace SchemaTyping

open Json JsonSource

/-- The kinds of declarations by their words. -/
def DeclarationKind.choices : List (String × DeclarationKind) :=
  [("class", .plainClass), ("interface", .interface), ("enum", .enumeration)]

/-- The word for a kind. -/
def DeclarationKind.name : DeclarationKind → String
  | plainClass => "class"
  | interface => "interface"
  | enumeration => "enum"

/-- The bases of qualified names by their words. -/
def QNameBase.choices : List (String × QNameBase) :=
  [("uri", .uri), ("qname", .qname)]

/-- The word for a base. -/
def QNameBase.name : QNameBase → String
  | uri => "uri"
  | qname => "qname"

namespace Adapter

/-- Write an adapter. -/
def toJson (adapter : Adapter) : Json :=
  .object ([("target", adapter.target.toJson)] ++
    memberOf? "type" TypeUse.toJson adapter.adapted)

/-- Read an adapter. -/
def decode (tree : JsonSource) : Decoded Adapter :=
  asRecord tree
    [field _ "target" true TypeUse.decode fun target a => { a with target },
      field _ "type" false (asOptional TypeUse.decode) fun adapted a => { a with adapted }]
    ⟨default, none⟩

end Adapter

namespace Serialization

/-- Write the serialization of a declaration. -/
def toJson (serialization : Serialization) : Json :=
  .object ([("custom_serializer", .bool serialization.custom)] ++
    memberOf? "as" TypeUse.toJson serialization.substitute)

/-- Read the serialization of a declaration. -/
def decode (tree : JsonSource) : Decoded Serialization :=
  asRecord tree
    [field _ "custom_serializer" false asBool fun custom s => { s with custom },
      field _ "as" false (asOptional TypeUse.decode) fun substitute s => { s with substitute }]
    ⟨false, none⟩

end Serialization

namespace QNameInfo

/-- Write the metadata of an enumeration of qualified names. -/
def toJson (info : QNameInfo) : Json :=
  .object ([("base", .string info.base.name)] ++
    memberOf? "namespace" .string info.namespaceUri)

/-- Read the metadata of an enumeration of qualified names. -/
def decode (tree : JsonSource) : Decoded QNameInfo :=
  asRecord tree
    [field _ "base" false (asChoice QNameBase.choices) fun base i => { i with base },
      field _ "namespace" false (asOptional asString)
        fun namespaceUri i => { i with namespaceUri }]
    ⟨.uri, none⟩

end QNameInfo

namespace Constant

/-- Write a constant. -/
def toJson (constant : Constant) : Json :=
  .object ([("name", .string constant.name)] ++
    memberOf? "namespace" .string constant.namespaceUri ++
    memberOf? "local_part" .string constant.localPart ++
    [("exclude", .bool constant.exclude), ("unknown", .bool constant.unknown)])

/-- Read a constant. -/
def decode (tree : JsonSource) : Decoded Constant :=
  asRecord tree
    [field _ "name" true asString fun name c => { c with name },
      field _ "namespace" false (asOptional asString)
        fun namespaceUri c => { c with namespaceUri },
      field _ "local_part" false (asOptional asString) fun localPart c => { c with localPart },
      field _ "exclude" false asBool fun exclude c => { c with exclude },
      field _ "unknown" false asBool fun unknown c => { c with unknown }]
    ⟨"", none, none, false, false⟩

end Constant

namespace Member

/-- Write a member. -/
def toJson (member : Member) : Json :=
  .object ([("name", .string member.name), ("ty", member.type.toJson)] ++
    memberOf? "type_hint" TypeUse.toJson member.typeHint ++
    memberOf? "adapter" Adapter.toJson member.adapter)

/-- Read a member. -/
def decode (tree : JsonSource) : Decoded Member :=
  asRecord tree
    [field _ "name" true asString fun name m => { m with name },
      field _ "ty" true TypeUse.decode fun type m => { m with type },
      field _ "type_hint" false (asOptional TypeUse.decode) fun typeHint m => { m with typeHint },
      field _ "adapter" false (asOptional Adapter.decode) fun adapter m => { m with adapter }]
    ⟨"", default, none, none⟩

end Member

namespace Declaration

/-- Write a declaration. -/
def toJson (declaration : Declaration) : Json :=
  .object ([("name", .string declaration.name),
      ("kind", .string declaration.kind.name)] ++
    memberOfList "type_params" .string declaration.typeParams ++
    memberOfList "supertypes" TypeUse.toJson declaration.supertypes ++
    memberOf? "type_hint" TypeUse.toJson declaration.typeHint ++
    memberOf? "serialize" Serialization.toJson declaration.serialization ++
    memberOf? "adapter" Adapter.toJson declaration.adapter ++
    [("transient", .bool declaration.transient)] ++
    memberOfList "members" Member.toJson declaration.members ++
    memberOf? "qname_enum" QNameInfo.toJson declaration.qnameInfo ++
    memberOfList "constants" Constant.toJson declaration.constants ++
    memberOf? "client_name" .string declaration.clientName)

/-- Read a declaration. -/
def decode (tree : JsonSource) : Decoded Declaration :=
  asRecord tree
    [field _ "name" true asString fun name d => { d with name },
      field _ "kind" false (asChoice DeclarationKind.choices) fun kind d => { d with kind },
      field _ "type_params" false (asList asString) fun typeParams d => { d with typeParams },
      field _ "supertypes" false (asList TypeUse.decode)
        fun supertypes d => { d with supertypes },
      field _ "type_hint" false (asOptional TypeUse.decode) fun typeHint d => { d with typeHint },
      field _ "serialize" false (asOptional Serialization.decode)
        fun serialization d => { d with serialization },
      field _ "adapter" false (asOptional Adapter.decode) fun adapter d => { d with adapter },
      field _ "transient" false asBool fun transient d => { d with transient },
      field _ "members" false (asList Member.decode) fun members d => { d with members },
      field _ "qname_enum" false (asOptional QNameInfo.decode)
        fun qnameInfo d => { d with qnameInfo },
      field _ "constants" false (asList Constant.decode) fun constants d => { d with constants },
      field _ "client_name" false (asOptional asString)
        fun clientName d => { d with clientName }]
    (bare "")

end Declaration

namespace Package

/-- Write a package. -/
def toJson (package : Package) : Json :=
  .object ([("name", .string package.name)] ++
    memberOf? "namespace" .string package.namespaceUri ++
    memberOfList "adapters" Adapter.toJson package.adapters)

/-- Read a package. -/
def decode (tree : JsonSource) : Decoded Package :=
  asRecord tree
    [field _ "name" true asString fun name p => { p with name },
      field _ "namespace" false (asOptional asString)
        fun namespaceUri p => { p with namespaceUri },
      field _ "adapters" false (asList Adapter.decode) fun adapters p => { p with adapters }]
    ⟨"", none, []⟩

end Package

end SchemaTyping
