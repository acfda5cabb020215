import SchemaTyping.Declaration.Basic
import SchemaTyping.MetadataError

/-!
# Enumerations of qualified names

Constants of such an enumeration are written as URIs: a namespace followed by a local part. At
most one constant stands for every other name, and no URI may occur twice.
-/

namespace SchemaTyping

namespace QNameInfo

/-- The namespace of constants that name none: of the enumeration, else of its package, else
empty. -/
def commonNamespace (info : QNameInfo) (package : Option Package) : String :=
  (info.namespaceUri <|> package.bind Package.namespaceUri).getD ""

/-- The word for a base in a message. -/
def baseWord : QNameBase → String
  | .uri => "URI"
  | .qname => "QNAME"

end QNameInfo

/-- The URI of a constant. -/
def Constant.uri (constant : Constant) (common : String) : String :=
  constant.namespaceUri.getD common ++ constant.localPart.getD constant.name

namespace Declaration

/-- The constants with their URIs, in order, and the constant for unknown names. The URIs in
`seen` and the constant in `unknown` come from constants before these. -/
def tabulate (declaration : Declaration) (common : String) :
    List Constant → List String → Option String →
      Except MetadataError (List (String × String) × Option String)
  | [], _, unknown => .ok ([], unknown)
  | constant :: rest, seen, unknown =>
    if constant.unknown then
      match unknown with
      | some _ => .error (.duplicateUnknownQName declaration.name)
      | none => declaration.tabulate common rest seen (some constant.name)
    else if constant.exclude then declaration.tabulate common rest seen unknown
    else
      let uri := constant.uri common
      if uri ∈ seen then .error (.duplicateQNameValue declaration.name uri)
      else do
        let (table, unknown) ← declaration.tabulate common rest (uri :: seen) unknown
        return ((constant.name, uri) :: table, unknown)

/-- The table of an enumeration of qualified names: constants with their URIs, and at the end
the constant for unknown names, without one. -/
def qnameTable (declaration : Declaration) (info : QNameInfo) (package : Option Package) :
    Except MetadataError (List (String × Option String)) :=
  match info.base with
  | .qname => .error (.qnameEnumBase declaration.name (QNameInfo.baseWord info.base))
  | .uri => do
    let (table, unknown) ←
      declaration.tabulate (info.commonNamespace package) declaration.constants [] none
    return table.map (fun entry => (entry.1, some entry.2)) ++
      unknown.toList.map fun name => (name, none)

section

variable {declaration other : Declaration}

/-- Of the declaration itself only its name is in the table, as part of errors. -/
theorem tabulate_congr (hname : declaration.name = other.name) (common : String)
    (constants : List Constant) (seen : List String) (unknown : Option String) :
    declaration.tabulate common constants seen unknown =
      other.tabulate common constants seen unknown := by
  induction constants generalizing seen unknown with
  | nil => rfl
  | cons constant rest ih => simp only [tabulate, ih, hname]

/-- A table is made of a name, constants and a namespace. -/
theorem qnameTable_congr (hname : declaration.name = other.name)
    (hconstants : declaration.constants = other.constants) (info : QNameInfo)
    {package package' : Option Package}
    (hpackage : package.bind Package.namespaceUri = package'.bind Package.namespaceUri) :
    declaration.qnameTable info package = other.qnameTable info package' := by
  rw [qnameTable, qnameTable, QNameInfo.commonNamespace, QNameInfo.commonNamespace, hpackage,
    tabulate_congr hname, hconstants, hname]

end

end Declaration

end SchemaTyping
