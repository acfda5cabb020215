import SchemaTyping.Classification.Visit

/-!
# Classification of declarations

A declaration is classified with its members, in order. A member is adapted before it is
classified: the adapting type takes the place of the element, inside the same layer. The tables
of adapters are handed from one step to the next.
-/

namespace SchemaTyping

/-- The schema type of a declaration and of each of its members. -/
structure DeclarationSchema where
  name : String
  type : SchemaType
  members : OrderedMap SchemaType
deriving DecidableEq

namespace Classifier

/-- Classify a member's type when its adaptation is known. -/
def visitAdapted (classifier : Classifier) (type : TypeUse) :
    Option Adaptation → Except MetadataError SchemaType
  | some adaptation =>
    classifier.visit adaptation.adapting (.ofWrapping adaptation.wrapping) ∅
  | none => classifier.classify type

/-- Classify a member of a declaration. -/
def classifyMember (classifier : Classifier) (tables : AdapterTables) (owner : Declaration)
    (member : Member) : Except MetadataError SchemaType × AdapterTables :=
  let type := member.effectiveType
  let (adaptation, tables) :=
    classifier.graph.adaptation? tables (TypeGraph.positionOf owner member) type
  (adaptation.bind (classifier.visitAdapted type), tables)

/-- Classify members in order and write their schema types over those before. The first error
ends it. -/
def classifyMembers (classifier : Classifier) (owner : Declaration) :
    AdapterTables → List Member → OrderedMap SchemaType →
      Except MetadataError (OrderedMap SchemaType) × AdapterTables
  | tables, [], types => (.ok types, tables)
  | tables, member :: rest, types =>
    match classifier.classifyMember tables owner member with
    | (.error error, tables) => (.error error, tables)
    | (.ok type, tables) =>
      classifier.classifyMembers owner tables rest (types.insert member.name type)

/-- Classify a declaration: first its own type, then its members. -/
def classifyDeclaration (classifier : Classifier) (tables : AdapterTables)
    (declaration : Declaration) : Except MetadataError DeclarationSchema × AdapterTables :=
  match classifier.classify declaration.asType with
  | .error error => (.error error, tables)
  | .ok type =>
    let (members, tables) :=
      classifier.classifyMembers declaration tables declaration.members ∅
    (members.map fun members => ⟨declaration.name, type, members⟩, tables)

/-- Classify declarations in order; an error in one of them does not touch the others. -/
def classifyAll (classifier : Classifier) :
    AdapterTables → List Declaration →
      List (Except MetadataError DeclarationSchema) × AdapterTables
  | tables, [] => ([], tables)
  | tables, declaration :: rest =>
    let (result, tables) := classifier.classifyDeclaration tables declaration
    let (results, tables) := classifier.classifyAll tables rest
    (result :: results, tables)

end Classifier

end SchemaTyping
