import SchemaTyping.Adaptation
import SchemaTyping.ClientName.PackageRule

/-!
# Client names

The name of a type in a PHP client. From a type one step leads either to its name or to another
type whose name it shares, perhaps with a pair of brackets for a layer that is left behind. A
chain of adapters that leads back to itself has the name `mixed`, which takes no brackets.
-/

namespace SchemaTyping

/-- How the types of a graph are named in a client. -/
structure ClientNaming where
  graph : TypeGraph
  rules : List PackageRule

/-- The client names of the types in a graph, without package rules. -/
def TypeGraph.naming (graph : TypeGraph) : ClientNaming := ⟨graph, []⟩

/-- The name of a type about which nothing is known. -/
def mixedName : String := "mixed"

/-- The name of a list of things about which nothing is known. -/
def arrayName : String := "array"

/-- The name of a list of things that have a name. -/
def bracketed (name : String) : String :=
  if name = mixedName then mixedName else name ++ "[]"

/-- The client name of a primitive type. -/
def PrimitiveKind.clientName : PrimitiveKind → String
  | boolean => "boolean"
  | byte | short | int | long => "integer"
  | float | double => "double"
  | char => "string"

/-- The client names of well-known classes. -/
def classNames : List (String × String) :=
  [("java.lang.Boolean", "boolean"), ("java.lang.String", "string"),
    ("java.lang.Integer", "integer"), ("java.lang.Short", "integer"),
    ("java.lang.Byte", "integer"), ("java.lang.Double", "double"),
    ("java.lang.Long", "integer"), ("java.math.BigInteger", "integer"),
    ("java.math.BigDecimal", "integer"), ("java.lang.Float", "double"),
    ("java.lang.Character", "string"), ("java.util.Date", "integer"),
    ("java.sql.Timestamp", "integer"), ("javax.activation.DataHandler", "byte[]"),
    ("java.awt.Image", "byte[]"), ("javax.xml.transform.Source", "string"),
    ("javax.xml.namespace.QName", "string"), ("java.net.URI", "string"),
    ("java.util.UUID", "string"), ("javax.xml.datatype.XMLGregorianCalendar", "integer"),
    ("java.util.GregorianCalendar", "integer"), ("java.util.Calendar", "integer"),
    ("javax.xml.datatype.Duration", "string"), ("javax.xml.bind.JAXBElement", "mixed"),
    ("java.lang.Object", "mixed")]

/-- Where a step from a type leads. -/
inductive NamingStep where
  /-- To the name. -/
  | ends (name : String)
  /-- Through a layer, which gives a pair of brackets. -/
  | layer (component : TypeUse)
  /-- To a bound. -/
  | bound (type : TypeUse)
  /-- From a declaration to the target of its adapter. -/
  | adapter (name : String) (target : TypeUse)

/-- The simple name of a declaration in a client. -/
def Declaration.clientSimpleName (declaration : Declaration) : String :=
  declaration.clientName.getD declaration.simpleName

/-- The simple name with the type parameters, if there are any. -/
def Declaration.clientSimpleNameWithParams (declaration : Declaration) : String :=
  match declaration.typeParams with
  | [] => declaration.clientSimpleName
  | params => declaration.clientSimpleName ++ "<" ++ ", ".intercalate params ++ ">"

namespace ClientNaming

/-- Add package rules after those that are there, and put the ones with longer sources first. -/
def addRules (naming : ClientNaming) (rules : List PackageRule) : ClientNaming :=
  { naming with rules := PackageRule.arrange (naming.rules ++ rules) }

/-- The client name of a package. -/
def packageName (naming : ClientNaming) (package : String) : String :=
  PackageRule.convert naming.rules package

/-- The name of a class by itself: its package and its simple name, each after a separator. -/
def className (naming : ClientNaming) (name : String) (declaration : Option Declaration) :
    String :=
  let simple := (declaration.bind Declaration.clientName).getD (simpleNameOf name)
  let separator := clientSeparator.toString
  if packageOf name = "" then separator ++ simple
  else separator ++ naming.packageName (packageOf name) ++ separator ++ simple

/-- Is a name by itself a container? -/
def isRawContainer (naming : ClientNaming) (name : String) : Bool :=
  naming.graph.isCollection (.declared name []) || naming.graph.isStream (.declared name []) ||
    naming.graph.isMap (.declared name [])

/-- The target of an adapter that does not lead back to the same name. -/
def adapterTarget? (name : String) (declaration : Option Declaration) : Option TypeUse :=
  (declaration.bind Declaration.target?).filter fun target => target.declaredName? ≠ some name

/-- Is this the declaration of an enumeration? -/
def isEnumeration (declaration : Option Declaration) : Bool :=
  declaration.any fun declaration => declaration.kind = .enumeration

/-- Where a declaration leads: to its name, or to the target of its adapter. -/
def nameOrTarget (naming : ClientNaming) (name : String) (declaration : Option Declaration) :
    String ⊕ TypeUse :=
  match classNames.lookup name with
  | some converted => .inl converted
  | none =>
    if isEnumeration declaration then .inl "string"
    else if naming.isRawContainer name then .inl arrayName
    else
      match adapterTarget? name declaration with
      | some target => .inr target
      | none => .inl (naming.className name declaration)

/-- The step from a collection or stream with the given arguments. -/
def sequenceStep : List TypeUse → NamingStep
  | [component] => .layer component
  | _ => .ends arrayName

/-- The step from an optional bound. -/
def boundStep : Option TypeUse → NamingStep
  | some type => .bound type
  | none => .ends mixedName

/-- The step from a type. -/
def step (naming : ClientNaming) : TypeUse → NamingStep
  | .primitive kind => .ends kind.clientName
  | .array component => .layer component
  | .var _ bound => boundStep bound
  | .wildcard bound => boundStep bound
  | .declared name args =>
    let declaration := naming.graph.declaration? name
    if isEnumeration declaration then .ends "string"
    else if naming.graph.isCollection (.declared name args) ||
        naming.graph.isStream (.declared name args) then
      sequenceStep args
    else
      match naming.nameOrTarget name declaration with
      | .inl ending => .ends ending
      | .inr target => .adapter name target

/-! ### Every walk ends -/

theorem isSome_of_nameOrTarget_eq_inr {naming : ClientNaming} {name : String}
    {declaration : Option Declaration} {target : TypeUse}
    (h : naming.nameOrTarget name declaration = .inr target) : declaration.isSome := by
  cases declaration with
  | some _ => rfl
  | none =>
    unfold nameOrTarget at h
    split at h
    · simp at h
    · by_cases hraw : naming.isRawContainer name <;>
        simp [isEnumeration, adapterTarget?, hraw] at h

/-- A step through a layer or to a bound leads to a smaller type. -/
theorem sizeOf_lt_of_step {naming : ClientNaming} {type next : TypeUse}
    (h : naming.step type = .layer next ∨ naming.step type = .bound next) :
    sizeOf next < sizeOf type := by
  cases type with
  | primitive kind => simp [step] at h
  | array component =>
    obtain rfl : component = next := by simpa [step] using h
    simp
  | var name bound =>
    cases bound with
    | none => simp [step, boundStep] at h
    | some b =>
      obtain rfl : b = next := by simpa [step, boundStep] using h
      simp
      omega
  | wildcard bound =>
    cases bound with
    | none => simp [step, boundStep] at h
    | some b =>
      obtain rfl : b = next := by simpa [step, boundStep] using h
      simp
      omega
  | declared name args =>
    simp only [step] at h
    split at h
    · simp at h
    · split at h
      · unfold sequenceStep at h
        split at h
        · obtain rfl : _ = next := by simpa using h
          simp
          omega
        · simp at h
      · split at h <;> simp at h

/-- A step to the target of an adapter starts at a declaration of the graph. -/
theorem declaration?_of_step {naming : ClientNaming} {type target : TypeUse} {name : String}
    (h : naming.step type = .adapter name target) :
    ∃ declaration, naming.graph.declaration? name = some declaration := by
  cases type with
  | declared source args =>
    simp only [step] at h
    split at h
    · simp at h
    · split at h
      · unfold sequenceStep at h
        split at h <;> simp at h
      · split at h
        · simp at h
        · next htarget =>
          obtain ⟨rfl, _⟩ : source = name ∧ _ = target := by simpa using h
          exact Option.isSome_iff_exists.1 (isSome_of_nameOrTarget_eq_inr htarget)
  | var _ bound => cases bound <;> simp [step, boundStep] at h
  | wildcard bound => cases bound <;> simp [step, boundStep] at h
  | _ => simp [step] at h

/-! ### Names -/

/-- The name of a type, when the adapters of the visited names have been followed. -/
def nameFrom (naming : ClientNaming) (type : TypeUse) (visited : List String) : String :=
  match _h : naming.step type with
  | .ends name => name
  | .layer component => bracketed (naming.nameFrom component visited)
  | .bound type => naming.nameFrom type visited
  | .adapter name target =>
    if _hvisited : name ∈ visited then mixedName
    else naming.nameFrom target (name :: visited)
termination_by (naming.graph.unvisited visited, sizeOf type)
decreasing_by
  · exact Prod.Lex.right _ (sizeOf_lt_of_step (Or.inl _h))
  · exact Prod.Lex.right _ (sizeOf_lt_of_step (Or.inr _h))
  · obtain ⟨_, hdecl⟩ := declaration?_of_step _h
    exact Prod.Lex.left _ _ (TypeGraph.unvisited_cons_lt hdecl _hvisited)

/-- The client name of a type. -/
def typeName (naming : ClientNaming) (type : TypeUse) : String :=
  naming.nameFrom type []

/-- The client name of a declaration, which need not be one of the graph. -/
def declarationName (naming : ClientNaming) (declaration : Declaration) : String :=
  match naming.nameOrTarget declaration.name (some declaration) with
  | .inl name => name
  | .inr target => naming.nameFrom target [declaration.name]

/-- The name of an adapted element, inside its layer. -/
def adaptedName (naming : ClientNaming) (adaptation : Adaptation) : String :=
  match adaptation.wrapping with
  | .none => naming.typeName adaptation.adapting
  | .array | .collection => bracketed (naming.typeName adaptation.adapting)

/-- The client name of the type of a member. -/
def memberName (naming : ClientNaming) (owner : Declaration) (member : Member) :
    Except MetadataError String :=
  let type := member.effectiveType
  let (adaptation, _) :=
    naming.graph.adaptation? ∅ (TypeGraph.positionOf owner member) type
  adaptation.map fun
    | some adaptation => naming.adaptedName adaptation
    | none => naming.typeName type

end ClientNaming

end SchemaTyping
