import SchemaTyping.Container
import SchemaTyping.MetadataError

/-!
# Adaptations

The element of a member is adapted by the first adapter that is found on the member, on the
declaration of the element, or in the package around the member. The adapters of a package are
tabulated when they are first asked for, and the table is kept; a table that cannot be made keeps
its error.
-/

namespace SchemaTyping

/-- Adapters by the names of the types that they adapt. -/
abbrev AdapterTable := OrderedMap Adapter

/-- The level on which an adapter was found. -/
inductive AdapterLevel where
  | member
  | type
  | package
deriving DecidableEq, Inhabited, Repr

/-- Where an adapter is looked for: on a member, and in a package. -/
structure AdapterPosition where
  member : Option Adapter
  package : Option String
deriving DecidableEq, Inhabited

/-- The type that is bound in the place of an element, and the layer that stands around it. -/
structure Adaptation where
  adapting : TypeUse
  level : AdapterLevel
  wrapping : Wrapping
deriving DecidableEq, Inhabited

namespace TypeGraph

/-! ### Package tables -/

/-- Enter adapters in a table; each has to name a declared type. -/
def tabulateAdapters (package : String) :
    List Adapter → AdapterTable → Except MetadataError AdapterTable
  | [], table => .ok table
  | adapter :: rest, table =>
    match adapter.adapted with
    | none => .error (.packageAdapterWithoutType package)
    | some adapted =>
      match adapted.declaredName? with
      | none => .error (.unadaptableType package adapted.text)
      | some name => tabulateAdapters package rest (table.insert name adapter)

/-- The table of a package; a package that is not described has no adapters. -/
def adapterTable (graph : TypeGraph) (package : String) : Except MetadataError AdapterTable :=
  match graph.package? package with
  | none => .ok ∅
  | some described => tabulateAdapters package described.adapters ∅

end TypeGraph

/-- The tables that have been made, by package. -/
structure AdapterTables where
  made : OrderedMap (Except MetadataError AdapterTable)

namespace AdapterTables

/-- No tables. -/
def empty : AdapterTables := ⟨∅⟩

instance : EmptyCollection AdapterTables := ⟨empty⟩

instance : Inhabited AdapterTables := ⟨empty⟩

/-- The number of tables. -/
def size (tables : AdapterTables) : Nat :=
  tables.made.size

/-- The table of a package, made now unless it was made before. -/
def table (tables : AdapterTables) (graph : TypeGraph) (package : String) :
    Except MetadataError AdapterTable × AdapterTables :=
  match tables.made.get? package with
  | some table => (table, tables)
  | none =>
    let table := graph.adapterTable package
    (table, ⟨tables.made.insert package table⟩)

/-- The adapter that a package has for a name. -/
def lookup (tables : AdapterTables) (graph : TypeGraph) (package name : String) :
    Except MetadataError (Option Adapter) × AdapterTables :=
  let (table, tables) := tables.table graph package
  (table.map (·.get? name), tables)

end AdapterTables

namespace TypeGraph

/-! ### Adapters of declarations -/

/-- The type that the adapter of a declaration binds in the place of a use of it. An adapter that
leads back to the use, or to the declaration itself, has no effect. -/
def adapting? (declaration : Declaration) (use : TypeUse) : Option TypeUse :=
  declaration.target?.filter fun target => target ≠ use ∧ target ≠ declaration.asType

/-- The adaptation of a use by the adapter of its declaration. -/
def adaptationOf? (declaration : Declaration) (use : TypeUse) : Option Adaptation :=
  (adapting? declaration use).map fun target => ⟨target, .type, .none⟩

/-- The adapter of the declaration behind a name. -/
def adapterOf? (graph : TypeGraph) (name : String) : Option Adapter :=
  (graph.declaration? name).bind Declaration.adapter

/-! ### Adapters of elements -/

/-- The first adapter for an element. The package is consulted only if neither the member nor the
declaration of the element has one. -/
def candidate (graph : TypeGraph) (tables : AdapterTables) (position : AdapterPosition)
    (element : TypeUse) :
    Except MetadataError (Option (Adapter × AdapterLevel)) × AdapterTables :=
  match position.member, element.declaredName? with
  | some adapter, _ => (.ok (some (adapter, .member)), tables)
  | none, none => (.ok none, tables)
  | none, some name =>
    match graph.adapterOf? name, position.package with
    | some adapter, _ => (.ok (some (adapter, .type)), tables)
    | none, none => (.ok none, tables)
    | none, some package =>
      let (found, tables) := tables.lookup graph package name
      (found.map (·.map fun adapter => (adapter, .package)), tables)

/-- What a candidate says about an element: an adapter that leads back to the element has no
effect. -/
def adaptationBy (element : TypeUse) (wrapping : Wrapping)
    (candidate : Option (Adapter × AdapterLevel)) : Option Adaptation :=
  match candidate with
  | none => none
  | some (adapter, level) =>
    if adapter.target = element then none else some ⟨adapter.target, level, wrapping⟩

/-- The adaptation of the element of a type use. -/
def adaptation? (graph : TypeGraph) (tables : AdapterTables) (position : AdapterPosition)
    (type : TypeUse) : Except MetadataError (Option Adaptation) × AdapterTables :=
  let (element, wrapping) := graph.element type
  let (found, tables) := graph.candidate tables position element
  (found.map (adaptationBy element wrapping), tables)

/-- Where the adapters of a member of a declaration are looked for. -/
def positionOf (owner : Declaration) (member : Member) : AdapterPosition :=
  ⟨member.adapter, some owner.package⟩

end TypeGraph

end SchemaTyping
