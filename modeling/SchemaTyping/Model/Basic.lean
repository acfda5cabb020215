import SchemaTyping.Declaration.Basic
import SchemaTyping.OrderedMap
import SchemaTyping.SchemaType.Basic
import SchemaTyping.Settings

/-!
# Models

A model describes a program: its declarations and packages, the schema types and type
definitions that are known in advance, and the settings. Models are merged entry by entry, and
the later one wins.
-/

namespace SchemaTyping

/-- A description of a program. -/
structure Model where
  declarations : OrderedMap Declaration
  packages : OrderedMap Package
  /-- Schema types that are not derived, by qualified name. -/
  known : OrderedMap SchemaType
  /-- Names with a structured definition. -/
  definitions : OrderedSet
  settings : Settings
deriving DecidableEq

namespace Model

/-- The model without entries. -/
def empty : Model := ⟨∅, ∅, ∅, ∅, .standard⟩

instance : EmptyCollection Model := ⟨empty⟩

instance : Inhabited Model := ⟨empty⟩

/-- Add a declaration under its name. -/
def insert (model : Model) (declaration : Declaration) : Model :=
  { model with declarations := model.declarations.insert declaration.name declaration }

/-- Add a package under its name. -/
def insertPackage (model : Model) (package : Package) : Model :=
  { model with packages := model.packages.insert package.name package }

/-- Add all that another model has. -/
def merge (model other : Model) : Model where
  declarations := model.declarations.union other.declarations
  packages := model.packages.union other.packages
  known := model.known.union other.known
  definitions := model.definitions.union other.definitions
  settings := model.settings.merge other.settings

/-- Merge models from left to right. -/
def mergeAll (models : List Model) : Model :=
  models.foldl merge ∅

end Model

end SchemaTyping
