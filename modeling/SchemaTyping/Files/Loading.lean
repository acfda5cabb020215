import SchemaTyping.Files.Glob
import SchemaTyping.Json.Text
import SchemaTyping.Model.Json

/-!
# Loading models from files

A model is read from one file or merged from several. What cannot be loaded is reported with the
path of the file, and with the place in it where the text is wrong.
-/

namespace SchemaTyping

/-- Why a file could not be loaded. -/
inductive LoadError where
  | unreadable (path : String) (failure : FileFailure)
  | malformed (path : String) (fault : Fault)
  | pattern (error : PatternError)

/-- The wording of an error. What is said of a text stops at the place of the fault, where an arrow
stands before the cause. -/
def LoadError.message : LoadError → String
  | unreadable path failure => "failed to read " ++ path ++ ": " ++ failure.message
  | malformed path fault =>
    firstPart ("failed to parse " ++ path ++ ": at JSON path " ++ Fault.pathText fault.path)
  | pattern error => "invalid input pattern: " ++ error.message

namespace FileSpace

/-- Load a file whose text is decoded. -/
def load {α : Type} (space : FileSpace) (decode : JsonSource → Decoded α) (path : String) :
    Except LoadError α := do
  let text ← (space.read path).mapError (.unreadable path)
  (JsonSource.decodeText decode text).mapError (.malformed path)

/-- Load a model. -/
def loadModel (space : FileSpace) (path : String) : Except LoadError Model :=
  space.load Model.decode path

/-- Load settings. -/
def loadSettings (space : FileSpace) (path : String) : Except LoadError Settings :=
  space.load Settings.decode path

/-- Load models into one that is there, from left to right. -/
def loadInto (space : FileSpace) : Model → List String → Except LoadError Model
  | model, [] => .ok model
  | model, path :: rest => do
    let other ← space.loadModel path
    space.loadInto (model.merge other) rest

/-- Load models and merge them from left to right. -/
def loadModels (space : FileSpace) (paths : List String) : Except LoadError Model :=
  space.loadInto ∅ paths

/-- The paths that several texts stand for. -/
def expand (space : FileSpace) (texts : List String) : Except LoadError (List String) :=
  (PathPattern.expandAll space texts).mapError .pattern

end FileSpace

end SchemaTyping
