import SchemaTyping.ClientName.Naming
import SchemaTyping.CommandLine.Arguments
import SchemaTyping.Document
import SchemaTyping.Files.Loading
import SchemaTyping.Json.Writer
import SchemaTyping.Text.Blank

/-!
# Running a command

A command loads its models from a space of files and makes a text from the roots. The text goes to
the standard output or to a file. Roots that cannot be classified are reported and left out; a
command fails if no root is left.
-/

namespace SchemaTyping

/-- Why a command fails. -/
inductive CommandError where
  | expansion (error : LoadError)
  | models (error : LoadError)
  | settings (error : LoadError)
  | everyRoot
  | member (owner member : String) (error : MetadataError)
  | makeDirectory (path : String) (failure : FileFailure)
  | write (path : String) (failure : FileFailure)

/-- An error with the errors behind it, outermost first. -/
def LoadError.chain (error : LoadError) : List String :=
  match error with
  | .unreadable _ failure => [error.message, failure.message]
  | _ => [error.message]

/-- The messages of an error and of the errors behind it, outermost first. -/
def CommandError.chain : CommandError → List String
  | expansion error => error.chain
  | models error => "failed to load models" :: error.chain
  | settings error => error.chain
  | everyRoot => ["every root failed to classify"]
  | member owner name error => [owner ++ "." ++ name, error.message]
  | makeDirectory path failure => ["failed to create " ++ path, failure.message]
  | write path failure => ["failed to write " ++ path, failure.message]

/-- A file that is written: its path as it was given, its place, and its text. -/
structure WrittenFile where
  path : String
  place : Place
  text : String
deriving DecidableEq, Inhabited

/-- Where the text of a command goes. -/
inductive Delivery where
  | print (text : String)
  | write (file : WrittenFile)

/-- What a command does: the messages about roots that were left out, and its text or error. -/
structure Outcome where
  messages : List String
  result : Except CommandError Delivery

namespace Invocation

/-- Load the models and settings that an invocation names. -/
def loadModel (invocation : Invocation) (space : FileSpace) : Except CommandError Model := do
  let paths ← (space.expand invocation.input).mapError .expansion
  let model ← (space.loadModels paths).mapError .models
  match invocation.settings with
  | none => return model
  | some path =>
    let settings ← (space.loadSettings path).mapError .settings
    return { model with settings := model.settings.merge settings }

/-- The roots that an invocation names, or all. -/
def rootsOf (invocation : Invocation) (model : Model) : List Declaration :=
  model.graph.roots (if invocation.roots.isEmpty then none else some invocation.roots)

/-- Bring a text to where an invocation wants it. The directories around a file are made first. -/
def deliver (invocation : Invocation) (space : FileSpace) (text : String) :
    Except CommandError Delivery :=
  match invocation.out with
  | none => .ok (.print (text ++ "\n"))
  | some path => do
    let directories := directoriesOf path
    let space ← (space.makeDirectories directories).mapError
      (.makeDirectory (directories.head?.getD ""))
    let place ← (space.placeForFile path).mapError (.write path)
    return .write ⟨path, place, text⟩

/-! ### Classified roots -/

/-- The roots that can be classified, and a message for each of the others. -/
def classifiedRoots (invocation : Invocation) (model : Model) :
    List DeclarationSchema × List String :=
  let roots := invocation.rootsOf model
  let (results, _) := model.classifier.classifyAll ∅ roots
  (results.filterMap fun
    | .ok schema => some schema
    | .error _ => none,
  (roots.zip results).filterMap fun
    | (_, .ok _) => none
    | (root, .error error) => some ("error: " ++ root.name ++ ": " ++ error.message ++ "\n"))

/-- Make a text from the roots that can be classified. -/
def runClassified (invocation : Invocation) (space : FileSpace)
    (deliver : List DeclarationSchema → Except CommandError Delivery) : Outcome :=
  match invocation.loadModel space with
  | .error error => ⟨[], .error error⟩
  | .ok model =>
    let (schemas, messages) := invocation.classifiedRoots model
    ⟨messages,
      if schemas.isEmpty && !messages.isEmpty then .error .everyRoot else deliver schemas⟩

/-- The lines that describe a classified declaration. -/
def description (schema : DeclarationSchema) : String :=
  schema.name ++ arrow ++ schema.type.text ++ "\n" ++
    String.join (schema.members.entries.map fun (member, type) =>
      "    " ++ member ++ ": " ++ type.text ++ "\n")

/-! ### Client names -/

/-- The lines with the client names of the members of a declaration. -/
def memberLines (naming : ClientNaming) (owner : Declaration) :
    List Member → Except CommandError String
  | [] => .ok ""
  | member :: rest => do
    let name ← (naming.memberName owner member).mapError (.member owner.name member.name)
    let lines ← memberLines naming owner rest
    return "    " ++ member.name ++ ": " ++ name ++ "\n" ++ lines

/-- The lines with the client names of declarations and their members. -/
def clientLines (naming : ClientNaming) : List Declaration → Except CommandError String
  | [] => .ok ""
  | declaration :: rest => do
    let members ← memberLines naming declaration declaration.members
    let lines ← clientLines naming rest
    return naming.declarationName declaration ++ " (" ++
      declaration.clientSimpleNameWithParams ++ ")\n" ++ members ++ lines

/-- Make the text of client names. -/
def runClientNames (invocation : Invocation) (space : FileSpace) :
    Except CommandError Delivery := do
  let model ← invocation.loadModel space
  let naming := model.graph.naming.addRules invocation.rules
  let lines ← clientLines naming (invocation.rootsOf model)
  invocation.deliver space (trimBlankEnd lines)

/-- Run a command on a space of files. -/
def run (invocation : Invocation) (space : FileSpace) : Outcome :=
  match invocation.command with
  | .schema =>
    invocation.runClassified space fun schemas =>
      invocation.deliver space (document schemas).pretty
  | .describe =>
    invocation.runClassified space fun schemas =>
      .ok (.print (String.join (schemas.map description)))
  | .clientNames => ⟨[], invocation.runClientNames space⟩

end Invocation

end SchemaTyping
