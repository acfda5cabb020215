import SchemaTyping.ClientName.PackageRule

/-!
# Command-line arguments

The arguments name a command and its options. They are read from left to right, and the first one
that is wrong, or that asks for help, decides.
-/

namespace SchemaTyping

/-- What the program is asked to do. -/
inductive Command where
  | schema
  | describe
  | clientNames
deriving DecidableEq, Inhabited, Repr

/-- The commands by their words. -/
def Command.choices : List (String × Command) :=
  [("schema", .schema), ("describe", .describe), ("client-names", .clientNames)]

/-- Why the arguments name nothing to do. -/
inductive Refusal where
  | usage
  | help
deriving DecidableEq, Inhabited, Repr

/-- A command with its options. -/
structure Invocation where
  command : Command
  /-- Files with models, or patterns of paths. -/
  input : List String
  /-- A file with settings, merged over those of the models. -/
  settings : Option String
  /-- The names of the roots; all declarations if there are none. -/
  roots : List String
  /-- The file to be written in the place of the standard output. -/
  out : Option String
  rules : List PackageRule
deriving DecidableEq, Inhabited

/-- An option that takes a value. -/
inductive ValueOption where
  | input
  | settings
  | root
  | out
  | rule
deriving DecidableEq, Inhabited, Repr

namespace ValueOption

/-- Does a command have this option? -/
def isOf (option : ValueOption) (command : Command) : Bool :=
  match option, command with
  | .out, .describe => false
  | .rule, .schema | .rule, .describe => false
  | _, _ => true

/-- The options by their long words. -/
def choices : List (String × ValueOption) :=
  [("input", .input), ("settings", .settings), ("root", .root), ("out", .out),
    ("package-conversion", .rule)]

/-- The option of a command with a long word. -/
def ofWord? (command : Command) (word : String) : Option ValueOption :=
  (choices.lookup word).filter (·.isOf command)

/-- The option of a command with a letter. -/
def ofLetter? (command : Command) (letter : Char) : Option ValueOption :=
  ([('i', .input), ('o', .out)].lookup letter).filter fun option : ValueOption =>
    option.isOf command

end ValueOption

namespace Invocation

/-- The characters before the first equals sign, and those after it. -/
def splitAtEquals : List Char → Option (List Char × List Char)
  | [] => none
  | c :: rest =>
    if c = '=' then some ([], rest)
    else (splitAtEquals rest).map fun (before, after) => (c :: before, after)

/-- A package rule: a package that is not empty, an equals sign, and a name. -/
def readRule? (text : String) : Option PackageRule :=
  match splitAtEquals text.toList with
  | some (c :: source, target) => some ⟨String.ofList (c :: source), String.ofList target⟩
  | _ => none

/-- Set an option that may be given once and not with an empty value. -/
def setOnce (old : Option String) (value : String) : Except Refusal (Option String) :=
  if old.isSome ∨ value = "" then .error .usage else .ok (some value)

/-- Give an option a value. -/
def enter (invocation : Invocation) (option : ValueOption) (value : String) :
    Except Refusal Invocation :=
  match option with
  | .input => .ok { invocation with input := invocation.input ++ [value] }
  | .settings => do
    let settings ← setOnce invocation.settings value
    return { invocation with settings }
  | .root => .ok { invocation with roots := invocation.roots ++ [value] }
  | .out => do
    let out ← setOnce invocation.out value
    return { invocation with out }
  | .rule =>
    match readRule? value with
    | some rule => .ok { invocation with rules := invocation.rules ++ [rule] }
    | none => .error .usage

/-- Give an option several values. -/
def enterAll (invocation : Invocation) (option : ValueOption) :
    List String → Except Refusal Invocation
  | [] => .ok invocation
  | value :: values => do
    let invocation ← invocation.enter option value
    invocation.enterAll option values

end Invocation

/-- What one argument says. -/
inductive Argument where
  /-- Nothing that matters here. -/
  | flag
  /-- An option with its value. -/
  | given (option : ValueOption) (value : String)
  /-- An option whose value follows. -/
  | awaits (option : ValueOption)

namespace Argument

/-- May an argument be the value of the option before it? -/
def isValue (text : String) : Bool :=
  match text.toList with
  | '-' :: _ :: _ => false
  | _ => true

/-- Read letters that stand behind one dash. -/
def readLetters (option? : Char → Option ValueOption) : List Char → Except Refusal Argument
  | [] => .ok .flag
  | 'v' :: rest => readLetters option? rest
  | 'h' :: _ => .error .help
  | letter :: rest =>
    match option? letter, rest with
    | none, _ => .error .usage
    | some option, [] => .ok (.awaits option)
    | some option, '=' :: value => .ok (.given option (String.ofList value))
    | some option, value => .ok (.given option (String.ofList value))

/-- A word and the value that is attached to it by an equals sign. -/
def splitValue (text : List Char) : String × Option String :=
  match Invocation.splitAtEquals text with
  | some (word, value) => (String.ofList word, some (String.ofList value))
  | none => (String.ofList text, none)

/-- Read a word that stands behind two dashes. -/
def readWord (option? : String → Option ValueOption) (text : List Char) :
    Except Refusal Argument :=
  match splitValue text with
  | ("help", none) => .error .help
  | ("verbose", none) => .ok .flag
  | (word, value) =>
    match option? word, value with
    | none, _ => .error .usage
    | some option, none => .ok (.awaits option)
    | some option, some value => .ok (.given option value)

/-- Read an argument of a command. -/
def read (command : Command) (text : String) : Except Refusal Argument :=
  match text.toList with
  | '-' :: '-' :: word => readWord (ValueOption.ofWord? command) word
  | '-' :: letter :: letters => readLetters (ValueOption.ofLetter? command) (letter :: letters)
  | _ => .error .usage

end Argument

namespace Invocation

/-- Read the options of a command. -/
def readOptions (invocation : Invocation) : List String → Except Refusal Invocation
  | [] => .ok invocation
  | "--" :: rest => if rest.isEmpty then .ok invocation else .error .usage
  | text :: rest => do
    match ← Argument.read invocation.command text with
    | .flag => invocation.readOptions rest
    | .given option value =>
      let invocation ← invocation.enter option value
      invocation.readOptions rest
    | .awaits .input =>
      let values := rest.takeWhile Argument.isValue
      if values.isEmpty then throw .usage
      let invocation ← invocation.enterAll .input values
      invocation.readOptions (rest.dropWhile Argument.isValue)
    | .awaits option =>
      match rest with
      | [] => throw .usage
      | value :: rest =>
        if Argument.isValue value then
          let invocation ← invocation.enter option value
          invocation.readOptions rest
        else throw .usage
termination_by arguments => arguments.length
decreasing_by
  all_goals first
    | simp; done
    | have := (List.dropWhile_suffix (l := rest) Argument.isValue).length_le
      simp
      omega

/-- What is asked for after the word `help`: help on a command, or on all of them. -/
def readHelp : List String → Refusal
  | [] => .help
  | [word] => if word = "help" ∨ (Command.choices.lookup word).isSome then .help else .usage
  | _ => .usage

/-- Read all arguments of the program. -/
def read : List String → Except Refusal Invocation
  | [] => .error .usage
  | "help" :: rest => .error (readHelp rest)
  | "--" :: _ => .error .usage
  | text :: rest =>
    match Command.choices.lookup text with
    | some command => do
      let invocation ← readOptions ⟨command, [], none, [], none, []⟩ rest
      if invocation.input.isEmpty then throw .usage else return invocation
    | none =>
      let argument :=
        match text.toList with
        | '-' :: '-' :: word => Argument.readWord (fun _ => none) word
        | '-' :: letter :: letters => Argument.readLetters (fun _ => none) (letter :: letters)
        | _ => .error .usage
      match argument with
      | .ok _ => read rest
      | .error refusal => .error refusal

end Invocation

end SchemaTyping
