import SchemaTyping.CommandLine.Run

/-!
# The program

Reads the files that the arguments name, runs the command, and brings its text and its messages
to where they belong. Files are named relative to the working directory. Directories are not
listed, so a pattern finds no files but those that another argument names.
-/

namespace SchemaTyping

/-- How the program is called. -/
def usageText : String :=
  "usage: (schema | describe | client-names) --input FILE... [--settings FILE]\n" ++
    "       [--root NAME]...\n" ++
    "       [--out FILE] [--package-conversion FROM=TO]... [--verbose]...\n"

/-- The files that an invocation names and that can be read. -/
def readNamedFiles (invocation : Invocation) : IO (List (String × String)) := do
  let mut files := []
  for path in invocation.input ++ invocation.settings.toList do
    try
      let text ← IO.FS.readFile path
      files := files ++ [(path, text)]
    catch _ => pure ()
  return files

/-- Write a file, and make the directory around it. -/
def writeFile (file : WrittenFile) : IO Unit := do
  if let some directory := (directoriesOf file.path).head? then IO.FS.createDirAll directory
  IO.FS.writeFile file.path file.text

/-- Report an outcome, and tell whether the command succeeded. -/
def report (outcome : Outcome) : IO UInt32 := do
  for message in outcome.messages do
    IO.eprint message
  match outcome.result with
  | .ok (.print text) =>
    IO.print text
    return 0
  | .ok (.write file) =>
    try
      writeFile file
      return 0
    catch failure =>
      IO.eprintln ("failed to write " ++ file.path)
      IO.eprintln failure
      return 1
  | .error error =>
    for message in error.chain do
      IO.eprintln message
    return 1

end SchemaTyping

open SchemaTyping in
/-- Run the program with its arguments. -/
def main (arguments : List String) : IO UInt32 := do
  match Invocation.read arguments with
  | .error .help =>
    IO.print usageText
    return 0
  | .error .usage =>
    IO.eprint usageText
    return 2
  | .ok invocation =>
    let files ← readNamedFiles invocation
    report (invocation.run (FileSpace.ofFiles files))
