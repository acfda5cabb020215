import SchemaTyping.Files.Path
import SchemaTyping.Files.Tree

/-!
# The space of files

The files that a program can reach: those in its working directory, and those outside. A path is
followed segment by segment from the working directory, or from outside if it is absolute.
Directories are made, and files are written, only where the way to them exists.
-/

namespace SchemaTyping

/-- Why a path does not lead to what is asked of it. -/
inductive FileFailure where
  | missing
  | present
  | notDirectory
  | isDirectory
  | nameTooLong
  | nulInName
deriving DecidableEq, Inhabited, Repr

/-- The wording of a failure. -/
def FileFailure.message : FileFailure → String
  | missing => "No such file or directory (os error 2)"
  | present => "File exists (os error 17)"
  | notDirectory => "Not a directory (os error 20)"
  | isDirectory => "Is a directory (os error 21)"
  | nameTooLong => "File name too long (os error 36)"
  | nulInName => "file name contained an unexpected NUL byte"

/-- How many bytes a name may have. -/
def maxNameBytes : Nat := 255

/-- How many bytes a path may have. -/
def maxPathBytes : Nat := 4095

/-- The paths that the file system takes at all. -/
def checkPath (path : String) : Except FileFailure Unit :=
  if path = "" then .error .missing
  else if path.toList.contains '\x00' then .error .nulInName
  else if maxPathBytes < path.utf8ByteSize then .error .nameTooLong
  else .ok ()

/-- The two parts of a file space. -/
inductive Region where
  | inside
  | outside
deriving DecidableEq, Inhabited, Repr

/-- A place in a file space: the names that lead to it in its part, innermost first. -/
structure Place where
  region : Region
  names : List String
deriving DecidableEq, Inhabited, Repr

namespace Place

/-- The place where a path starts. -/
def start (path : String) : Place :=
  ⟨if isAbsolute path then .outside else .inside, []⟩

/-- The place of an entry. -/
def enter (place : Place) (name : String) : Place :=
  { place with names := name :: place.names }

/-- The place one directory up. Above the working directory is the outside, and above that is
nothing else. -/
def parent (place : Place) : Place :=
  match place.names with
  | _ :: names => { place with names }
  | [] => ⟨.outside, []⟩

/-- The place to which a segment leads from a directory. -/
def next (place : Place) (segment : String) : Place :=
  if staysHere segment then place
  else if leadsUp segment then place.parent
  else place.enter segment

/-- The path of a place in its part. -/
def path (place : Place) : String :=
  pathOf place.names.reverse

end Place

/-- The files in the working directory, and those outside. The outside is one tree, which is the
directory above the working directory and the root of absolute paths. -/
structure FileSpace where
  inside : FileTree
  outside : FileTree
deriving Inhabited

namespace FileSpace

/-- The space without files. -/
def empty : FileSpace := ⟨.directory [], .directory []⟩

/-- What stands at a place. -/
def at? (space : FileSpace) (place : Place) : Option FileTree :=
  (match place.region with
    | .inside => space.inside
    | .outside => space.outside).find? place.names.reverse

/-- Put a tree at a place. -/
def put (space : FileSpace) (place : Place) (tree : FileTree) : FileSpace :=
  match place.region with
  | .inside => { space with inside := tree.put place.names.reverse space.inside }
  | .outside => { space with outside := tree.put place.names.reverse space.outside }

/-- The space of files given by their paths. -/
def ofFiles (files : List (String × String)) : FileSpace :=
  files.foldl (fun space (path, text) =>
    space.put ((segmentsOf path).foldl Place.next (.start path)) (.file text)) empty

/-- Does a directory stand at a place? -/
def isDirectoryAt (space : FileSpace) (place : Place) : Bool :=
  (space.at? place).any FileTree.isDirectory

/-! ### Reading -/

/-- The place to which a segment leads from a directory, whether there is anything or not. -/
def next (space : FileSpace) (place : Place) (segment : String) : Except FileFailure Place :=
  if !space.isDirectoryAt place then .error .notDirectory
  else if maxNameBytes < segment.utf8ByteSize then .error .nameTooLong
  else .ok (place.next segment)

/-- Follow one segment of a path. -/
def follow (space : FileSpace) (place : Place) (segment : String) : Except FileFailure Place := do
  let next ← space.next place segment
  if (space.at? next).isSome then return next else throw .missing

/-- The place to which a path leads. -/
def resolve (space : FileSpace) (path : String) : Except FileFailure Place := do
  checkPath path
  (segmentsOf path).foldlM space.follow (.start path)

/-- Does a path lead to a directory? -/
def isDirectory (space : FileSpace) (path : String) : Bool :=
  match space.resolve path with
  | .ok place => space.isDirectoryAt place
  | .error _ => false

/-- The text of the file to which a path leads. -/
def read (space : FileSpace) (path : String) : Except FileFailure String := do
  let place ← space.resolve path
  match space.at? place with
  | some (.file text) => return text
  | some (.directory _) => throw .isDirectory
  | none => throw .missing

/-! ### Making directories and files -/

/-- The directory in which the last step of a path is taken. -/
def lastDirectory (space : FileSpace) (path : String) : Except FileFailure Place := do
  checkPath path
  let place ← (stepsOf path).dropLast.foldlM space.follow (.start path)
  if space.isDirectoryAt place then return place else throw .notDirectory

/-- The place to which a path leads, whether there is anything or not. Only the last step may lead
to nothing, and a path without steps leads to the root. -/
def resolveLast (space : FileSpace) (path : String) : Except FileFailure Place := do
  let directory ← space.lastDirectory path
  match (stepsOf path).getLast? with
  | none => return directory
  | some name => space.next directory name

/-- Make the directory of a path. -/
def makeDirectory (space : FileSpace) (path : String) : Except FileFailure FileSpace := do
  let place ← space.resolveLast path
  if (space.at? place).isSome then throw .present
  return space.put place (.directory [])

/-- Make directories that stand one in the other, given from the innermost one outwards. Those that
are there are left as they are; only where the way to one of them is missing are those around it
made first. -/
def makeDirectories (space : FileSpace) : List String → Except FileFailure FileSpace
  | [] => .ok space
  | path :: outer =>
    match space.makeDirectory path with
    | .ok space => .ok space
    | .error .missing => do
      let space ← space.makeDirectories outer
      match space.makeDirectory path with
      | .ok space => return space
      | .error failure => if space.isDirectory path then return space else throw failure
    | .error failure => if space.isDirectory path then .ok space else .error failure

/-- The place of the file that is written under a path, in a directory that is there. A path that
ends with a separator is refused before its last name is looked at. -/
def placeForFile (space : FileSpace) (path : String) : Except FileFailure Place := do
  let _ ← space.lastDirectory path
  if endsWithSeparator path then throw .isDirectory
  let place ← space.resolveLast path
  if space.isDirectoryAt place then throw .isDirectory
  return place

end FileSpace

end SchemaTyping
