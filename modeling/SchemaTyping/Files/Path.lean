/-!
# Paths

A path is a text whose segments are set off by separators. Empty segments, and those that are a
single point, lead nowhere else; two points lead one directory up.
-/

namespace SchemaTyping

/-- The character between the segments of a path. -/
def pathSeparator : Char := '/'

/-- The parts of a text between separators. -/
def splitAtSeparator : List Char → List (List Char)
  | [] => [[]]
  | c :: rest =>
    if c = pathSeparator then [] :: splitAtSeparator rest
    else
      match splitAtSeparator rest with
      | segment :: segments => (c :: segment) :: segments
      | [] => [[c]]

/-- The segments of a path. -/
def segmentsOf (path : String) : List String :=
  (splitAtSeparator path.toList).map String.ofList

/-- The steps of a path: its segments without the empty ones. -/
def stepsOf (path : String) : List String :=
  (segmentsOf path).filter (· ≠ "")

/-- Segments put together as a path. -/
def pathOf (segments : List String) : String :=
  "/".intercalate segments

/-- Does a path start at the root of the file system? -/
def isAbsolute (path : String) : Bool :=
  path.toList.head? = some pathSeparator

/-- Does a path end with a separator? Then it asks for a directory. -/
def endsWithSeparator (path : String) : Bool :=
  path.toList.getLast? = some pathSeparator

/-- Does a segment lead nowhere else? -/
def staysHere (segment : String) : Bool :=
  segment = "" || segment = "."

/-- Does a segment lead one directory up? -/
def leadsUp (segment : String) : Bool :=
  segment = ".."

/-- A segment after a path. -/
def joinPath (path segment : String) : String :=
  if endsWithSeparator path then path ++ segment else path ++ "/" ++ segment

/-- A path and the paths of the directories around it, innermost first. The path is given by its
first segment and by the others from the last one on. Segments that lead nowhere else name no
directory of their own, unless they come first. -/
def outward (first : String) : List String → List String
  | [] => [if first = "" then "/" else first]
  | segment :: outer =>
    if staysHere segment then outward first outer
    else pathOf (first :: (segment :: outer).reverse) :: outward first outer

/-- The paths of the directories in which a path stands, innermost first. The working directory is
not named. -/
def directoriesOf (path : String) : List String :=
  match segmentsOf path with
  | first :: rest => (outward first rest.reverse).tail
  | [] => []

end SchemaTyping
