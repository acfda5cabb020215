/-!
# Trees of files

A file, or a directory with its entries in the order of their names.
-/

namespace SchemaTyping

/-- A file with its text, or a directory whose entries are listed by name. -/
inductive FileTree where
  | file (text : String)
  | directory (entries : List (String × FileTree))
deriving Inhabited

namespace FileTree

/-- Is this a directory? -/
def isDirectory : FileTree → Bool
  | .directory _ => true
  | .file _ => false

/-- The entry of a name. -/
def child? (name : String) (entries : List (String × FileTree)) : Option FileTree :=
  entries.lookup name

/-- What stands under the given names, outermost first. -/
def find? : List String → FileTree → Option FileTree
  | [], tree => some tree
  | name :: names, .directory entries => (child? name entries).bind (find? names)
  | _ :: _, .file _ => none

/-- Set the entry of a name, in its place among the names. -/
def setEntry (name : String) (tree : FileTree) :
    List (String × FileTree) → List (String × FileTree)
  | [] => [(name, tree)]
  | (other, old) :: rest =>
    if name = other then (name, tree) :: rest
    else if name < other then (name, tree) :: (other, old) :: rest
    else (other, old) :: setEntry name tree rest

/-- Put a tree under the given names, outermost first; what stands in its way is replaced. -/
def put (tree : FileTree) : List String → FileTree → FileTree
  | [], _ => tree
  | name :: names, .directory entries =>
    .directory (setEntry name (put tree names ((child? name entries).getD (.directory []))) entries)
  | name :: names, .file _ => .directory [(name, put tree names (.directory []))]

theorem sizeOf_pos (tree : FileTree) : 0 < sizeOf tree := by
  cases tree with
  | file text => simp only [FileTree.file.sizeOf_spec]; omega
  | directory entries => simp only [FileTree.directory.sizeOf_spec]; omega

end FileTree

end SchemaTyping
