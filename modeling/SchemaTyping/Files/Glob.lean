import SchemaTyping.Files.Space
import SchemaTyping.Text.Message

/-!
# Path patterns

A pattern is a path in whose segments `*` stands for any text, `?` for any character and brackets
for one of a class of characters. The segment `**` stands for any number of directories. The
files that match are listed in the order of their names; a directory comes before what is in it.
A directory with a path that is too long for the file system can be found but not listed.
-/

namespace SchemaTyping

/-- What stands in a class of characters. -/
inductive CharRange where
  | single (c : Char)
  | between (first last : Char)
deriving DecidableEq, Inhabited, Repr

/-- A part of a segment. -/
inductive PatternToken where
  | char (c : Char)
  | anyChar
  | anyText
  | recursive
  | within (ranges : List CharRange)
  | except (ranges : List CharRange)
deriving DecidableEq, Inhabited, Repr

/-- Why a text is no pattern. -/
inductive PatternFault where
  | wildcards
  | recursiveWildcards
  | range
deriving DecidableEq, Inhabited, Repr

/-- The wording of a fault. -/
def PatternFault.message : PatternFault → String
  | wildcards => "wildcards are either regular `*` or recursive `**`"
  | recursiveWildcards => "recursive wildcards must form a single path component"
  | range => "invalid range pattern"

/-- Why a list of patterns gives no files. -/
inductive PatternError where
  | malformed (position : Nat) (fault : PatternFault)
  | unlisted (path : String) (failure : FileFailure)
  | noMatch (pattern : String)
deriving DecidableEq, Inhabited, Repr

/-- The wording of an error. -/
def PatternError.message : PatternError → String
  | malformed position fault =>
    "Pattern syntax error near position " ++ Nat.repr position ++ ": " ++ fault.message
  | unlisted path failure =>
    "attempting to read " ++ ticked path ++ " resulted in an error: " ++ failure.message
  | noMatch pattern => "glob pattern matched no files: " ++ pattern

namespace PatternToken

/-! ### Reading patterns -/

/-- The ranges between brackets. -/
def rangesOf : List Char → List CharRange
  | first :: '-' :: last :: rest => .between first last :: rangesOf rest
  | c :: rest => .single c :: rangesOf rest
  | [] => []

/-- The characters before the first closing bracket, and those after it. -/
def splitAtBracket : List Char → Option (List Char × List Char)
  | [] => none
  | ']' :: rest => some ([], rest)
  | c :: rest => (splitAtBracket rest).map fun (inner, after) => (c :: inner, after)

/-- A class of characters, after its opening bracket, and what follows. Its first character may
be a closing bracket. -/
def readClass : List Char → Option (PatternToken × List Char)
  | '!' :: first :: rest =>
    (splitAtBracket rest).map fun (inner, after) => (.except (rangesOf (first :: inner)), after)
  | ['!'] | [] => none
  | first :: rest =>
    (splitAtBracket rest).map fun (inner, after) => (.within (rangesOf (first :: inner)), after)

theorem length_splitAtBracket_lt {cs inner after : List Char}
    (h : splitAtBracket cs = some (inner, after)) : after.length < cs.length := by
  induction cs generalizing inner with
  | nil => simp [splitAtBracket] at h
  | cons c rest ih =>
    unfold splitAtBracket at h
    split at h
    · simp at h
    · next heq =>
      obtain ⟨rfl, rfl⟩ : c = ']' ∧ rest = _ := by simpa using heq
      simp at h
      simp [h.2]
    · next heq =>
      obtain ⟨rfl, rfl⟩ : c = _ ∧ rest = _ := by simpa using heq
      simp only [Option.map_eq_some_iff, Prod.mk.injEq, Prod.exists] at h
      obtain ⟨_, _, hsplit, _, rfl⟩ := h
      have := ih hsplit
      simp
      omega

theorem length_readClass_lt {cs after : List Char} {token : PatternToken}
    (h : readClass cs = some (token, after)) : after.length < cs.length := by
  unfold readClass at h
  split at h
  all_goals first
    | simp at h; done
    | simp only [Option.map_eq_some_iff, Prod.mk.injEq, Prod.exists] at h
      obtain ⟨_, _, hsplit, _, rfl⟩ := h
      have := length_splitAtBracket_lt hsplit
      simp
      omega

/-- Read the parts of a pattern. The position counts the characters before the text, and
`separated` tells whether a segment starts there. -/
def readTokens (position : Nat) (separated : Bool) :
    List Char → Except (Nat × PatternFault) (List PatternToken)
  | [] => .ok []
  | '?' :: rest => (.anyChar :: ·) <$> readTokens (position + 1) false rest
  | '*' :: '*' :: '*' :: _ => .error (position + 2, .wildcards)
  | '*' :: '*' :: rest =>
    if separated then
      match rest with
      | [] => .ok [.recursive]
      | '/' :: rest => (.recursive :: ·) <$> readTokens (position + 3) true rest
      | _ => .error (position + 2, .recursiveWildcards)
    else .error (position - 1, .recursiveWildcards)
  | '*' :: rest => (.anyText :: ·) <$> readTokens (position + 1) false rest
  | '[' :: rest =>
    match _h : readClass rest with
    | some (token, after) =>
      (token :: ·) <$> readTokens (position + 1 + (rest.length - after.length)) false after
    | none => .error (position, .range)
  | c :: rest => (.char c :: ·) <$> readTokens (position + 1) (c = pathSeparator) rest
termination_by cs => cs.length
decreasing_by
  all_goals first
    | have := length_readClass_lt _h
      simp
      omega
    | simp; done
    | simp; omega

/-- Is a character in one of the ranges? -/
def inRanges (c : Char) (ranges : List CharRange) : Bool :=
  ranges.any fun
    | .single s => s = c
    | .between first last => first ≤ c && c ≤ last

/-- Does a part of a segment stand for a single character, and for this one? -/
def acceptsChar : PatternToken → Char → Bool
  | .char t, c => t = c
  | .anyChar, _ => true
  | .within ranges, c => inRanges c ranges
  | .except ranges, c => !inRanges c ranges
  | .anyText, _ | .recursive, _ => false

/-- All ends of a text, longest first. -/
def ends : List Char → List (List Char)
  | [] => [[]]
  | c :: rest => (c :: rest) :: ends rest

/-- What may be left of a name after one more part of a segment. The possible ends of the name are
given, and result, longest first. -/
def advance (left : List (List Char)) : PatternToken → List (List Char)
  | .anyText | .recursive => (left.head?.map ends).getD []
  | token => left.filterMap fun
    | c :: rest => if token.acceptsChar c then some rest else none
    | [] => none

/-- Does a name match the parts of a segment? It does if nothing may be left of it. -/
def matchTokens (tokens : List PatternToken) (name : List Char) : Bool :=
  (tokens.foldl advance [name]).any List.isEmpty

end PatternToken

/-- A segment of a pattern. -/
abbrev PatternSegment := List PatternToken

namespace PatternSegment

/-- Does this segment stand for any number of directories? -/
def isRecursive (segment : PatternSegment) : Bool :=
  segment.any (· = .recursive)

/-- The text of a segment in which nothing stands for something else. -/
def literal? (segment : PatternSegment) : Option String :=
  String.ofList <$> segment.mapM fun
    | .char c => some c
    | _ => none

/-- Does a name match a segment? -/
def accepts (segment : PatternSegment) (name : String) : Bool :=
  PatternToken.matchTokens segment name.toList

/-- The entries for the directory itself and the one above it are found only by a segment that
starts with a point. -/
def startsWithPoint (segment : PatternSegment) : Bool :=
  segment.head? = some (.char '.')

end PatternSegment

/-- A pattern: its segments, and whether it asks for directories. -/
structure PathPattern where
  segments : List PatternSegment
  directoriesOnly : Bool

namespace PathPattern

/-- Does a text have a character that makes it a pattern? -/
def isPattern (text : String) : Bool :=
  text.toList.any fun c => c = '*' || c = '?' || c = '[' || c = '\x7b'

/-- The texts of the segments of a pattern. A separator at its end starts no segment. -/
def segmentTexts (text : String) : List (List Char) :=
  let parts := splitAtSeparator text.toList
  if parts.getLast? = some [] then parts.dropLast else parts

/-- Read the segments of a pattern, each from its own start. -/
def readSegments : List (List Char) → Except (Nat × PatternFault) (List PatternSegment)
  | [] => .ok []
  | segment :: rest => do
    let tokens ← PatternToken.readTokens 0 true segment
    let segments ← readSegments rest
    return tokens :: segments

/-- Recursive segments in a row are one. -/
def joinRecursive : List PatternSegment → List PatternSegment
  | [] => []
  | segment :: rest =>
    if segment.isRecursive && rest.head?.any PatternSegment.isRecursive then joinRecursive rest
    else segment :: joinRecursive rest

/-- Read a pattern: as a whole, and then segment by segment. -/
def read (text : String) : Except PatternError PathPattern :=
  let segments := do
    let _ ← PatternToken.readTokens 0 true text.toList
    readSegments (segmentTexts text)
  match segments with
  | .ok segments => .ok ⟨joinRecursive segments, endsWithSeparator text⟩
  | .error (position, fault) => .error (.malformed position fault)

/-! ### Matching -/

/-- Is a path that of the working directory itself? -/
def isHere (path : String) : Bool :=
  path ≠ "" && (segmentsOf path).all staysHere

/-- A path to an entry. The working directory is not named in it. -/
def pathTo (path segment : String) : String :=
  if isHere path then segment else joinPath path segment

/-- A way that is taken while a pattern is followed: the place to which it leads, its path, and
whether it is known to lead to a directory. -/
structure PatternWay where
  place : Place
  path : String
  directory : Bool
deriving DecidableEq, Inhabited, Repr

namespace PatternWay

/-- The way along a path. What it leads to is asked of the file system, which answers only if it
takes the path. -/
def along (space : FileSpace) (place : Place) (path : String) : PatternWay :=
  ⟨place, path, (checkPath path).isOk && space.isDirectoryAt place⟩

/-- The way to an entry of a directory, which is listed with its kind. -/
def toEntry (way : PatternWay) (name : String) (entry : FileTree) : PatternWay :=
  ⟨way.place.enter name, pathTo way.path name, entry.isDirectory⟩

/-- The way to the entry with a given name, without a list of the entries. From a directory, those
for the directory itself and the one above it need not be asked for. -/
def toNamed? (space : FileSpace) (way : PatternWay) (name : String) : Option PatternWay :=
  let path := pathTo way.path name
  if name = "." || leadsUp name then
    if way.directory then some (along space (way.place.next name) path) else none
  else
    match checkPath path, space.follow way.place name with
    | .ok _, .ok place => some (along space place path)
    | _, _ => none

end PatternWay

mutual
/-- What matches segments below the end of a way: paths, and errors where a directory cannot be
listed. -/
def below (space : FileSpace) (directoriesOnly : Bool) (way : PatternWay)
    (segment : PatternSegment) (rest : List PatternSegment) : List (Except PatternError String) :=
  match segment.literal? with
  | some name =>
    match way.toNamed? space name with
    | some way => onward space directoriesOnly way rest
    | none => []
  | none =>
    if way.directory then
      match checkPath way.path, _h : space.at? way.place with
      | .error failure, _ => [.error (.unlisted way.path failure)]
      | .ok _, some (.directory entries) =>
        (if segment.startsWithPoint && segment.accepts ".." then
          onward space directoriesOnly
            (.along space way.place.parent (joinPath way.path "..")) rest else []) ++
        (if segment.startsWithPoint && segment.accepts "." then
          onward space directoriesOnly (.along space way.place (joinPath way.path ".")) rest
          else []) ++
        entriesMatching space directoriesOnly way segment rest entries
      | .ok _, _ => []
    else []
termination_by (rest.length, 1 + sizeOf (space.at? way.place))
decreasing_by
  · exact Prod.Lex.right _ (by omega)
  · exact Prod.Lex.right _ (by omega)
  · exact Prod.Lex.right _ (by omega)
  · rw [_h]
    exact Prod.Lex.right _ (by simp; omega)

/-- What matches when the segments up to the end of a way have been matched. -/
def onward (space : FileSpace) (directoriesOnly : Bool) (way : PatternWay)
    (rest : List PatternSegment) : List (Except PatternError String) :=
  match rest with
  | [] => if directoriesOnly && !way.directory then [] else [.ok way.path]
  | segment :: rest => below space directoriesOnly way segment rest
termination_by (rest.length, 0)

/-- What matches at entries of a directory or below them. -/
def entriesMatching (space : FileSpace) (directoriesOnly : Bool) (way : PatternWay)
    (segment : PatternSegment) (rest : List PatternSegment) :
    List (String × FileTree) → List (Except PatternError String)
  | [] => []
  | (name, entry) :: entries =>
    entryMatching space directoriesOnly (way.toEntry name entry) name segment rest entry ++
      entriesMatching space directoriesOnly way segment rest entries
termination_by entries => (rest.length, sizeOf entries)

/-- What matches at one entry or below it. -/
def entryMatching (space : FileSpace) (directoriesOnly : Bool) (way : PatternWay) (name : String)
    (segment : PatternSegment) (rest : List PatternSegment) (entry : FileTree) :
    List (Except PatternError String) :=
  if segment.isRecursive then
    match entry with
    | .directory entries =>
      let deeper :=
        match checkPath way.path with
        | .error failure => [.error (.unlisted way.path failure)]
        | .ok _ => entriesMatching space directoriesOnly way segment rest entries
      match rest with
      | [] => .ok way.path :: deeper
      | next :: rest =>
        (if next.accepts name then onward space directoriesOnly way rest else []) ++ deeper
    | .file _ =>
      match rest with
      | [] => []
      | next :: rest =>
        if next.accepts name then onward space directoriesOnly way rest else []
  else if segment.accepts name then onward space directoriesOnly way rest
  else []
termination_by (rest.length, sizeOf entry)
decreasing_by
  · exact Prod.Lex.right _ (by simp)
  · exact Prod.Lex.left _ _ (by simp)
  · exact Prod.Lex.left _ _ (by simp)
  · exact Prod.Lex.right _ (FileTree.sizeOf_pos _)
end

/-- The paths in the working directory that match a pattern, and errors where a directory cannot be
listed. -/
def matching (pattern : PathPattern) (space : FileSpace) : List (Except PatternError String) :=
  match pattern.segments with
  | [] => []
  | segment :: rest =>
    below space pattern.directoriesOnly (.along space ⟨.inside, []⟩ ".") segment rest

/-- The paths that a text stands for: itself, or all that match it if it is a pattern. A pattern
of the whole file system matches nothing here. The first directory that cannot be listed ends the
search. -/
def expand (space : FileSpace) (text : String) : Except PatternError (List String) :=
  if isPattern text then do
    let pattern ← read text
    match if isAbsolute text then [] else pattern.matching space with
    | [] => throw (.noMatch text)
    | found => found.mapM id
  else return [text]

/-- The paths that several texts stand for, one after the other. -/
def expandAll (space : FileSpace) : List String → Except PatternError (List String)
  | [] => .ok []
  | text :: rest => do
    let paths ← expand space text
    let more ← expandAll space rest
    return paths ++ more

end PathPattern

end SchemaTyping
