/-!
# Paths

A path is read as its names. Empty names and single points say nothing and are dropped; two points are
kept, since what they lead to depends on links. Two texts with the same names, read from the same
place, are spellings of one path, and `Path.normalized` gives the spelling that stands for all of them.

A location is an absolute path in which no name has to be followed: the names of the directories from
the top, then the name itself.
-/

namespace PatchReview

/-- The names from the top of all directories to a place. -/
abbrev Location := List String

/-- Where a path starts: at the directory at hand, at the top, or at the top written with two slashes,
    which is a place of its own. -/
inductive Anchor where
  | here
  | top
  | doubledTop
deriving DecidableEq, Repr

/-- A path: where it starts, and the names to follow. -/
structure Path where
  anchor : Anchor
  names  : List String
deriving DecidableEq, Repr

namespace Path

/-- The pieces of a text between slashes. -/
def pieces (text : String) : List String := (text.toList.splitOn '/').map String.ofList

/-- A piece that says nothing. -/
def isIdle (piece : String) : Bool := piece == "" || piece == "."

/-- Whether a text is one piece of a path, and one that says something. -/
def isSingle (name : String) : Bool := !isIdle name && !name.toList.contains '/'

/-- Whether a zero character stands in a name. -/
def holdsZero (name : String) : Bool := name.toList.contains '\x00'

/-- Whether a file can have that name. -/
def isName (name : String) : Bool := isSingle name && name != ".." && !holdsZero name

/-- The start that a text names by its leading slashes. -/
def anchorOf (text : String) : Anchor :=
  match (text.toList.takeWhile (· = '/')).length with
  | 0 => .here
  | 2 => .doubledTop
  | _ => .top

/-- The path that a text names. -/
def ofText (text : String) : Path := ⟨anchorOf text, (pieces text).filter (!isIdle ·)⟩

/-- The slashes of a start. -/
def anchorText : Anchor → String
  | .here => ""
  | .top => "/"
  | .doubledTop => "//"

/-- The shortest text that names a path. -/
def text (p : Path) : String :=
  match p.anchor, p.names with
  | .here, [] => "."
  | a, names => anchorText a ++ "/".intercalate names

/-- The spelling that stands for every spelling of a path. -/
def normalized (text : String) : String := (ofText text).text

/-- The path of a location. -/
def ofLocation (l : Location) : Path := ⟨.top, l⟩

/-- A path followed from where another leads, unless it has a start of its own. -/
def join (p q : Path) : Path :=
  match q.anchor with
  | .here => ⟨p.anchor, p.names ++ q.names⟩
  | _ => q

/-- The path without its last name. -/
def parent (p : Path) : Path := ⟨p.anchor, p.names.dropLast⟩

/-- Follows a name by its text alone: two points lead back. -/
def follow (l : Location) (name : String) : Location :=
  if name = ".." then l.dropLast else if isIdle name then l else l ++ [name]

/-- Follows names by their text alone. -/
def collapse (names : List String) : Location := names.foldl follow []

/-- The location of an absolute path, by its text alone. -/
def location? (p : Path) : Option Location :=
  match p.anchor with
  | .top => some (collapse p.names)
  | _ => none

/-- The last point of a name and what follows it, where something stands on both sides of it. -/
def suffixOfName (name : String) : String :=
  let back := name.toList.reverse
  let ext := back.takeWhile (· ≠ '.')
  match back.dropWhile (· ≠ '.') with
  | _ :: _ :: _ => if ext.isEmpty then "" else String.ofList ('.' :: ext.reverse)
  | _ => ""

/-- The suffix of the last name. -/
def suffix (p : Path) : String := suffixOfName (p.names.getLast?.getD "")

end Path

end PatchReview
