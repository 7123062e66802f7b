/-!
# Diffs

A diff lists, file by file, which stretches of the changed file are new. Of each stretch (a hunk) the
lines that were added are kept with their numbers in the changed file.
-/

namespace PatchReview

/-- An added line and its number in the changed file. -/
structure AddedLine where
  number  : Int
  content : String
deriving DecidableEq, Repr

/-- A stretch of changes, from its first to its last line in the changed file. -/
structure Hunk where
  file   : String
  first  : Int
  last   : Int
  added  : List AddedLine
deriving DecidableEq, Repr

/-- What happened to a file. -/
inductive ChangeStatus where
  | added
  | modified
  | deleted
  | renamed
deriving DecidableEq, Repr

namespace ChangeStatus

/-- Every status. -/
def all : List ChangeStatus := [added, modified, deleted, renamed]

/-- The letter of a status in reports. -/
def letter : ChangeStatus → String
  | added => "A"
  | modified => "M"
  | deleted => "D"
  | renamed => "R"

/-- The status of that letter. -/
def ofLetter? (letter : String) : Option ChangeStatus := all.find? (·.letter == letter)

end ChangeStatus

/-- The changes of one file. -/
structure FileChange where
  /-- Where the file is after the change, or was before it was deleted. -/
  path    : String
  oldPath : Option String
  status  : ChangeStatus
  hunks   : List Hunk
deriving DecidableEq, Repr

/-- How much a diff changes. -/
structure DiffTotals where
  added   : Int
  deleted : Int
  files   : Int
deriving DecidableEq, Repr

/-- The changes of all files with their totals. -/
structure Diff where
  files  : List FileChange
  totals : DiffTotals
deriving DecidableEq, Repr

namespace Diff

/-- The paths of the changed files. -/
def paths (d : Diff) : List String := d.files.map (·.path)

/-- The first change of the file at that path. -/
def file? (d : Diff) (path : String) : Option FileChange := d.files.find? (·.path = path)

end Diff

end PatchReview
