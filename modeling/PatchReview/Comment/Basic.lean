import PatchReview.Path

/-!
# Review comments

A comment says what is wrong at a line of a file, why, and what to do about it. The file is named by a
path; comments whose paths are spellings of one another stand in the same file.
-/

namespace PatchReview

/-- How serious a comment is. -/
inductive Severity where
  | critical
  | major
  | minor
  | nit
deriving DecidableEq, Repr

namespace Severity

/-- Every severity. -/
def all : List Severity := [critical, major, minor, nit]

/-- The name of a severity. -/
def name : Severity → String
  | critical => "critical"
  | major => "major"
  | minor => "minor"
  | nit => "nit"

/-- The severity of that name. -/
def ofName? (name : String) : Option Severity := all.find? (·.name == name)

end Severity

/-- A comment on a line of a file, with remarks of some form. -/
structure CommentOf (Remark : Type) where
  file       : String
  line       : Int
  severity   : Severity
  smell      : Remark
  rationale  : Remark
  suggestion : Remark
deriving DecidableEq, Repr

/-- The file of a comment, in the spelling that stands for all others. -/
def CommentOf.path {Remark : Type} (c : CommentOf Remark) : String := Path.normalized c.file

/-- A comment with texts as remarks. -/
abbrev Comment := CommentOf String

namespace Comment

/-- The comment moved to a line of a file. -/
def movedTo (file : String) (line : Int) (c : Comment) : Comment := { c with file := file, line := line }

/-- The comments in the files listed, each file by its exact spelling. -/
def inFiles {Remark : Type} (files : List String) (cs : List (CommentOf Remark)) :
    List (CommentOf Remark) :=
  cs.filter fun c => files.contains c.file

end Comment

end PatchReview
