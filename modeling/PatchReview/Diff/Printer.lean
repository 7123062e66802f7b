import PatchReview.Diff.Reader

/-!
# Writing patches

A patch says, file by file, what is done to the file and which hunks of it change. It is written with
the header lines of each file (`diff --git`, the mode or the names where the file is created, deleted
or renamed, and the two path lines), then its hunks, each with the true counts of its body.

What cannot be written so that it can be read is no patch: texts and paths hold no line boundary, a
path can stand in a header, and no removed line and the added one after it look like two path lines.
`Patch.diff` is what a patch changes, said without its text.
-/

namespace PatchReview.Patch

open PatchReview.Text
open PatchReview.Diff (nowhere begins Promise Stretch)

/-- A text that stands on one line. -/
structure LineText where
  text     : String
  unbroken : isUnbroken text.toList = true

/-- Whether a path can stand in a header: it is on one line, ends at its last character that is no
    blank, holds no tab, and is not the one that stands for no file. -/
def isHeaderPath (path : String) : Bool :=
  isUnbroken path.toList && !path.toList.isEmpty && !path.toList.contains '\t' &&
    path.toList.getLast?.all (!isBlank ·) && path != nowhere

/-- A path that can stand in a header. -/
structure HeaderPath where
  text   : String
  proper : isHeaderPath text = true

/-- Which sides of a change a line stands on. -/
inductive Side where
  | both
  | old
  | new
deriving DecidableEq, Repr

/-- The sign in front of a line. -/
def Side.sign : Side → Char
  | both => ' '
  | old => '-'
  | new => '+'

/-- A line of a hunk's body; `unended` says that the file ends after it without a line end. -/
structure BodyLine where
  side    : Side
  content : LineText
  unended : Bool := false

/-- What is written after a line without a line end. -/
def unendedMark : List Char := '\\' :: " No newline at end of file".toList

/-- A line with its sign. -/
def BodyLine.signed (l : BodyLine) : List Char := l.side.sign :: l.content.text.toList

/-- The lines that are written for a line of a body. -/
def BodyLine.print (l : BodyLine) : List (List Char) :=
  if l.unended then [l.signed, unendedMark] else [l.signed]

/-- Whether two lines, written one right after the other, look like path lines. -/
def looksLikePaths (a b : BodyLine) : Bool :=
  a.side == .old && !a.unended && begins "-- " a.content.text.toList &&
    b.side == .new && begins "++ " b.content.text.toList

/-- Whether no line looks like a path line before one that does. -/
def isUnmistakable : List BodyLine → Bool
  | a :: b :: rest => !looksLikePaths a b && isUnmistakable (b :: rest)
  | _ => true

/-- A hunk: where it starts on either side, its lines, and whether a count of one is left out. -/
structure Hunk where
  oldStart     : Nat
  newStart     : Nat
  lines        : List BodyLine
  shortOld     : Bool := false
  shortNew     : Bool := false
  unmistakable : isUnmistakable lines = true

/-- The number of lines on the old side. -/
def oldCount (ls : List BodyLine) : Nat := ls.countP (·.side != .new)

/-- The number of lines on the new side. -/
def newCount (ls : List BodyLine) : Nat := ls.countP (·.side != .old)

/-- The number of lines that are added. -/
def addedCount (ls : List BodyLine) : Nat := ls.countP (·.side == .new)

/-- The number of lines that are removed. -/
def deletedCount (ls : List BodyLine) : Nat := ls.countP (·.side == .old)

/-- The digits of a number. -/
def digits (n : Nat) : List Char := (toString n).toList

/-- The start and the count of a side; a count of one may be left out. -/
def printSide (start count : Nat) (short : Bool) : List Char :=
  if short && count == 1 then digits start else digits start ++ ',' :: digits count

/-- The header of a hunk. -/
def Hunk.header (h : Hunk) : List Char :=
  "@@ -".toList ++ (printSide h.oldStart (oldCount h.lines) h.shortOld ++ (" +".toList ++
    (printSide h.newStart (newCount h.lines) h.shortNew ++ " @@".toList)))

/-- The lines that are written for a hunk. -/
def Hunk.print (h : Hunk) : List (List Char) := h.header :: h.lines.flatMap BodyLine.print

/-- What is done to a file; a file that comes or goes has a mode. -/
inductive Edit where
  | modified (path : HeaderPath)
  | created (path : HeaderPath) (mode : LineText)
  | deleted (path : HeaderPath) (mode : LineText)
  | renamed (old new : HeaderPath) (differ : old.text ≠ new.text)

namespace Edit

/-- The path before the edit; that of a created file is its path after it. -/
def oldPath : Edit → String
  | modified path | created path _ | deleted path _ => path.text
  | renamed old _ _ => old.text

/-- The path after the edit; that of a deleted file is its path before it. -/
def newPath : Edit → String
  | modified path | created path _ | deleted path _ => path.text
  | renamed _ new _ => new.text

/-- The lines that say what is done to the file. -/
def notes : Edit → List (List Char)
  | modified _ => []
  | created _ mode => ["new file mode ".toList ++ mode.text.toList]
  | deleted _ mode => ["deleted file mode ".toList ++ mode.text.toList]
  | renamed old new _ =>
    ["rename from ".toList ++ old.text.toList, "rename to ".toList ++ new.text.toList]

/-- The path line of the old side. -/
def oldLine : Edit → List Char
  | created _ _ => "--- ".toList ++ nowhere.toList
  | e => "--- ".toList ++ ("a/".toList ++ e.oldPath.toList)

/-- The path line of the new side. -/
def newLine : Edit → List Char
  | deleted _ _ => "+++ ".toList ++ nowhere.toList
  | e => "+++ ".toList ++ ("b/".toList ++ e.newPath.toList)

/-- The lines before the hunks of a file. -/
def header (e : Edit) : List (List Char) :=
  ("diff --git ".toList ++ ("a/".toList ++ (e.oldPath.toList ++ (" b/".toList ++ e.newPath.toList)))) ::
    (e.notes ++ [e.oldLine, e.newLine])

/-- What happened to the file. -/
def status : Edit → ChangeStatus
  | modified _ => .modified
  | created _ _ => .added
  | deleted _ _ => .deleted
  | renamed _ _ _ => .renamed

/-- The path before the edit, if the file was there. -/
def oldPath? : Edit → Option String
  | created _ _ => none
  | e => some e.oldPath

end Edit

/-- A file with what is done to it and its hunks. -/
structure File where
  edit  : Edit
  hunks : List Hunk

/-- The lines that are written for a file. -/
def File.print (f : File) : List (List Char) := f.edit.header ++ f.hunks.flatMap Hunk.print

/-- The text of a patch. -/
def print (files : List File) : String :=
  String.ofList (['\n'].intercalate (files.flatMap File.print))

/-! ## What a patch changes -/

/-- The added lines of a body whose first line on the new side has that number. -/
def numbered (next : Nat) : List BodyLine → List AddedLine
  | [] => []
  | l :: rest =>
    match l.side with
    | .both => numbered (next + 1) rest
    | .old => numbered next rest
    | .new => ⟨next, l.content.text⟩ :: numbered (next + 1) rest

/-- The stretch of the new side that a hunk covers, with its added lines. -/
def Hunk.stretch (h : Hunk) : Stretch :=
  ⟨h.newStart, h.newStart + (newCount h.lines - 1), numbered h.newStart h.lines⟩

/-- A hunk as a change of the file at a path. -/
def Hunk.change (path : String) (h : Hunk) : PatchReview.Hunk :=
  ⟨path, h.stretch.first, h.stretch.last, h.stretch.added⟩

/-- What is changed of a file. -/
def File.change (f : File) : FileChange :=
  ⟨f.edit.newPath, f.edit.oldPath?, f.edit.status, f.hunks.map (Hunk.change f.edit.newPath)⟩

/-- The lines of all bodies. -/
def bodyLines (files : List File) : List BodyLine := files.flatMap fun f => f.hunks.flatMap (·.lines)

/-- What a patch changes. -/
def diff (files : List File) : Diff :=
  ⟨files.map File.change,
    ⟨addedCount (bodyLines files), deletedCount (bodyLines files), files.length⟩⟩

end PatchReview.Patch
