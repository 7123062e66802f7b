import PatchReview.Text.Lines
import PatchReview.Text.Utf8
import PatchReview.Tree.Resolution

/-!
# The lines of files

A file is read only where its path leads below the root. A path that leads elsewhere, or to something
that is no file when it is opened, has no lines.
-/

namespace PatchReview

/-- The lines of a file's bytes. -/
def linesOfBytes (content : ByteArray) : List String :=
  (Text.fileLines (Text.Utf8.decode content).toList).map String.ofList

/-- The lines of files by path; a path that cannot be read has none. -/
abbrev Shelf := List (String × Option (List String))

/-- The lines on a shelf under a path. -/
def Shelf.lines? (s : Shelf) (path : String) : Option (List String) := (s.lookup path).join

namespace Tree

/-- The lines of the file to which a path leads, if it is a file below the root. -/
def lines (t : Tree) (root : Location) (path : String) : Except PathFault (Option (List String)) := do
  match ← t.locate root path with
  | none => return none
  | some l =>
    match t.opened? l with
    | some (.file content) => return some (linesOfBytes content)
    | _ => return none

/-- Reads the files at several paths. -/
def shelf (t : Tree) (root : Location) (paths : List String) : Except PathFault Shelf :=
  paths.mapM fun path => do return (path, ← t.lines root path)

end Tree

end PatchReview
