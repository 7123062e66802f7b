import PatchReview.Outline
import PatchReview.Tree.Resolution

/-!
# Reading a source file

A single source file is looked up by its path, links followed, and read in the dialect that its suffix
names. That a file is there is checked before its suffix is.
-/

namespace PatchReview

/-- Why there is no outline for a path. -/
inductive SourceFileError where
  | absent (path : Path)
  | directory (path : Path)
  | unknownSuffix (suffix : String)
  | unknownDialect (name : String)
deriving DecidableEq, Repr

/-- What went wrong, in words. -/
def SourceFileError.message : SourceFileError → String
  | .absent p => "File not found: " ++ p.text
  | .directory p => "[Errno 21] Is a directory: " ++ Text.quoted p.text
  | .unknownSuffix s => "Unsupported file extension: " ++ s
  | .unknownDialect n => "Unsupported language: " ++ n

namespace SourceFile

/-- The dialect of that name. -/
def dialectNamed (name : String) : Except SourceFileError Script.Dialect :=
  match Script.Dialect.ofName? name with
  | some d => .ok d
  | none => .error (.unknownDialect name)

/-- The dialect of the file at a path, by its suffix. -/
def dialectOf (path : Path) : Except SourceFileError Script.Dialect :=
  match Script.Dialect.ofSuffix? path.suffix with
  | some d => .ok d
  | none => .error (.unknownSuffix path.suffix)

/-- The bytes of the file at an absolute path. -/
def bytes (t : Tree) (path : Path) : Except SourceFileError ByteArray :=
  match t.opened? path.names with
  | some (.file content) => .ok content
  | some _ => .error (.directory path)
  | none => .error (.absent path)

/-- The outline of bytes as those of a file of that name; none where they are ill-formed. -/
def outlineOf (file : String) (content : ByteArray) : Except SourceFileError (Option Outline) := do
  return Outline.ofSource (← dialectOf (.ofText file)) file content

end SourceFile

end PatchReview
