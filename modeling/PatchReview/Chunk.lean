import PatchReview.Diff.Basic
import PatchReview.Limit

/-!
# Chunks

The hunks of a diff are packed into chunks that fit a token budget. A chunk holds hunks of one file,
in order; it is closed as soon as the next hunk would exceed the budget. A hunk that exceeds the
budget alone has a chunk of its own. The summary of a chunk is what a prompt shows of it.
-/

namespace PatchReview

/-- Some hunks of one file, by their positions in it, and what they cost. -/
structure Chunk where
  file    : String
  indices : List Int
  tokens  : Int
deriving DecidableEq, Repr

/-- What a prompt shows of a hunk. -/
structure HunkSummary where
  first      : Int
  last       : Int
  addedCount : Nat
  preview    : List AddedLine
deriving DecidableEq, Repr

/-- What a prompt shows of a chunk. -/
structure ChunkSummary where
  file  : String
  hunks : List HunkSummary
deriving DecidableEq, Repr

namespace Hunk

/-- Tokens of a line's text, four characters each. -/
def lineTokens (l : AddedLine) : Nat := (l.content.length + 3) / 4

/-- What a hunk costs: a base, something for each line and for its text, and never less than the
    least cost. -/
def tokens (h : Hunk) : Nat :=
  max 80 (32 + 2 * h.added.length + h.added.foldr (fun l n => lineTokens l + n) 0)

/-- What a prompt shows of a hunk: its first eight lines, each cut. -/
def summary (h : Hunk) : HunkSummary where
  first := h.first
  last := h.last
  addedCount := h.added.length
  preview := (h.added.take 8).map fun l =>
    ⟨l.number, String.ofList (l.content.toList.take 240)⟩

end Hunk

namespace Chunk

/-- Packs the hunks from position `index` on, `current` being the chunk that is open. -/
def pack (budget : Int) (current : Chunk) (index : Nat) : List Hunk → List Chunk
  | [] => [current]
  | h :: rest =>
    if current.tokens + h.tokens > budget then
      current :: pack budget ⟨current.file, [(index : Int)], h.tokens⟩ (index + 1) rest
    else
      pack budget ⟨current.file, current.indices ++ [(index : Int)], current.tokens + h.tokens⟩
        (index + 1) rest

/-- The chunks of one file. -/
def ofFile (budget : Int) (f : FileChange) : List Chunk :=
  match f.hunks with
  | [] => []
  | h :: rest => pack budget ⟨f.path, [0], h.tokens⟩ 1 rest

/-- The chunks of a diff. -/
def ofDiff (budget : Int) (d : Diff) : Except NotPositive (List Chunk) := do
  requirePositive "max_tokens_per_chunk" budget
  return d.files.flatMap (ofFile budget)

/-- A position that no hunk has. -/
structure NoSuchHunk where
  index : Int
deriving DecidableEq, Repr

/-- The hunk at a position, which counts from the end where it is negative. -/
def hunkAt (hunks : List Hunk) (index : Int) : Except NoSuchHunk Hunk :=
  let position := if index < 0 then index + hunks.length else index
  if position < 0 then .error ⟨index⟩
  else
    match hunks[position.toNat]? with
    | some h => .ok h
    | none => .error ⟨index⟩

/-- What a prompt shows of a chunk. A chunk of a file that the diff does not change shows
    nothing. -/
def summary (d : Diff) (c : Chunk) : Except NoSuchHunk ChunkSummary :=
  match d.file? c.file with
  | none => .ok ⟨c.file, []⟩
  | some f => do
    let hunks ← c.indices.mapM (hunkAt f.hunks)
    return ⟨f.path, hunks.map Hunk.summary⟩

end Chunk

end PatchReview
