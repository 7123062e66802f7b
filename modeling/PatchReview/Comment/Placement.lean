import PatchReview.Comment.Reading
import PatchReview.Limit
import PatchReview.Similarity.Score
import PatchReview.Tree.Lines

/-!
# Where comments belong

A shelf of files is searched for the line that a comment most likely means: the line most like its
rationale. Lines that are alike enough are matches, the best first; of lines that are equally alike the
one found first goes before. A comment is misplaced if its best match is in another file or more than
a few lines away.
-/

namespace PatchReview

open Record (Checked Read record withDefault share integerAbove truth)

/-- How comments are placed. -/
structure PlacementOptions where
  minConfidence : Rat
  maxMatches    : Int
  withContext   : Bool
deriving DecidableEq, Repr

namespace PlacementOptions

/-- The usual options. -/
def usual : PlacementOptions := ⟨Number.nearestBinary (3 / 5), 5, true⟩

/-- Options as a record. -/
def ofRecord : Read PlacementOptions := record fun j =>
  PlacementOptions.mk <$> withDefault "min_confidence" share usual.minConfidence j
    <*> withDefault "max_context_matches" (integerAbove 0) usual.maxMatches j
    <*> withDefault "include_context" truth usual.withContext j

end PlacementOptions

/-- A line of a file that is like some text. -/
structure LineMatch where
  file    : String
  line    : Nat
  content : String
  score   : Rat
deriving DecidableEq, Repr

/-- A line of a file. -/
structure CodeLocation where
  file : String
  line : Int
deriving DecidableEq, Repr

/-- Where a comment most likely belongs. -/
structure Placement where
  comment    : Comment
  confidence : Rat
  suggested  : Option LineMatch
  context    : List LineMatch
deriving DecidableEq, Repr

/-- A comment that belongs elsewhere than where it was found. -/
structure Misplaced where
  comment   : Comment
  found     : CodeLocation
  suggested : LineMatch
  evidence  : List String
deriving DecidableEq, Repr

/-- A comment that was moved, with the place at which it was found. -/
structure Moved where
  comment    : Comment
  found      : CodeLocation
  confidence : Rat
deriving DecidableEq, Repr

/-- A share as a percentage without decimals. -/
def percent (r : Number.Rounding) (score : Rat) : Int := Number.nearestInt (r.mul score 100)

/-- Matches from the best to the worst, equally good ones in the order in which they were found. -/
def bestFirst {α : Type} (score : α → Rat) (found : List α) : List α :=
  found.mergeSort fun a b => decide (score b ≤ score a)

/-- Files with their lines, in the order in which they were loaded. -/
abbrev LoadedFiles := List (String × List String)

namespace LoadedFiles

/-- Loads files in order; one that is there already keeps its lines, one that cannot be read is
    passed over. -/
def load (t : Tree) (root : Location) (loaded : LoadedFiles) :
    List String → LoadedFiles × Option PathFault
  | [] => (loaded, none)
  | file :: rest =>
    let path := Path.normalized file
    if loaded.any (·.1 == path) then load t root loaded rest
    else
      match t.lines root path with
      | .ok (some lines) => load t root (loaded ++ [(path, lines)]) rest
      | .ok none => load t root loaded rest
      | .error fault => (loaded, some fault)

/-- The lines of a file that score at least so much. -/
def matchesIn (score : String → Rat) (least : Rat) (file : String) (lines : List String) :
    List LineMatch :=
  (lines.mapIdx fun n content => ⟨file, n + 1, content, score content⟩).filter (least ≤ ·.score)

/-- The lines of all files that score at least so much, the best first. -/
def search (score : String → Rat) (least : Rat) (loaded : LoadedFiles) : List LineMatch :=
  bestFirst (·.score) (loaded.flatMap fun (file, lines) => matchesIn score least file lines)

end LoadedFiles

namespace Comment

variable (r : Number.Rounding) (o : PlacementOptions) (files : LoadedFiles)

/-- How like a line is to what the comment says. -/
def likeness (c : Comment) (line : String) : Rat :=
  Similarity.similarity r c.rationale.toList line.toList

/-- Where a comment most likely belongs. -/
def placement (c : Comment) : Placement :=
  let found := takeBounded o.maxMatches (files.search (c.likeness r) o.minConfidence)
  { comment := c
    confidence := (found.head?.map (·.score)).getD 0
    suggested := found.head?
    context := if o.withContext then found else [] }

/-- The text that shows a match. -/
def evidence (m : LineMatch) : String :=
  m.file ++ ":" ++ toString m.line ++ " (" ++ toString (percent r m.score) ++ "% match): \x22" ++
    Text.stripped m.content ++ "\x22"

/-- The most lines that a comment may be away from its best match. -/
def tolerance : Nat := 5

/-- What shows that a comment belongs elsewhere, if it does. -/
def misplaced? (c : Comment) : Option Misplaced :=
  let p := c.placement r o files
  match p.suggested with
  | none => none
  | some m =>
    if m.file = c.path ∧ ((m.line : Int) - c.line).natAbs ≤ tolerance then none
    else some ⟨c, ⟨c.file, c.line⟩, m, p.context.map (evidence r)⟩

/-- The comment moved to its best match, if it has one. -/
def moved? (c : Comment) : Option Moved :=
  (c.placement r o files).suggested.map fun m =>
    ⟨c.movedTo m.file m.line, ⟨c.file, c.line⟩, m.score⟩

/-- The comment at its best match, or as it is if it has none. -/
def relocated (c : Comment) : Comment := ((c.moved? r o files).map (·.comment)).getD c

/-- What shows of comments, one after another, that they belong elsewhere. -/
def allMisplaced (cs : List Comment) : List Misplaced := cs.filterMap (·.misplaced? r o files)

/-- Comments, each one at its best match if it has one. -/
def allRelocated (cs : List Comment) : List Comment := cs.map (·.relocated r o files)

end Comment

namespace LoadedFiles

/-- The lines of a file that are like a text with its words sorted, the best first; they are listed
    under the file's name as given. -/
def bestLines (r : Number.Rounding) (files : LoadedFiles) (file text : String) (least : Rat) :
    List LineMatch :=
  match files.lookup (Path.normalized file) with
  | none => []
  | some lines =>
    bestFirst (·.score)
      (matchesIn (fun line => Similarity.tokenSortRatio r text.toList line.toList) least file lines)

end LoadedFiles

end PatchReview
