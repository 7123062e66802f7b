import PatchReview.Chunk
import PatchReview.Comment.Reading
import PatchReview.Comment.Verification
import PatchReview.Diff.Reader
import PatchReview.Graph.Survey

/-!
# Reviews

A review takes a patch and the comments made on it. The patch is cut into chunks, the repository is
surveyed for what readers of the changed files need, and the comments on changed files are verified
against what the files define. Remarks are compared with each other and with the files as texts, so a
comment that is verified must have texts as remarks.
-/

namespace PatchReview

/-- All that a review gives. -/
structure Review where
  chunks   : List Chunk
  relevant : List (String × List Definition.Summary)
  hotspots : List Hotspot
  verdict  : Verdict
deriving DecidableEq, Repr

/-- Why a review could not be given. -/
inductive ReviewError where
  | number (e : Text.Overlong)
  | notPositive (e : NotPositive)
  | survey (e : SurveyError)
  | expression (e : BadExpression)
  | remark (c : CommentOf Json.Literal)
  | path (e : PathFault)
deriving DecidableEq, Repr

namespace Review

/-- A comment that can be verified. -/
def worded (c : CommentOf Json.Literal) : Except ReviewError Comment :=
  match c.worded? with
  | some c => .ok c
  | none => .error (.remark c)

/-- The review of a patch with comments, both as texts. -/
def ofTexts (r : Number.Rounding) (s : Settings) (t : Tree) (root : Location)
    (patch comments : String) : Except ReviewError Review := do
  let diff ← (Diff.read patch).mapError .number
  let chunks ← (Chunk.ofDiff s.chunkBudget diff).mapError .notPositive
  let options ← s.survey.checked.mapError .notPositive
  let survey ← (Survey.ofTree options t root diff.paths).mapError .survey
  let verifier ←
    (Verifier.ofOptions (.ofSettings s survey.names diff.paths)).mapError .expression
  let comments ← (Comment.inFiles diff.paths (Comment.ofText comments)).mapM worded
  let verdict ← (verifier.verdict r t root comments).mapError .path
  let summaries := fun (file, ds) =>
    ((file, Definition.summaries Definition.usualCount false ds) :
      String × List Definition.Summary)
  return ⟨chunks, survey.relevant.map summaries, survey.hotspots, verdict⟩

end Review

end PatchReview
