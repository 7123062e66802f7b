import PatchReview.Chunk
import PatchReview.Record.Reader

/-!
# Diffs and chunks as records
-/

namespace PatchReview.Record

/-- An added line. -/
def addedLine : Read AddedLine := record fun j =>
  AddedLine.mk <$> required "line_number" integer j <*> required "content" text j

/-- A hunk. -/
def hunk : Read Hunk := record fun j =>
  Hunk.mk <$> required "file_path" text j <*> required "target_start" integer j
    <*> required "target_end" integer j <*> withDefault "added_lines" (list addedLine) [] j

/-- The changes of a file. -/
def fileChange : Read FileChange := record fun j =>
  FileChange.mk <$> required "path" text j <*> withDefault "old_path" optionalText none j
    <*> withDefault "status" (listed ChangeStatus.ofLetter?) .modified j
    <*> withDefault "hunks" (list hunk) [] j

/-- The totals of a diff. -/
def diffTotals : Read DiffTotals := record fun j =>
  DiffTotals.mk <$> withDefault "added" integer 0 j <*> withDefault "deleted" integer 0 j
    <*> withDefault "files_changed" integer 0 j

/-- A diff. -/
def diff : Read Diff := record fun j =>
  Diff.mk <$> withDefault "files" (list fileChange) [] j
    <*> withDefault "summary" diffTotals ⟨0, 0, 0⟩ j

/-- A chunk. -/
def chunk : Read Chunk := record fun j =>
  Chunk.mk <$> required "file_path" text j <*> withDefault "hunk_indices" (list integer) [] j
    <*> withDefault "token_estimate" integer 0 j

end PatchReview.Record
