/-!
# Common subsequences

The length of the longest common subsequence of two lists, by the usual recursion (`common`), and by
rows: the row of a list against another has the length for every tail of the first, and the row for one
more item in front comes from the last row (`commonRow`). Each row starts with the length for the whole
list, which is what the recursion gives (`commonRow_eq`).
-/

namespace PatchReview.Similarity

variable {α : Type} [DecidableEq α]

/-- The length of the longest common subsequence. -/
def common : List α → List α → Nat
  | [], _ => 0
  | _ :: _, [] => 0
  | a :: as, b :: bs =>
    if a = b then common as bs + 1 else max (common as (b :: bs)) (common (a :: as) bs)
termination_by as bs => as.length + bs.length

/-- The row for one more item in front, from the row before. -/
def nextRow (b : α) : List α → List Nat → List Nat
  | [], _ => [0]
  | a :: as, row =>
    let rest := nextRow b as row.tail
    let here := if a = b then row.tail.headD 0 + 1 else max (rest.headD 0) (row.headD 0)
    here :: rest

/-- The lengths for the tails of the first list against the second. -/
def commonRow (as : List α) : List α → List Nat
  | [] => List.replicate (as.length + 1) 0
  | b :: bs => nextRow b as (commonRow as bs)

/-- The length for the whole list, from its row. -/
def commonLength (as bs : List α) : Nat := (commonRow as bs).headD 0

/-- The lengths against the tails of the second list, from the longest to the shortest but for the
    empty one. -/
def commonTailsFrom (as : List α) : List α → List Nat × List Nat
  | [] => (List.replicate (as.length + 1) 0, [])
  | b :: bs =>
    let (row, found) := commonTailsFrom as bs
    let row := nextRow b as row
    (row, row.headD 0 :: found)

/-- The lengths against the tails of the second list, from the longest to the shortest but for the
    empty one. -/
def commonTails (as bs : List α) : List Nat := (commonTailsFrom as bs).2

theorem common_nil_right (as : List α) : common as [] = 0 := by
  cases as <;> simp [common]

/-- The lengths for the tails of the first list, from the longest to the empty one. -/
def tailLengths : List α → List α → List Nat
  | [], bs => [common [] bs]
  | a :: as, bs => common (a :: as) bs :: tailLengths as bs

theorem headD_tailLengths (as bs : List α) : (tailLengths as bs).headD 0 = common as bs := by
  cases as <;> rfl

theorem nextRow_tailLengths (b : α) (as bs : List α) :
    nextRow b as (tailLengths as bs) = tailLengths as (b :: bs) := by
  induction as with
  | nil => simp [nextRow, tailLengths, common]
  | cons a as ih =>
    simp only [tailLengths, nextRow, List.tail_cons, List.headD_cons, ih, headD_tailLengths,
      List.cons.injEq, and_true]
    rw [common]

/-- The rows hold the lengths of the recursion. -/
theorem commonRow_eq (as bs : List α) : commonRow as bs = tailLengths as bs := by
  induction bs with
  | nil =>
    induction as with
    | nil => simp [commonRow, tailLengths, common]
    | cons a as ih =>
      simp only [commonRow, List.length_cons] at ih ⊢
      rw [List.replicate_succ, ih, tailLengths, common_nil_right]
  | cons b bs ih => rw [commonRow, ih, nextRow_tailLengths]

theorem commonLength_eq (as bs : List α) : commonLength as bs = common as bs := by
  rw [commonLength, commonRow_eq, headD_tailLengths]

end PatchReview.Similarity
