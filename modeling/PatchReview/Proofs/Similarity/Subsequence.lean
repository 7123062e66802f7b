import Mathlib.Data.List.Infix
import PatchReview.Similarity.Subsequence

/-!
# The longest common subsequence

The recursion gives what its name says: two lists have a common subsequence of that length
(`exists_sublist_common`) and none that is longer (`length_le_common`). So the length is the same either way
round, it is no more than either list has, and where it is all that both have the lists are equal
(`eq_of_common_eq`).
-/

namespace PatchReview.Similarity

variable {α : Type} [DecidableEq α]

/-- Two lists have a common subsequence of that length. -/
theorem exists_sublist_common (as bs : List α) :
    ∃ cs : List α, cs.Sublist as ∧ cs.Sublist bs ∧ cs.length = common as bs := by
  induction as, bs using common.induct with
  | case1 bs => exact ⟨[], List.nil_sublist _, List.nil_sublist _, by rw [common, List.length_nil]⟩
  | case2 a as => exact ⟨[], List.nil_sublist _, List.nil_sublist _, by rw [common, List.length_nil]⟩
  | case3 as b bs ih =>
      obtain ⟨cs, has, hbs, hlength⟩ := ih
      exact ⟨b :: cs, has.cons_cons b, hbs.cons_cons b, by rw [common, if_pos rfl, List.length_cons, hlength]⟩
  | case4 a as b bs hne ihA ihB =>
      obtain ⟨cs, has, hbs, hlength⟩ := ihA
      obtain ⟨cs', has', hbs', hlength'⟩ := ihB
      rw [common, if_neg hne]
      rcases Nat.le_total (common as (b :: bs)) (common (a :: as) bs) with hle | hle
      · rw [Nat.max_eq_right hle]
        exact ⟨cs', has', hbs'.cons b, hlength'⟩
      · rw [Nat.max_eq_left hle]
        exact ⟨cs, has.cons a, hbs, hlength⟩

/-- And none that is longer. -/
theorem length_le_common {as bs cs : List α} (has : cs.Sublist as) (hbs : cs.Sublist bs) :
    cs.length ≤ common as bs := by
  induction as, bs using common.induct generalizing cs with
  | case1 bs =>
      rw [List.sublist_nil.1 has]
      exact Nat.zero_le _
  | case2 a as =>
      rw [List.sublist_nil.1 hbs]
      exact Nat.zero_le _
  | case3 as b bs ih =>
      rw [common, if_pos rfl]
      have htail := ih has.tail hbs.tail
      rw [List.length_tail] at htail
      omega
  | case4 a as b bs hne ihA ihB =>
      rw [common, if_neg hne]
      rcases List.sublist_cons_iff.1 has with hin | ⟨rest, rfl, -⟩
      · exact (ihA hin hbs).trans (Nat.le_max_left _ _)
      -- a subsequence that starts with the first item of one list leaves that of the other
      · rcases List.sublist_cons_iff.1 hbs with hin | ⟨rest', heq, -⟩
        · exact (ihB has hin).trans (Nat.le_max_right _ _)
        · exact absurd (List.cons.inj heq).1 hne

theorem common_comm (as bs : List α) : common as bs = common bs as := by
  have hle : ∀ as bs : List α, common as bs ≤ common bs as := by
    intro as bs
    obtain ⟨cs, has, hbs, hlength⟩ := exists_sublist_common as bs
    exact hlength ▸ length_le_common hbs has
  exact Nat.le_antisymm (hle as bs) (hle bs as)

theorem common_le_left (as bs : List α) : common as bs ≤ as.length := by
  obtain ⟨cs, has, -, hlength⟩ := exists_sublist_common as bs
  exact hlength ▸ has.length_le

theorem common_le_right (as bs : List α) : common as bs ≤ bs.length :=
  common_comm as bs ▸ common_le_left bs as

theorem common_self (as : List α) : common as as = as.length :=
  Nat.le_antisymm (common_le_left as as) (length_le_common (List.Sublist.refl as) (List.Sublist.refl as))

theorem common_reverse (as bs : List α) : common as.reverse bs.reverse = common as bs := by
  have hle : ∀ as bs : List α, common as bs ≤ common as.reverse bs.reverse := by
    intro as bs
    obtain ⟨cs, has, hbs, hlength⟩ := exists_sublist_common as bs
    rw [← hlength, ← List.length_reverse]
    exact length_le_common has.reverse hbs.reverse
  refine Nat.le_antisymm ?_ (hle as bs)
  have h := hle as.reverse bs.reverse
  rwa [List.reverse_reverse, List.reverse_reverse] at h

/-- **Only equal lists have all of both in common.** -/
theorem eq_of_common_eq {as bs : List α} (has : common as bs = as.length) (hbs : common as bs = bs.length) :
    as = bs := by
  obtain ⟨cs, hA, hB, hlength⟩ := exists_sublist_common as bs
  exact (hA.eq_of_length (hlength.trans has)).symm.trans (hB.eq_of_length (hlength.trans hbs))

theorem commonTailsFrom_row (as bs : List α) : (commonTailsFrom as bs).1 = commonRow as bs := by
  induction bs with
  | nil => rfl
  | cons b bs ih =>
      show nextRow b as (commonTailsFrom as bs).1 = commonRow as (b :: bs)
      rw [ih, commonRow]

/-- The lengths against the tails of a list start with that for the list. -/
theorem commonTails_cons (as : List α) (b : α) (bs : List α) :
    commonTails as (b :: bs) = common as (b :: bs) :: commonTails as bs := by
  show (nextRow b as (commonTailsFrom as bs).1).headD 0 :: (commonTailsFrom as bs).2 = _
  rw [commonTailsFrom_row, ← commonRow, ← commonLength, commonLength_eq, commonTails]

end PatchReview.Similarity
