import Mathlib
import PatchReview.Proofs.Distinct
import PatchReview.Proofs.Number.Rounding
import PatchReview.Similarity.Score

/-!
# The overlap of texts

The overlap of two texts is counted in two ways: the words that both have are counted once each, and the
words that each has as often as they stand in it. So two texts with the same words in another order overlap
by the share of different words among all (`wordOverlap_of_perm`), which is less than all of them where a
word is repeated, while a text overlaps with itself wholly (`wordOverlap_reordered`).
-/

namespace PatchReview.Similarity

open PatchReview.Number (Rounding nearestBinary nearestBinary_eq_one_iff)

/-! ## Repeated words -/

/-- How many words are there already. -/
def repeats (ws : List (List Char)) : Nat := ws.length - ws.eraseDups.length

theorem eraseDups_subperm (ws : List (List Char)) : ws.eraseDups.Subperm ws :=
  (nodup_eraseDups ws).subperm fun _ hw => List.mem_eraseDups.1 hw

/-- No word is repeated exactly if all differ. -/
theorem repeats_eq_zero_iff {ws : List (List Char)} : repeats ws = 0 ↔ ws.Nodup := by
  rw [repeats, Nat.sub_eq_zero_iff_le]
  constructor
  · intro hle
    exact ((eraseDups_subperm ws).perm_of_length_le hle).nodup_iff.1 (nodup_eraseDups ws)
  · intro hnodup
    exact (hnodup.subperm fun w hw => List.mem_eraseDups.2 hw).length_le

/-! ## Texts with the same words -/

section

variable {a b : List Char}

/-- Where the order differs, there are words. -/
theorem ne_nil_of_perm_of_ne {ws ws' : List (List Char)} (h : ws.Perm ws') (hne : ws ≠ ws') : ws ≠ [] := by
  rintro rfl
  exact hne h.nil_eq

/-- **The same words in another order overlap by the share of different words among all.** -/
theorem wordOverlap_of_perm (r : Rounding) (h : (plainWords a).Perm (plainWords b)) :
    wordOverlap r a b = if plainWords a = plainWords b then 1
      else r.div (plainWords a).eraseDups.length (plainWords a).length := by
  rw [wordOverlap]
  by_cases heq : plainWords a = plainWords b
  · rw [if_pos heq, if_pos heq]
  · have hshared : (plainWords a).filter ((plainWords b).contains ·) = plainWords a :=
      List.filter_eq_self.2 fun w hw => List.contains_iff_mem.2 (h.mem_iff.1 hw)
    have hpos := List.length_pos_iff.2 (ne_nil_of_perm_of_ne h heq)
    rw [if_neg heq, if_neg heq, hshared, ← h.length_eq, Nat.max_self, Nat.max_eq_left hpos]

/-- The share of different words is rounded to one exactly if hardly any word is repeated. -/
theorem nearestBinary_distinct_eq_one_iff {ws : List (List Char)} (h : ws ≠ []) :
    nearestBinary (ws.eraseDups.length / ws.length) = 1 ↔ 2 ^ 54 * repeats ws ≤ ws.length := by
  have hlength : (0 : Rat) < ws.length := Nat.cast_pos.2 (List.length_pos_iff.2 h)
  have hle := (eraseDups_subperm ws).length_le
  have hdistinct : 0 < ws.eraseDups.length := by
    obtain ⟨w, hw⟩ := List.exists_mem_of_ne_nil ws h
    exact List.length_pos_of_mem (List.mem_eraseDups.2 hw)
  have hshare : (1 : Rat) - ws.eraseDups.length / ws.length = repeats ws / ws.length := by
    rw [repeats, Nat.cast_sub hle, sub_div, div_self hlength.ne']
  rw [nearestBinary_eq_one_iff (by positivity) (div_le_one_of_le₀ (by exact_mod_cast hle) hlength.le),
    hshare, div_le_div_iff₀ hlength (by positivity), one_mul, mul_comm]
  exact_mod_cast Iff.rfl

/-- **Another order of words is scored less wherever a word is repeated.** Two texts with the same words
    overlap by the share of different words among all, unless they have them in the same order. So they
    overlap wholly if no word is repeated, and otherwise only if the order is the same or the repeated words
    are too few to show in the score, no more than one in 2^54. -/
theorem wordOverlap_reordered (h : (plainWords a).Perm (plainWords b)) :
    wordOverlap .binary64 a b = (if plainWords a = plainWords b then 1
        else nearestBinary ((plainWords a).eraseDups.length / (plainWords a).length)) ∧
      ((plainWords a).Nodup → wordOverlap .binary64 a b = 1) ∧
      (wordOverlap .binary64 a b = 1 ↔
        plainWords a = plainWords b ∨ 2 ^ 54 * repeats (plainWords a) ≤ (plainWords a).length) := by
  have hwhole : wordOverlap .binary64 a b = 1 ↔
      plainWords a = plainWords b ∨ 2 ^ 54 * repeats (plainWords a) ≤ (plainWords a).length := by
    rw [wordOverlap_of_perm .binary64 h]
    by_cases heq : plainWords a = plainWords b
    · rw [if_pos heq]
      exact iff_of_true rfl (.inl heq)
    · rw [if_neg heq, or_iff_right heq]
      exact nearestBinary_distinct_eq_one_iff (ne_nil_of_perm_of_ne h heq)
  refine ⟨wordOverlap_of_perm .binary64 h, ?_, hwhole⟩
  intro hnodup
  refine hwhole.2 (.inr ?_)
  rw [repeats_eq_zero_iff.2 hnodup]
  exact Nat.zero_le _

/-- Two words that change places. -/
theorem wordOverlap_reordered_twoWords :
    (plainWords "cache grows".toList).Perm (plainWords "Grows: cache!".toList) ∧
      wordOverlap .binary64 "cache grows".toList "Grows: cache!".toList = 1 := by
  have hperm : (plainWords "cache grows".toList).Perm (plainWords "Grows: cache!".toList) := by
    decide +kernel
  exact ⟨hperm, (wordOverlap_reordered hperm).2.1 (by decide +kernel)⟩

/-- One of three words is repeated, so the same words in another order overlap by two thirds. -/
theorem wordOverlap_repeatedWord :
    (plainWords "a a b".toList).Perm (plainWords "a b a".toList) ∧
      wordOverlap .binary64 "a a b".toList "a b a".toList = nearestBinary (2 / 3) ∧
      nearestBinary (2 / 3) ≠ 1 := by
  decide +kernel

end

end PatchReview.Similarity
