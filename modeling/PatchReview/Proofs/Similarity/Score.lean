import Mathlib
import PatchReview.Proofs.Distinct
import PatchReview.Proofs.Similarity.SharedWords

/-!
# Scores of two texts

Where nothing is rounded, every score of two texts is a share and the same either way round, and that of
the best of them is whole exactly if both texts have something to compare and one of them is covered by
the other: all of its words are words of the other, or all of it is a part of the other
(`similarity_exact`).
-/

namespace PatchReview.Similarity

open PatchReview.Number (Rounding)

/-- Whether what two texts score is a share, the same either way round. -/
structure IsScore (score : List Char → List Char → Rat) : Prop where
  share : ∀ a b, IsShare (score a b)
  symm  : ∀ a b, score a b = score b a

/-! ## Scores that are not rounded -/

theorem scoreOf_exactly (part : Rat) : scoreOf .exactly part = part := by
  show (1 - (1 - part)) * 100 / 100 = part
  ring

theorem setScoreOf_exactly (part : Rat) : setScoreOf .exactly part = part := by
  show (100 - 100 * (1 - part)) / 100 = part
  ring

theorem comparable_iff {a b : List Char} : comparable a b = true ↔ processed a ≠ [] ∧ processed b ≠ [] := by
  simp only [comparable, Bool.and_eq_true, Bool.not_eq_true', List.isEmpty_eq_false_iff, ne_eq]

theorem comparable_comm (a b : List Char) : comparable a b = comparable b a := Bool.and_comm _ _

/-- Texts that cannot be compared have nothing in common. -/
theorem IsScore.whenComparable {part : List Char → List Char → Rat} (h : IsScore part) :
    IsScore fun a b => if comparable a b then part a b else 0 where
  share := by
    intro a b
    split
    · exact h.share a b
    · exact isShare_zero
  symm := by
    intro a b
    rw [comparable_comm, h.symm]

theorem tokenSortRatio_exactly :
    tokenSortRatio .exactly = fun a b => if comparable a b then
      likeness (sortedText (processedWords a)) (sortedText (processedWords b)) else 0 := by
  funext a b
  rw [tokenSortRatio, scoreOf_exactly]

theorem partialRatio_exactly :
    partialRatio .exactly = fun a b => if comparable a b then
      partialLikeness (processed a) (processed b) else 0 := by
  funext a b
  rw [partialRatio, scoreOf_exactly]

theorem tokenSetRatio_exactly :
    tokenSetRatio .exactly = fun a b => if comparable a b then
      setLikeness (processedWords a).eraseDups (processedWords b).eraseDups else 0 := by
  funext a b
  rw [tokenSetRatio, setScoreOf_exactly]

theorem isScore_tokenSortRatio : IsScore (tokenSortRatio .exactly) := by
  rw [tokenSortRatio_exactly]
  exact .whenComparable ⟨fun a b => isShare_likeness _ _, fun a b => likeness_comm _ _⟩

theorem isScore_partialRatio : IsScore (partialRatio .exactly) := by
  rw [partialRatio_exactly]
  exact .whenComparable ⟨fun a b => isShare_partialLikeness _ _, fun a b => partialLikeness_comm _ _⟩

theorem isScore_tokenSetRatio : IsScore (tokenSetRatio .exactly) := by
  rw [tokenSetRatio_exactly]
  exact .whenComparable ⟨fun a b => isShare_setLikeness _ _,
    fun a b => setLikeness_comm (nodup_eraseDups _) (nodup_eraseDups _)⟩

/-- The better of two scores is one. -/
theorem IsScore.larger {score score' : List Char → List Char → Rat} (h : IsScore score)
    (h' : IsScore score') : IsScore fun a b => larger (score a b) (score' a b) where
  share := by
    intro a b
    rw [larger_eq_max]
    exact ⟨le_max_of_le_left (h.share a b).nonneg, max_le (h.share a b).le_one (h'.share a b).le_one⟩
  symm := by
    intro a b
    rw [h.symm, h'.symm]

theorem isScore_similarity : IsScore (similarity .exactly) :=
  isScore_tokenSortRatio.larger (isScore_partialRatio.larger isScore_tokenSetRatio)

/-! ## The whole score -/

theorem larger_eq_one_iff {p q : Rat} (hp : IsShare p) (hq : IsShare q) : larger p q = 1 ↔ p = 1 ∨ q = 1 := by
  rw [larger_eq_max]
  constructor
  · intro h
    rcases max_choice p q with hmax | hmax
    · exact .inl (hmax.symm.trans h)
    · exact .inr (hmax.symm.trans h)
  · rintro (rfl | rfl)
    · exact max_eq_left hq.le_one
    · exact max_eq_right hp.le_one

/-- Whether a text covers another, as texts are compared: all words of the other are words of it, or all of
    the other is a part of it. -/
def Covers (b a : List Char) : Prop := processedWords a ⊆ processedWords b ∨ processed a <:+: processed b

section

variable {a b : List Char} (h : comparable a b = true)

include h

theorem tokenSortRatio_eq_one_iff :
    tokenSortRatio .exactly a b = 1 ↔ (processedWords a).Perm (processedWords b) := by
  rw [tokenSortRatio_exactly]
  show (if comparable a b then _ else 0) = 1 ↔ _
  rw [if_pos h, likeness_eq_one_iff]
  exact sortedText_eq_iff (fun _ => isWord_of_mem_processedWords) (fun _ => isWord_of_mem_processedWords)

theorem partialRatio_eq_one_iff :
    partialRatio .exactly a b = 1 ↔ processed a <:+: processed b ∨ processed b <:+: processed a := by
  rw [partialRatio_exactly]
  show (if comparable a b then _ else 0) = 1 ↔ _
  rw [if_pos h, partialLikeness_eq_one_iff]

theorem tokenSetRatio_eq_one_iff :
    tokenSetRatio .exactly a b = 1 ↔
      processedWords a ⊆ processedWords b ∨ processedWords b ⊆ processedWords a := by
  obtain ⟨ha, hb⟩ := comparable_iff.1 h
  have hwords : ∀ cs, ∀ w ∈ (processedWords cs).eraseDups, Text.IsWord w :=
    fun cs w hw => isWord_of_mem_processedWords (List.mem_eraseDups.1 hw)
  have hne : ∀ {cs : List Char}, processed cs ≠ [] → (processedWords cs).eraseDups ≠ [] := by
    intro cs hcs hnil
    obtain ⟨w, hw⟩ := List.exists_mem_of_ne_nil _ (processedWords_ne_nil hcs)
    exact List.not_mem_nil (hnil ▸ List.mem_eraseDups.2 hw)
  rw [tokenSetRatio_exactly]
  show (if comparable a b then _ else 0) = 1 ↔ _
  rw [if_pos h, setLikeness_eq_one_iff (hwords a) (hwords b) (hne ha) (hne hb)]
  simp only [List.subset_def, List.mem_eraseDups]

/-- **The best score is whole exactly if one text covers the other.** Where the sorted words are equal, each
    text has all words of the other. -/
theorem similarity_eq_one_iff : similarity .exactly a b = 1 ↔ Covers b a ∨ Covers a b := by
  rw [similarity, larger_eq_one_iff (isScore_tokenSortRatio.share a b)
      ((isScore_partialRatio.larger isScore_tokenSetRatio).share a b),
    larger_eq_one_iff (isScore_partialRatio.share a b) (isScore_tokenSetRatio.share a b),
    tokenSortRatio_eq_one_iff h, partialRatio_eq_one_iff h, tokenSetRatio_eq_one_iff h, Covers, Covers]
  constructor
  · rintro (hperm | (hpart | hpart) | hwords | hwords)
    · exact .inl (.inl hperm.subset)
    · exact .inl (.inr hpart)
    · exact .inr (.inr hpart)
    · exact .inl (.inl hwords)
    · exact .inr (.inl hwords)
  · rintro ((hwords | hpart) | hwords | hpart)
    · exact .inr (.inr (.inl hwords))
    · exact .inr (.inl (.inl hpart))
    · exact .inr (.inr (.inr hwords))
    · exact .inr (.inl (.inr hpart))

end

/-- Texts that cannot be compared score nothing. -/
theorem similarity_of_not_comparable {a b : List Char} (h : ¬comparable a b = true) :
    similarity .exactly a b = 0 := by
  rw [similarity, tokenSortRatio, partialRatio, tokenSetRatio, if_neg h, if_neg h, if_neg h, larger_eq_max,
    larger_eq_max, max_self, max_self]

/-- **All scores are shares, the same either way round**, and the best is whole exactly if both texts have
    something to compare and one covers the other. -/
theorem similarity_exact :
    IsScore (tokenSortRatio .exactly) ∧ IsScore (partialRatio .exactly) ∧ IsScore (tokenSetRatio .exactly) ∧
      IsScore (similarity .exactly) ∧
      ∀ a b, similarity .exactly a b = 1 ↔
        processed a ≠ [] ∧ processed b ≠ [] ∧ (Covers b a ∨ Covers a b) := by
  refine ⟨isScore_tokenSortRatio, isScore_partialRatio, isScore_tokenSetRatio, isScore_similarity, ?_⟩
  intro a b
  rw [← and_assoc, ← comparable_iff]
  by_cases h : comparable a b = true
  · rw [similarity_eq_one_iff h, and_iff_right h]
  · rw [similarity_of_not_comparable h]
    exact iff_of_false zero_ne_one fun hboth => h hboth.1

end PatchReview.Similarity
