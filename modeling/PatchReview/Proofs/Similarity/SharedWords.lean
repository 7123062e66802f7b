import Mathlib
import PatchReview.Proofs.Similarity.Likeness
import PatchReview.Proofs.Similarity.Words

/-!
# Shares of words

The share of two sets of words is a share, and the same either way round. It is whole exactly if one set
holds the other (`setLikeness_eq_one_iff`): where neither does, some word of each is not of the other, so
the texts that these words make are not equal.
-/

namespace PatchReview.Similarity

/-! ## What is left of a whole -/

/-- The share of a whole without some of it. -/
def shareWithout (away whole : Nat) : Rat := 1 - (away : Rat) / (whole : Rat)

theorem isShare_shareWithout {away whole : Nat} (h : away ≤ whole) : IsShare (shareWithout away whole) where
  nonneg := sub_nonneg.2 (div_le_one_of_le₀ (Nat.cast_le.2 h) (Nat.cast_nonneg whole))
  le_one := sub_le_self 1 (by positivity)

theorem shareWithout_eq_one_iff {away whole : Nat} : shareWithout away whole = 1 ↔ away = 0 ∨ whole = 0 := by
  rw [shareWithout, sub_eq_self, div_eq_zero_iff, Nat.cast_eq_zero, Nat.cast_eq_zero]

/-- How many characters of two texts are not in common. -/
def apart (x y : List Char) : Nat := x.length + y.length - 2 * commonLength x y

theorem apart_comm (x y : List Char) : apart x y = apart y x := by
  rw [apart, apart, commonLength_eq, commonLength_eq, common_comm, Nat.add_comm]

theorem apart_le (x y : List Char) : apart x y ≤ x.length + y.length := Nat.sub_le _ _

theorem apart_eq_zero_iff {x y : List Char} : apart x y = 0 ↔ x = y := by
  rw [apart, commonLength_eq]
  have hleft := common_le_left x y
  have hright := common_le_right x y
  constructor
  · intro h
    exact eq_of_common_eq (by omega) (by omega)
  · rintro rfl
    rw [common_self]
    omega

/-! ## Shared words and others -/

/-- The words of the first list that the second has. -/
def sharedWords (a b : List (List Char)) : List (List Char) := a.filter (b.contains ·)

/-- The words of the first list that the second does not have. -/
def onlyWords (a b : List (List Char)) : List (List Char) := a.filter (!b.contains ·)

variable {a b : List (List Char)} {w : List Char}

theorem mem_sharedWords_iff : w ∈ sharedWords a b ↔ w ∈ a ∧ w ∈ b := by
  rw [sharedWords, List.mem_filter, List.contains_iff_mem]

theorem mem_onlyWords_iff : w ∈ onlyWords a b ↔ w ∈ a ∧ w ∉ b := by
  rw [onlyWords, List.mem_filter, Bool.not_eq_true', ← Bool.not_eq_true, List.contains_iff_mem]

theorem onlyWords_eq_nil_iff : onlyWords a b = [] ↔ a ⊆ b := by
  rw [List.eq_nil_iff_forall_not_mem]
  constructor
  · intro h w hw
    by_contra hnot
    exact h w (mem_onlyWords_iff.2 ⟨hw, hnot⟩)
  · intro h w hw
    obtain ⟨hin, hnot⟩ := mem_onlyWords_iff.1 hw
    exact hnot (h hin)

theorem sharedWords_perm (ha : a.Nodup) (hb : b.Nodup) : (sharedWords a b).Perm (sharedWords b a) := by
  refine (List.perm_ext_iff_of_nodup (ha.filter _) (hb.filter _)).2 fun w => ?_
  exact mem_sharedWords_iff.trans (and_comm.trans mem_sharedWords_iff.symm)

/-! ## The three cases -/

/-- The shares of the texts `x` and `y` of further words, each after the text of the shared words, which has
    that length, and a space: with one another, and with the shared words alone. -/
def mixedParts (start space : Nat) (x y : List Char) : List Rat :=
  [shareWithout (apart x y) (start + space + x.length + (start + space + y.length)),
    shareWithout (1 + x.length) (start + (start + space + x.length)),
    shareWithout (1 + y.length) (start + (start + space + y.length))]

theorem setLikeness_eq (a b : List (List Char)) :
    setLikeness a b =
      let start := (sortedText (sharedWords a b)).length
      let space := if (sharedWords a b).isEmpty then 0 else 1
      let x := sortedText (onlyWords a b)
      let y := sortedText (onlyWords b a)
      if !(sharedWords a b).isEmpty && ((onlyWords a b).isEmpty || (onlyWords b a).isEmpty) then 1
      else if (sharedWords a b).isEmpty then
        shareWithout (apart x y) (start + space + x.length + (start + space + y.length))
      else best (mixedParts start space x y) := rfl

theorem setLikeness_of_contained (hshared : sharedWords a b ≠ [])
    (honly : onlyWords a b = [] ∨ onlyWords b a = []) : setLikeness a b = 1 := by
  have hsome : (sharedWords a b).isEmpty = false := List.isEmpty_eq_false_iff.2 hshared
  have hnone : ((onlyWords a b).isEmpty || (onlyWords b a).isEmpty) = true := by
    rwa [Bool.or_eq_true, List.isEmpty_iff, List.isEmpty_iff]
  rw [setLikeness_eq]
  simp only [hsome, hnone, Bool.not_false, Bool.and_true, if_true]

theorem setLikeness_of_disjoint (hshared : sharedWords a b = []) :
    setLikeness a b = shareWithout (apart (sortedText (onlyWords a b)) (sortedText (onlyWords b a)))
      ((sortedText (onlyWords a b)).length + (sortedText (onlyWords b a)).length) := by
  rw [setLikeness_eq, hshared, sortedText_nil]
  simp only [List.isEmpty_nil, Bool.not_true, Bool.false_and, Bool.false_eq_true, if_false, if_true,
    List.length_nil, Nat.zero_add]

theorem setLikeness_of_mixed (hshared : sharedWords a b ≠ []) (hA : onlyWords a b ≠ [])
    (hB : onlyWords b a ≠ []) :
    setLikeness a b = best (mixedParts (sortedText (sharedWords a b)).length 1
      (sortedText (onlyWords a b)) (sortedText (onlyWords b a))) := by
  have hsome : (sharedWords a b).isEmpty = false := List.isEmpty_eq_false_iff.2 hshared
  have hsomeA : (onlyWords a b).isEmpty = false := List.isEmpty_eq_false_iff.2 hA
  have hsomeB : (onlyWords b a).isEmpty = false := List.isEmpty_eq_false_iff.2 hB
  rw [setLikeness_eq]
  simp only [hsome, hsomeA, hsomeB, Bool.or_false, Bool.and_false, Bool.false_eq_true, if_false]

section

variable {start : Nat} {x y : List Char}

theorem isShare_of_mem_mixedParts : ∀ p ∈ mixedParts start 1 x y, IsShare p := by
  have hle := apart_le x y
  intro p hp
  simp only [mixedParts, List.mem_cons, List.not_mem_nil, or_false] at hp
  rcases hp with rfl | rfl | rfl
  all_goals exact isShare_shareWithout (by omega)

theorem one_mem_mixedParts_iff : 1 ∈ mixedParts start 1 x y ↔ x = y := by
  rw [← apart_eq_zero_iff]
  simp only [mixedParts, List.mem_cons, List.not_mem_nil, or_false, eq_comm (a := (1 : Rat)),
    shareWithout_eq_one_iff]
  omega

theorem best_mixedParts_comm (start space : Nat) (x y : List Char) :
    best (mixedParts start space x y) = best (mixedParts start space y x) := by
  rw [mixedParts, mixedParts, apart_comm x y, Nat.add_comm (start + space + x.length)]
  exact best_congr fun p => ((List.Perm.swap _ _ []).cons _).mem_iff

end

/-! ## The share of two sets of words -/

theorem isShare_setLikeness (a b : List (List Char)) : IsShare (setLikeness a b) := by
  by_cases hshared : sharedWords a b = []
  · rw [setLikeness_of_disjoint hshared]
    exact isShare_shareWithout (apart_le _ _)
  · by_cases honly : onlyWords a b = [] ∨ onlyWords b a = []
    · rw [setLikeness_of_contained hshared honly]
      exact isShare_one
    · obtain ⟨hA, hB⟩ := not_or.1 honly
      rw [setLikeness_of_mixed hshared hA hB]
      exact isShare_best isShare_of_mem_mixedParts

theorem setLikeness_comm (ha : a.Nodup) (hb : b.Nodup) : setLikeness a b = setLikeness b a := by
  have hperm := sharedWords_perm ha hb
  by_cases hshared : sharedWords a b = []
  · have hshared' : sharedWords b a = [] := (hshared ▸ hperm).nil_eq.symm
    rw [setLikeness_of_disjoint hshared, setLikeness_of_disjoint hshared', apart_comm, Nat.add_comm]
  · have hshared' : sharedWords b a ≠ [] := fun hnil => hshared (hnil ▸ hperm).eq_nil
    by_cases honly : onlyWords a b = [] ∨ onlyWords b a = []
    · rw [setLikeness_of_contained hshared honly, setLikeness_of_contained hshared' honly.symm]
    · obtain ⟨hA, hB⟩ := not_or.1 honly
      rw [setLikeness_of_mixed hshared hA hB, setLikeness_of_mixed hshared' hB hA, sortedText_congr hperm,
        best_mixedParts_comm]

/-- Words that are not of the other list make no text that words of the other do. -/
theorem sortedText_onlyWords_ne (ha : ∀ w ∈ a, Text.IsWord w) (hb : ∀ w ∈ b, Text.IsWord w)
    (hA : onlyWords a b ≠ []) : sortedText (onlyWords a b) ≠ sortedText (onlyWords b a) := by
  intro heq
  have hperm := (sortedText_eq_iff (fun w hw => ha w (mem_onlyWords_iff.1 hw).1)
    (fun w hw => hb w (mem_onlyWords_iff.1 hw).1)).1 heq
  obtain ⟨w, hw⟩ := List.exists_mem_of_ne_nil _ hA
  exact (mem_onlyWords_iff.1 hw).2 (mem_onlyWords_iff.1 (hperm.mem_iff.1 hw)).1

/-- **The share is whole exactly if all words of one set are of the other.** -/
theorem setLikeness_eq_one_iff (ha : ∀ w ∈ a, Text.IsWord w) (hb : ∀ w ∈ b, Text.IsWord w) (hne : a ≠ [])
    (hne' : b ≠ []) : setLikeness a b = 1 ↔ a ⊆ b ∨ b ⊆ a := by
  rw [← onlyWords_eq_nil_iff, ← onlyWords_eq_nil_iff]
  by_cases hshared : sharedWords a b = []
  · have hnot : ∀ w ∈ a, w ∉ b := by
      intro w hw hw'
      exact List.not_mem_nil (hshared ▸ mem_sharedWords_iff.2 ⟨hw, hw'⟩)
    obtain ⟨w, hw⟩ := List.exists_mem_of_ne_nil a hne
    obtain ⟨w', hw'⟩ := List.exists_mem_of_ne_nil b hne'
    have hA : onlyWords a b ≠ [] := fun hnil => hnot w hw (onlyWords_eq_nil_iff.1 hnil hw)
    have hB : onlyWords b a ≠ [] := fun hnil => hnot w' (onlyWords_eq_nil_iff.1 hnil hw') hw'
    have htexts := sortedText_onlyWords_ne ha hb hA
    rw [setLikeness_of_disjoint hshared, shareWithout_eq_one_iff, apart_eq_zero_iff]
    refine iff_of_false ?_ (not_or.2 ⟨hA, hB⟩)
    rintro (heq | hzero)
    · exact htexts heq
    · obtain ⟨hx, hy⟩ := Nat.add_eq_zero_iff.1 hzero
      exact htexts ((List.length_eq_zero_iff.1 hx).trans (List.length_eq_zero_iff.1 hy).symm)
  · by_cases honly : onlyWords a b = [] ∨ onlyWords b a = []
    · exact iff_of_true (setLikeness_of_contained hshared honly) honly
    · obtain ⟨hA, hB⟩ := not_or.1 honly
      rw [setLikeness_of_mixed hshared hA hB, best_eq_one_iff isShare_of_mem_mixedParts,
        one_mem_mixedParts_iff]
      exact iff_of_false (sortedText_onlyWords_ne ha hb hA) honly

end PatchReview.Similarity
