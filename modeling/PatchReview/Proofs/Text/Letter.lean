import Mathlib
import PatchReview.Text.Blank
import PatchReview.Text.Case

/-!
# Letters are not blank

No letter, digit or other numeral of any script is a blank, and none becomes one in lower case
(`isBlank_lowerChar`). Beyond ASCII this is read off the tables: no range of letters meets a range of
blanks, and nor does a range of capitals once it is moved to its small letters.
-/

namespace PatchReview.Text

/-- The ranges of blanks. -/
def blankRanges : List (Nat × Nat) :=
  [(9, 13), (28, 32), (0x85, 0x85), (0xA0, 0xA0), (0x1680, 0x1680), (0x2000, 0x200A), (0x2028, 0x2029),
    (0x202F, 0x202F), (0x205F, 0x205F), (0x3000, 0x3000)]

theorem inRanges_iff {ranges : List (Nat × Nat)} {n : Nat} :
    inRanges ranges n = true ↔ ∃ r ∈ ranges, r.1 ≤ n ∧ n ≤ r.2 := by
  simp only [inRanges, List.any_eq_true, Bool.and_eq_true, decide_eq_true_eq]

theorem isBlank_iff {c : Char} : isBlank c = true ↔ inRanges blankRanges c.toNat = true := by
  simp only [isBlank, inRanges, blankRanges, List.any_cons, List.any_nil, Bool.or_eq_true, Bool.and_eq_true,
    decide_eq_true_eq, beq_iff_eq, Bool.false_eq_true, or_false]
  omega

theorem blankRanges_pos : ∀ s ∈ blankRanges, 0 < s.1 := by
  decide

/-- What lies in no range of blanks is none. -/
theorem isBlank_eq_false {c : Char} (h : ∀ s ∈ blankRanges, s.2 < c.toNat ∨ c.toNat < s.1) :
    isBlank c = false := by
  rw [Bool.eq_false_iff]
  intro hblank
  obtain ⟨s, hs, hfirst, hlast⟩ := inRanges_iff.1 (isBlank_iff.1 hblank)
  have hout := h s hs
  omega

/-- No range of letters and numerals meets one of blanks. -/
theorem wordRanges_apart : ∀ r ∈ wordRanges, ∀ s ∈ blankRanges, s.2 < r.1 ∨ r.2 < s.1 := by
  decide +kernel

/-- Nor does one of capitals that is moved to their small letters. -/
theorem capitalRuns_apart : ∀ r ∈ capitalRuns, ∀ s ∈ blankRanges,
    (s.2 : Int) < r.1 + r.2.2.2 ∨ (r.2.1 : Int) + r.2.2.2 < s.1 := by
  decide +kernel

theorem ascii_apart : ∀ n < 128, (Char.ofNat n).isAlphanum = true →
    isBlank (Char.ofNat n).toLower = false := by
  decide +kernel

/-- **In lower case, no letter or digit is a blank.** -/
theorem isBlank_lowerChar {c : Char} (h : isAlphanumeric c = true) : isBlank (lowerChar c) = false := by
  rw [isAlphanumeric] at h
  rw [lowerChar]
  by_cases hascii : c.toNat < 128
  · rw [if_pos hascii] at h
    rw [if_pos hascii]
    have hc := ascii_apart c.toNat hascii
    rw [Char.ofNat_toNat] at hc
    exact hc h
  · rw [if_neg hascii] at h
    rw [if_neg hascii]
    split
    · rename_i r hfind
      have hr := List.mem_of_find?_eq_some hfind
      have hin := List.find?_some hfind
      simp only [Bool.and_eq_true, decide_eq_true_eq] at hin
      refine isBlank_eq_false ?_
      intro s hs
      have hout := capitalRuns_apart r hr s hs
      have hpos := blankRanges_pos s hs
      rw [Char.toNat_ofNat]
      split
      all_goals omega
    · obtain ⟨r, hr, hfirst, hlast⟩ := inRanges_iff.1 h
      refine isBlank_eq_false ?_
      intro s hs
      have hout := wordRanges_apart r hr s hs
      omega

end PatchReview.Text
