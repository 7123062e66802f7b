import Mathlib
import PatchReview.Proofs.Similarity.Words
import PatchReview.Similarity.Score

/-!
# Words of ASCII and words of any script

Texts are read as words in two ways. For most scores the letters and digits of all scripts count, for the
overlap those of ASCII alone. Both give the same words where all letters and digits of a text are of ASCII
(`plainWords_eq_processedWords`), so such texts overlap only where they share a word
(`wordOverlap_of_ascii`). What is left of other texts may be stray words, which are pieces of words, or
nothing at all. Only by these texts without a common word pass for one another
(`lt_wordOverlap_iff`, `wordOverlap_of_strayWords_eq_nil`).
-/

namespace PatchReview.Similarity

open PatchReview.Text
open PatchReview.Number (Rounding nearestBinary)

/-! ## Letters of ASCII -/

/-- Whether all letters and digits of a text are of ASCII. -/
def HasAsciiLetters (cs : List Char) : Prop := ∀ c ∈ cs, isAlphanumeric c = true → c.toNat < 128

instance (cs : List Char) : Decidable (HasAsciiLetters cs) := List.decidableBAll _ cs

theorem isPlain_iff {c : Char} :
    isPlain c = true ↔ 97 ≤ c.toNat ∧ c.toNat ≤ 122 ∨ 48 ≤ c.toNat ∧ c.toNat ≤ 57 := by
  simp only [isPlain, Bool.or_eq_true, Bool.and_eq_true, decide_eq_true_eq, Char.le_def, UInt32.le_iff_toNat_le]
  exact Iff.rfl

theorem isPlain_toLower_ascii : ∀ n < 128,
    isPlain (Char.ofNat n).toLower = (Char.ofNat n).isAlphanum := by
  decide +kernel

/-- Only a letter beyond ASCII becomes one of ASCII in lower case. -/
theorem capitalRuns_plain : ∀ r ∈ capitalRuns,
    122 < (r.1 : Int) + r.2.2.2 ∨ r.1 = r.2.1 ∧ inRanges wordRanges r.1 = true := by
  decide +kernel

/-- A character of ASCII is a letter or digit exactly if it is one in lower case. -/
theorem isPlain_lowerChar_of_ascii {c : Char} (h : c.toNat < 128) :
    isPlain (lowerChar c) = isAlphanumeric c := by
  have hc := isPlain_toLower_ascii c.toNat h
  rw [Char.ofNat_toNat] at hc
  rw [lowerChar, if_pos h, isAlphanumeric, if_pos h, hc]

/-- **What is a letter of ASCII in lower case was a letter.** -/
theorem isAlphanumeric_of_isPlain_lowerChar {c : Char} (h : isPlain (lowerChar c) = true) :
    isAlphanumeric c = true := by
  by_cases hascii : c.toNat < 128
  · rwa [isPlain_lowerChar_of_ascii hascii] at h
  · rw [isPlain_iff, lowerChar, if_neg hascii] at h
    rw [isAlphanumeric, if_neg hascii]
    split at h
    · rename_i r hfind
      have hr := List.mem_of_find?_eq_some hfind
      have hin := List.find?_some hfind
      simp only [Bool.and_eq_true, decide_eq_true_eq] at hin
      rcases capitalRuns_plain r hr with hhigh | ⟨hone, hletter⟩
      · rw [Char.toNat_ofNat] at h
        split at h <;> omega
      · rwa [show c.toNat = r.1 by omega]
    · omega

/-! ## The two readings -/

section

variable {a b : List Char}

/-- A text whose letters are of ASCII is put in lower case letter by letter. -/
theorem lowerFrom_eq_map (h : HasAsciiLetters a) (before : List Char) :
    lowerFrom before a = a.map lowerChar := by
  induction a generalizing before with
  | nil => rfl
  | cons c rest ih =>
      obtain ⟨hc, hrest⟩ := List.forall_mem_cons.1 h
      -- the two letters that are not put in lower case alone are not of ASCII
      have hI : c ≠ '\u0130' := by
        rintro rfl
        exact absurd (hc (by decide +kernel)) (by decide)
      have hS : c ≠ '\u03A3' := by
        rintro rfl
        exact absurd (hc (by decide +kernel)) (by decide)
      rw [lowerFrom, if_neg hI, if_neg hS, ih hrest, List.map_cons]
      rfl

theorem processedWords_eq (cs : List Char) : processedWords cs = words (cs.map processedChar) :=
  words_trimmed (fun c hc => by rw [of_decide_eq_true hc]; decide) _

/-- **Where all letters are of ASCII, both readings give the same words.** -/
theorem plainWords_eq_processedWords (h : HasAsciiLetters a) : plainWords a = processedWords a := by
  rw [plainWords, processedWords_eq, lower, lowerFrom_eq_map h, List.map_map]
  refine wordsFrom_congr ?_ []
  rw [List.forall₂_map_left_iff, List.forall₂_map_right_iff, List.forall₂_same]
  intro c hc
  show (if isPlain (lowerChar c) || isBlank (lowerChar c) then lowerChar c else ' ') = processedChar c ∨
    isBlank (if isPlain (lowerChar c) || isBlank (lowerChar c) then lowerChar c else ' ') = true ∧
      isBlank (processedChar c) = true
  rw [processedChar]
  by_cases hletter : isAlphanumeric c = true
  · have hplain := isPlain_lowerChar_of_ascii (h c hc hletter)
    rw [if_pos hletter, hplain, hletter, Bool.true_or, if_pos rfl]
    exact .inl rfl
  · have hplain := Bool.eq_false_iff.2 (mt isAlphanumeric_of_isPlain_lowerChar hletter)
    rw [if_neg hletter, hplain, Bool.false_or]
    refine .inr ⟨?_, by decide⟩
    split
    · assumption
    · decide

/-- A text with a letter or digit has words. -/
theorem processedWords_ne_nil_of_mem {c : Char} (hc : c ∈ a) (hletter : isAlphanumeric c = true) :
    processedWords a ≠ [] := by
  have hchar : processedChar c = lowerChar c := by rw [processedChar, if_pos hletter]
  rw [processedWords_eq]
  exact words_ne_nil (List.mem_map_of_mem hc) (hchar ▸ isBlank_lowerChar hletter)

/-! ## Texts without a common word -/

/-- Whether texts have no word in common. -/
def SharesNoWord (a b : List Char) : Prop := ∀ w ∈ processedWords a, w ∉ processedWords b

instance (a b : List Char) : Decidable (SharesNoWord a b) := List.decidableBAll _ (processedWords a)

/-- What is left of both texts when only ASCII is read, and is not a word of both: each piece once. -/
def strayWords (a b : List Char) : List (List Char) :=
  ((plainWords a).filter fun w => (plainWords b).contains w &&
    !((processedWords a).contains w && (processedWords b).contains w)).eraseDups

/-- Whether stray words make a text pass for another: the same is left of both, which may be nothing, or
    more than nine tenths of what is left are stray words that both have. -/
def PassesFor (a b : List Char) : Prop :=
  plainWords a = plainWords b ∨
    nearestBinary (9 / 10) < nearestBinary ((strayWords a b).length /
      (max (max (plainWords a).length (plainWords b).length) 1 : Nat))

/-- All that is left of texts without a common word are stray words. -/
theorem strayWords_eq (h : SharesNoWord a b) :
    strayWords a b = ((plainWords a).filter ((plainWords b).contains ·)).eraseDups := by
  rw [strayWords]
  congr 1
  refine List.filter_congr fun w _ => ?_
  have hnot : ((processedWords a).contains w && (processedWords b).contains w) = false := by
    rw [Bool.and_eq_false_iff, ← Bool.not_eq_true, ← Bool.not_eq_true, List.contains_iff_mem,
      List.contains_iff_mem, ← not_and_or]
    exact fun hboth => h w hboth.1 hboth.2
  rw [hnot, Bool.not_false, Bool.and_true]

/-- **Texts without a common word overlap only by stray words.** -/
theorem lt_wordOverlap_iff (h : SharesNoWord a b) :
    nearestBinary (9 / 10) < wordOverlap .binary64 a b ↔ PassesFor a b := by
  rw [PassesFor, strayWords_eq h, wordOverlap]
  by_cases heq : plainWords a = plainWords b
  · rw [if_pos heq]
    exact iff_of_true (by decide +kernel) (.inl heq)
  · rw [if_neg heq, or_iff_right heq]
    exact Iff.rfl

/-- **Without stray words, such texts overlap only if nothing is left of either**, and then wholly. -/
theorem wordOverlap_of_strayWords_eq_nil (h : SharesNoWord a b) (hstray : strayWords a b = []) :
    wordOverlap .binary64 a b = if plainWords a = [] ∧ plainWords b = [] then 1 else 0 := by
  have hnone : (plainWords a).filter ((plainWords b).contains ·) = [] := by
    rw [List.eq_nil_iff_forall_not_mem]
    intro w hw
    exact List.not_mem_nil (hstray ▸ strayWords_eq h ▸ List.mem_eraseDups.2 hw)
  rw [wordOverlap]
  by_cases heq : plainWords a = plainWords b
  · have hself : (plainWords b).filter ((plainWords b).contains ·) = plainWords b :=
      List.filter_eq_self.2 fun w hw => List.contains_iff_mem.2 hw
    rw [heq, hself] at hnone
    rw [if_pos heq, heq, hnone, if_pos ⟨rfl, rfl⟩]
  · have hsome : ¬(plainWords a = [] ∧ plainWords b = []) := fun hboth =>
      heq (hboth.1.trans hboth.2.symm)
    rw [if_neg heq, if_neg hsome, hnone]
    show nearestBinary ((0 : Nat) / _) = 0
    rw [Nat.cast_zero, zero_div]
    rfl

/-- **Where all letters are of ASCII, there are no stray words.** -/
theorem strayWords_of_ascii (ha : HasAsciiLetters a) (hb : HasAsciiLetters b) : strayWords a b = [] := by
  rw [strayWords, plainWords_eq_processedWords ha, plainWords_eq_processedWords hb,
    List.filter_eq_nil_iff.2, List.eraseDups_nil]
  intro w hw
  rw [List.contains_iff_mem.2 hw, Bool.true_and, Bool.and_not_self]
  exact Bool.false_ne_true

/-- So texts in ASCII with no word in common do not overlap. -/
theorem wordOverlap_of_ascii (ha : HasAsciiLetters a) (hb : HasAsciiLetters b) {c : Char} (hc : c ∈ a)
    (hletter : isAlphanumeric c = true) (h : SharesNoWord a b) : wordOverlap .binary64 a b = 0 := by
  rw [wordOverlap_of_strayWords_eq_nil h (strayWords_of_ascii ha hb), if_neg]
  rintro ⟨hnil, -⟩
  rw [plainWords_eq_processedWords ha] at hnil
  exact processedWords_ne_nil_of_mem hc hletter hnil

end

end PatchReview.Similarity
