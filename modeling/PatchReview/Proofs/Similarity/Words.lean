import Mathlib.Data.Char
import Mathlib.Data.List.Lex
import Mathlib.Data.List.Sort
import PatchReview.Proofs.Text.Letter
import PatchReview.Proofs.Text.Words
import PatchReview.Similarity.Words

/-!
# Words in order

The order of words is the order of lists of characters, which is linear. So the words of a text have one
order only, however they are sorted, and equal words make no difference (`sortedText_eq`). Sorted words
make one text exactly if they are the same words (`sortedText_eq_iff`).

A text that is not empty as it is compared has words (`processedWords_ne_nil`): what is kept of it are
letters and digits, and those are not blank.
-/

namespace PatchReview.Similarity

/-- Words come in the order of their characters. -/
theorem wordBefore_iff (a b : List Char) : wordBefore a b = true ↔ a ≤ b := by
  rw [← not_lt]
  induction a generalizing b with
  | nil => simp [wordBefore]
  | cons x xs ih =>
      cases b with
      | nil => simp [wordBefore]
      | cons y ys =>
          rw [wordBefore, List.cons_lt_cons_iff, Bool.or_eq_true, Bool.and_eq_true,
            decide_eq_true_iff, beq_iff_eq, ih]
          obtain hlt | rfl | hgt := lt_trichotomy x y
          · simp [hlt, hlt.ne', hlt.le]
          · simp
          · simp [hgt, hgt.ne', hgt.le]

/-- **Words have one order**, whatever sorts them. -/
theorem sortedText_eq (ws : List (List Char)) :
    sortedText ws = Text.joined (ws.insertionSort (· ≤ ·)) := by
  have horder : wordBefore = fun a b => decide (a ≤ b) := by
    funext a b
    rw [Bool.eq_iff_iff, wordBefore_iff, decide_eq_true_iff]
  rw [sortedText, horder, List.mergeSort_eq_insertionSort]

theorem sortedText_nil : sortedText [] = [] := by
  rw [sortedText, List.mergeSort_nil]
  rfl

theorem sortedText_congr {ws vs : List (List Char)} (h : ws.Perm vs) : sortedText ws = sortedText vs := by
  have hperm : (ws.insertionSort (· ≤ ·)).Perm (vs.insertionSort (· ≤ ·)) :=
    (List.perm_insertionSort _ ws).trans (h.trans (List.perm_insertionSort _ vs).symm)
  rw [sortedText_eq, sortedText_eq,
    hperm.eq_of_sortedLE List.sortedLE_insertionSort List.sortedLE_insertionSort]

/-- **Sorted words make one text exactly if they are the same**, each as often. -/
theorem sortedText_eq_iff {ws vs : List (List Char)} (hws : ∀ w ∈ ws, Text.IsWord w)
    (hvs : ∀ v ∈ vs, Text.IsWord v) : sortedText ws = sortedText vs ↔ ws.Perm vs := by
  constructor
  · intro h
    have hread : ∀ {us : List (List Char)}, (∀ u ∈ us, Text.IsWord u) →
        Text.words (sortedText us) = us.mergeSort wordBefore :=
      fun hus => Text.words_joined fun u hu => hus u (List.mem_mergeSort.1 hu)
    have hsorted : ws.mergeSort wordBefore = vs.mergeSort wordBefore := by
      rw [← hread hws, h, hread hvs]
    exact (List.mergeSort_perm ws _).symm.trans (hsorted ▸ List.mergeSort_perm vs _)
  · exact sortedText_congr

/-! ## Texts as they are compared -/

theorem isWord_of_mem_processedWords {cs w : List Char} (hw : w ∈ processedWords cs) : Text.IsWord w :=
  Text.isWord_of_mem_words hw

/-- A character as it is compared is a space or no blank. -/
theorem isBlank_processedChar {c : Char} (h : processedChar c ≠ ' ') :
    Text.isBlank (processedChar c) = false := by
  rw [processedChar] at h ⊢
  by_cases hc : Text.isAlphanumeric c = true
  · rw [if_pos hc]
    exact Text.isBlank_lowerChar hc
  · rw [if_neg hc] at h
    exact absurd rfl h

/-- **A text that is not empty as it is compared has words.** -/
theorem processedWords_ne_nil {cs : List Char} (h : processed cs ≠ []) : processedWords cs ≠ [] := by
  obtain ⟨c, hc, hspace⟩ := Text.exists_of_trimmed_ne_nil h
  obtain ⟨c', -, rfl⟩ := List.mem_map.1 (Text.mem_of_mem_trimmed hc)
  exact Text.words_ne_nil hc (isBlank_processedChar (of_decide_eq_false hspace))

end PatchReview.Similarity
