import Mathlib.Data.List.Forall2
import Mathlib.Data.List.TakeWhile
import PatchReview.Text.Blank

/-!
# Words and the text that they make

The words of a text are not empty and hold no blank (`isWord_of_mem_words`), and a text that is not all
blank has some (`words_ne_nil`). Words that are joined are read again (`words_joined`), so no two lists of
words make one text. Which blanks separate words and how many stand at the ends does not show in them
(`wordsFrom_congr`, `words_trimmed`).
-/

namespace PatchReview.Text

/-- Whether characters make one word. -/
structure IsWord (w : List Char) : Prop where
  ne_nil : w ≠ []
  whole  : ∀ c ∈ w, isBlank c = false

/-- What is read of a word is a part of it. -/
theorem wordsFrom_append {cs : List Char} (hcs : ∀ c ∈ cs, isBlank c = false) (word rest : List Char) :
    wordsFrom word (cs ++ rest) = wordsFrom (cs.reverse ++ word) rest := by
  induction cs generalizing word with
  | nil => rfl
  | cons c cs ih =>
      obtain ⟨hc, hrest⟩ := List.forall_mem_cons.1 hcs
      rw [List.cons_append, wordsFrom, if_neg (Bool.eq_false_iff.1 hc), ih hrest, List.reverse_cons,
        List.append_assoc, List.singleton_append]

/-- A space ends a word. -/
theorem wordsFrom_space {word : List Char} (hword : word ≠ []) (rest : List Char) :
    wordsFrom word (' ' :: rest) = word.reverse :: wordsFrom [] rest := by
  have hspace : isBlank ' ' = true := by decide
  rw [wordsFrom, if_pos hspace, if_neg (mt List.isEmpty_iff.1 hword)]

theorem wordsFrom_nil {word : List Char} (hword : word ≠ []) : wordsFrom word [] = [word.reverse] := by
  rw [wordsFrom, if_neg (mt List.isEmpty_iff.1 hword)]

theorem joined_cons_cons (w v : List Char) (ws : List (List Char)) :
    joined (w :: v :: ws) = w ++ ' ' :: joined (v :: ws) := rfl

/-- **Words that are joined are read again.** -/
theorem words_joined {ws : List (List Char)} (hws : ∀ w ∈ ws, IsWord w) : words (joined ws) = ws := by
  induction ws with
  | nil => rfl
  | cons w ws ih =>
      obtain ⟨hw, hrest⟩ := List.forall_mem_cons.1 hws
      have hne : w.reverse ++ [] ≠ [] := by
        rw [List.append_nil]
        exact mt List.reverse_eq_nil_iff.1 hw.ne_nil
      cases ws with
      | nil =>
          have hone : joined [w] = w ++ [] := by
            rw [List.append_nil, joined, List.intercalate_singleton]
          rw [words, hone, wordsFrom_append hw.whole, wordsFrom_nil hne, List.append_nil,
            List.reverse_reverse]
      | cons v ws =>
          rw [words, joined_cons_cons, wordsFrom_append hw.whole, wordsFrom_space hne, List.append_nil,
            List.reverse_reverse, ← words, ih hrest]

theorem isWord_reverse {word : List Char} (hne : word ≠ []) (hword : ∀ c ∈ word, isBlank c = false) :
    IsWord word.reverse where
  ne_nil := mt List.reverse_eq_nil_iff.1 hne
  whole := fun c hc => hword c (List.mem_reverse.1 hc)

theorem isWord_of_mem_wordsFrom {word cs w : List Char} (hword : ∀ c ∈ word, isBlank c = false)
    (hw : w ∈ wordsFrom word cs) : IsWord w := by
  induction cs generalizing word with
  | nil =>
      by_cases hne : word = []
      · rw [hne] at hw
        cases hw
      · rw [wordsFrom_nil hne] at hw
        exact List.mem_singleton.1 hw ▸ isWord_reverse hne hword
  | cons c cs ih =>
      rw [wordsFrom] at hw
      by_cases hc : isBlank c = true
      · rw [if_pos hc] at hw
        by_cases hne : word = []
        · rw [hne] at hw
          exact ih (List.forall_mem_nil _) hw
        · rw [if_neg (mt List.isEmpty_iff.1 hne)] at hw
          rcases List.mem_cons.1 hw with rfl | hw
          · exact isWord_reverse hne hword
          · exact ih (List.forall_mem_nil _) hw
      · rw [if_neg hc] at hw
        exact ih (List.forall_mem_cons.2 ⟨Bool.not_eq_true _ ▸ hc, hword⟩) hw

/-- **A text is read word by word.** -/
theorem isWord_of_mem_words {cs w : List Char} (hw : w ∈ words cs) : IsWord w :=
  isWord_of_mem_wordsFrom (List.forall_mem_nil _) hw

theorem wordsFrom_ne_nil {word : List Char} (hword : word ≠ []) (cs : List Char) :
    wordsFrom word cs ≠ [] := by
  induction cs generalizing word with
  | nil =>
      rw [wordsFrom_nil hword]
      exact List.cons_ne_nil _ _
  | cons c cs ih =>
      rw [wordsFrom]
      by_cases hc : isBlank c = true
      · rw [if_pos hc, if_neg (mt List.isEmpty_iff.1 hword)]
        exact List.cons_ne_nil _ _
      · rw [if_neg hc]
        exact ih (List.cons_ne_nil _ _)

/-- A text that is not all blank has words. -/
theorem words_ne_nil {cs : List Char} {c : Char} (hc : c ∈ cs) (hblank : isBlank c = false) :
    words cs ≠ [] := by
  induction cs with
  | nil => cases hc
  | cons d cs ih =>
      rw [words, wordsFrom]
      by_cases hd : isBlank d = true
      · rw [if_pos hd, if_pos List.isEmpty_nil]
        rcases List.mem_cons.1 hc with rfl | hin
        · rw [hblank] at hd
          cases hd
        · exact ih hin
      · rw [if_neg hd]
        exact wordsFrom_ne_nil (List.cons_ne_nil _ _) cs

/-! ## Blanks do not show -/

/-- Which blank separates two words does not show in them. -/
theorem wordsFrom_congr {cs ds : List Char}
    (h : List.Forall₂ (fun c d => c = d ∨ isBlank c = true ∧ isBlank d = true) cs ds) (word : List Char) :
    wordsFrom word cs = wordsFrom word ds := by
  induction h generalizing word with
  | nil => rfl
  | cons hcd _ ih =>
      rw [wordsFrom, wordsFrom, ih, ih]
      rcases hcd with rfl | ⟨hc, hd⟩
      · rfl
      · rw [if_pos hc, if_pos hd]

/-- Blanks end a word and begin none. -/
theorem wordsFrom_blanks {bs : List Char} (hbs : ∀ b ∈ bs, isBlank b = true) (word : List Char) :
    wordsFrom word bs = wordsFrom word [] := by
  induction bs generalizing word with
  | nil => rfl
  | cons b bs ih =>
      obtain ⟨hb, hrest⟩ := List.forall_mem_cons.1 hbs
      rw [wordsFrom.eq_2, if_pos hb, ih hrest]
      rfl

theorem wordsFrom_append_blanks {bs : List Char} (hbs : ∀ b ∈ bs, isBlank b = true) (cs word : List Char) :
    wordsFrom word (cs ++ bs) = wordsFrom word cs := by
  induction cs generalizing word with
  | nil => exact wordsFrom_blanks hbs word
  | cons c cs ih => rw [List.cons_append, wordsFrom, wordsFrom, ih, ih]

theorem words_dropWhile {test : Char → Bool} (htest : ∀ c, test c = true → isBlank c = true)
    (cs : List Char) : words (cs.dropWhile test) = words cs := by
  induction cs with
  | nil => rfl
  | cons c cs ih =>
      by_cases hc : test c = true
      · rw [List.dropWhile_cons_of_pos hc, ih, words, words, wordsFrom, if_pos (htest c hc)]
        rfl
      · rw [List.dropWhile_cons_of_neg hc]

/-- **Taking blanks off the ends leaves the words.** -/
theorem words_trimmed {test : Char → Bool} (htest : ∀ c, test c = true → isBlank c = true)
    (cs : List Char) : words (trimmed test cs) = words cs := by
  rw [← words_dropWhile htest cs, trimmed]
  generalize cs.dropWhile test = ds
  -- what is taken off the end are blanks
  have hsplit : (ds.reverse.dropWhile test).reverse ++ (ds.reverse.takeWhile test).reverse = ds := by
    rw [← List.reverse_append, List.takeWhile_append_dropWhile, List.reverse_reverse]
  have hblank : ∀ b ∈ (ds.reverse.takeWhile test).reverse, isBlank b = true :=
    fun b hb => htest b (List.mem_takeWhile_imp (List.mem_reverse.1 hb))
  rw [words, words, ← wordsFrom_append_blanks hblank, hsplit]

/-- What is left of a text after its ends are taken off is empty or holds what is not taken off. -/
theorem exists_of_trimmed_ne_nil {test : Char → Bool} {cs : List Char} (h : trimmed test cs ≠ []) :
    ∃ c ∈ trimmed test cs, test c = false := by
  have hne : (cs.dropWhile test).reverse.dropWhile test ≠ [] := mt List.reverse_eq_nil_iff.2 h
  exact ⟨_, List.mem_reverse.2 (List.head_mem hne), List.head_dropWhile_not test hne⟩

theorem mem_of_mem_trimmed {test : Char → Bool} {cs : List Char} {c : Char} (hc : c ∈ trimmed test cs) :
    c ∈ cs := by
  have hin := (List.dropWhile_sublist test).subset (List.mem_reverse.1 hc)
  exact (List.dropWhile_sublist test).subset (List.mem_reverse.1 hin)

end PatchReview.Text
