import PatchReview.Proofs.Comment.Listing
import PatchReview.Proofs.Similarity.Likeness

/-!
# Whether a line may be meant

A line may be meant if it is a line of the file that scores at least one half. Otherwise the first of the
best of all lines is suggested, if it scores enough to be listed. Less is enough for that than for being
meant, so a line between the two may be suggested in its own place: it is exactly if it is the first of the
best (`checkLine_exact`).
-/

namespace PatchReview

open PatchReview.Number (Rounding nearestBinary)

/-- The text that suggests a line. -/
def TermMatch.hint (r : Rounding) (m : TermMatch) : String :=
  "Consider line " ++ toString m.line ++ ": \x22" ++ Text.stripped m.content ++ "\x22 (" ++
    toString (percent r m.score) ++ "% match)"

namespace Comment

variable (r : Rounding) (c : Comment)

/-- The line that is suggested: the best of those that are listed, where the given one may not be meant. -/
def suggestedLine? (lines : List String) (line : Int) : Option TermMatch :=
  if (c.checkLine r lines line).valid then none else (c.linesAbout r (nearestBinary (2 / 5)) lines).head?

theorem suggestions_checkLine (lines : List String) (line : Int) :
    (c.checkLine r lines line).suggestions
      = ((c.suggestedLine? r lines line).map (·.hint r)).toList := by
  rw [suggestedLine?]
  cases hvalid : (c.checkLine r lines line).valid with
  | true =>
      rw [if_pos rfl]
      simp only [checkLine] at hvalid ⊢
      rw [hvalid]
      rfl
  | false =>
      rw [if_neg Bool.false_ne_true]
      simp only [checkLine] at hvalid ⊢
      rw [hvalid]
      cases c.linesAbout r (nearestBinary (2 / 5)) lines with
      | nil => rfl
      | cons m rest => rfl

variable {r c} {lines : List String} {line : Int} {m : TermMatch}

/-- **A line may be meant exactly if it is a line of the file that scores at least one half.** -/
theorem valid_checkLine_iff :
    (c.checkLine r lines line).valid = true ↔ ∃ (n : Nat) (content : String),
      lines[n]? = some content ∧ (n : Int) + 1 = line ∧ 1 / 2 ≤ (c.lineScore r content).1 := by
  have hlisted : nearestBinary (2 / 5) ≤ 1 / 2 := by decide +kernel
  rw [checkLine, decide_eq_true_iff, Similarity.le_best_iff (by decide +kernel)]
  constructor
  · rintro ⟨p, hp, hhalf⟩
    obtain ⟨m, hm, rfl⟩ := List.mem_map.1 hp
    obtain ⟨hm, hline⟩ := List.mem_filter.1 hm
    obtain ⟨n, content, hcontent, rfl, -⟩ := mem_linesAbout_iff.1 hm
    exact ⟨n, content, hcontent, of_decide_eq_true hline, hhalf⟩
  · rintro ⟨n, content, hcontent, hline, hhalf⟩
    have hm : c.entry r n content ∈ c.linesAbout r (nearestBinary (2 / 5)) lines :=
      mem_linesAbout_iff.2 ⟨n, content, hcontent, rfl, Rat.le_trans hlisted hhalf⟩
    exact ⟨_, List.mem_map_of_mem (List.mem_filter.2 ⟨hm, decide_eq_true hline⟩), hhalf⟩

/-- **The first of the best of all lines is suggested**, if it scores enough to be listed. -/
theorem suggestedLine?_eq_some_iff :
    c.suggestedLine? r lines line = some m ↔ (c.checkLine r lines line).valid = false ∧
      IsFirstBest (·.score) (c.entries r lines) m ∧ nearestBinary (2 / 5) ≤ m.score := by
  rw [suggestedLine?, linesAbout_eq]
  cases hvalid : (c.checkLine r lines line).valid with
  | true =>
      rw [if_pos rfl]
      exact iff_of_false (Option.some_ne_none m).symm fun h => Bool.false_ne_true h.1.symm
  | false =>
      rw [if_neg Bool.false_ne_true, head?_bestFirst_iff, isFirstBest_filter_iff, and_iff_right rfl]

/-- A line of the file may not be meant if it scores less. -/
theorem not_valid_checkLine_iff_of_mem (hm : m ∈ c.entries r lines) :
    (c.checkLine r lines m.line).valid = false ↔ m.score < 1 / 2 := by
  obtain ⟨n, content, hcontent, rfl⟩ := mem_entries_iff.1 hm
  rw [← Bool.not_eq_true, valid_checkLine_iff, ← Rat.not_le]
  refine not_congr ⟨?_, fun hhalf => ⟨n, content, hcontent, rfl, hhalf⟩⟩
  rintro ⟨n', content', hcontent', hline, hhalf⟩
  obtain rfl : n' = n := Nat.succ.inj (Int.ofNat.inj hline)
  obtain rfl := Option.some.inj (hcontent'.symm.trans hcontent)
  exact hhalf

/-- **A line is suggested in its own place** exactly if it is the first of the best and scores enough to be
    listed, but not to be meant. -/
theorem suggestedLine?_line_iff :
    c.suggestedLine? r lines m.line = some m ↔ IsFirstBest (·.score) (c.entries r lines) m ∧
      nearestBinary (2 / 5) ≤ m.score ∧ m.score < 1 / 2 := by
  rw [suggestedLine?_eq_some_iff]
  constructor
  · rintro ⟨hinvalid, hbest, hlisted⟩
    exact ⟨hbest, hlisted, (not_valid_checkLine_iff_of_mem hbest.mem).1 hinvalid⟩
  · rintro ⟨hbest, hlisted, hless⟩
    exact ⟨(not_valid_checkLine_iff_of_mem hbest.mem).2 hless, hbest, hlisted⟩

/-- **Which line may be meant, and which is suggested instead.** A line may be meant exactly if it is a line
    of the file that scores at least one half. Where it may not, the first of the best of all lines is
    suggested, if it scores enough to be listed, and nothing else is. It is the given line itself exactly if
    that is the first of the best and scores enough to be listed, but not to be meant. -/
theorem checkLine_exact (r : Rounding) (c : Comment) (lines : List String) (line : Int) :
    ((c.checkLine r lines line).valid = true ↔ ∃ (n : Nat) (content : String),
      lines[n]? = some content ∧ (n : Int) + 1 = line ∧ 1 / 2 ≤ (c.lineScore r content).1) ∧
    (c.checkLine r lines line).suggestions
      = ((c.suggestedLine? r lines line).map (·.hint r)).toList ∧
    (∀ m, c.suggestedLine? r lines line = some m ↔ (c.checkLine r lines line).valid = false ∧
      IsFirstBest (·.score) (c.entries r lines) m ∧ nearestBinary (2 / 5) ≤ m.score) ∧
    ((∃ m, c.suggestedLine? r lines line = some m ∧ (m.line : Int) = line) ↔
      ∃ m, (m.line : Int) = line ∧ IsFirstBest (·.score) (c.entries r lines) m ∧
        nearestBinary (2 / 5) ≤ m.score ∧ m.score < 1 / 2) := by
  refine ⟨valid_checkLine_iff, suggestions_checkLine r c lines line,
    fun _ => suggestedLine?_eq_some_iff, exists_congr fun m => ?_⟩
  constructor
  · rintro ⟨hsuggested, rfl⟩
    exact ⟨rfl, suggestedLine?_line_iff.1 hsuggested⟩
  · rintro ⟨rfl, hbest⟩
    exact ⟨suggestedLine?_line_iff.2 hbest, rfl⟩

/-- The only line of a file, which a comment is somewhat about, is suggested in its own place. -/
theorem suggestions_ownLine :
    let c : Comment := ⟨"a", 1, .minor, "naming", "abcd", ""⟩
    (c.checkLine .binary64 ["abxyz"] 1).valid = false ∧
      (c.suggestedLine? .binary64 ["abxyz"] 1).map (·.line) = some 1 ∧
      (c.checkLine .binary64 ["abxyz"] 1).suggestions = ["Consider line 1: \x22abxyz\x22 (44% match)"] := by
  decide +kernel

end Comment

end PatchReview
