import Mathlib.Data.List.Pairwise
import PatchReview.Comment.Category
import PatchReview.Proofs.Comment.Ranking

/-!
# The lines that a comment is about

A line is scored by the first of the cues of a comment that it is most like: its key terms in order, and
then what it says (`lineScore_eq_iff`). The lines that score enough are listed, each with its score and the
cue that gave it, from the best to the worst and equally good ones in the order of the file. So a higher
threshold leaves out the entries below it and no others, and an entry depends on its own line alone
(`linesAbout_ranked`).
-/

namespace PatchReview

open PatchReview.Number (Rounding)

/-! ## The first of the best, by a run -/

section

variable {α : Type} {score : α → Rat} {items : List α} {m m' : α}

theorem IsFirstBest.eq (h : IsFirstBest score items m) (h' : IsFirstBest score items m') : m = m' :=
  Option.some.inj ((head?_bestFirst_iff.2 h).symm.trans (head?_bestFirst_iff.2 h'))

/-- A run that takes an item only if it is better than the last one taken ends at the first of the best. -/
theorem isFirstBest_foldl (score : α → Rat) (start : α) (items : List α) :
    IsFirstBest score (start :: items)
      (items.foldl (fun best a => if score best < score a then a else best) start) := by
  induction items generalizing start with
  | nil => exact isFirstBest_cons_iff.2 (.inl ⟨rfl, List.forall_mem_nil _⟩)
  | cons a rest ih =>
      rw [List.foldl_cons]
      by_cases hbetter : score start < score a
      · rw [if_pos hbetter]
        have hle := (ih a).le List.mem_cons_self
        exact isFirstBest_cons_iff.2 (.inr ⟨Std.lt_of_lt_of_le hbetter hle, ih a⟩)
      · rw [if_neg hbetter]
        have hless := Rat.not_lt.1 hbetter
        -- the item that is passed over is no better than the first, so it may stand behind it
        rcases isFirstBest_cons_iff.1 (ih start) with ⟨heq, hrest⟩ | ⟨hlt, hrest⟩
        · exact isFirstBest_cons_iff.2 (.inl ⟨heq, List.forall_mem_cons.2 ⟨hless, hrest⟩⟩)
        · refine isFirstBest_cons_iff.2 (.inr ⟨hlt, isFirstBest_cons_iff.2 (.inr ⟨?_, hrest⟩)⟩)
          exact Std.lt_of_le_of_lt hless hlt

end

namespace Comment

variable (r : Rounding) (c : Comment)

/-! ## The score of a line -/

/-- What a line scores for each cue, with the reason that the cue gives. -/
def cueScores (content : String) : List (Rat × String) :=
  c.terms.map (fun term => (sortedScore r term content, "Matches term: \x22" ++ term ++ "\x22")) ++
    [(sortedScore r c.rationale content, "Matches comment rationale")]

theorem lineScore_eq_foldl (content : String) : c.lineScore r content = (c.cueScores r content).foldl
    (fun best cue => if best.1 < cue.1 then cue else best) (0, "") := by
  rw [cueScores, List.foldl_append, List.foldl_map]
  rfl

/-- The score of a line is that of the first of the best cues, or nothing. -/
theorem isFirstBest_lineScore (content : String) :
    IsFirstBest (·.1) ((0, "") :: c.cueScores r content) (c.lineScore r content) := by
  rw [lineScore_eq_foldl]
  exact isFirstBest_foldl (·.1) (0, "") (c.cueScores r content)

variable {r c} {content : String} {cue : Rat × String}

/-- **A line is scored by the first of the best cues**, if it is like one at all. -/
theorem lineScore_eq_iff (hpos : 0 < cue.1) :
    c.lineScore r content = cue ↔ IsFirstBest (·.1) (c.cueScores r content) cue := by
  have hscore := isFirstBest_lineScore r c content
  constructor
  · rintro rfl
    rcases isFirstBest_cons_iff.1 hscore with ⟨hnone, -⟩ | ⟨-, hbest⟩
    · rw [hnone] at hpos
      exact absurd hpos Rat.lt_irrefl
    · exact hbest
  · intro hbest
    exact hscore.eq (isFirstBest_cons_iff.2 (.inr ⟨hpos, hbest⟩))

/-- It scores enough exactly if it does so for one of the cues. -/
theorem le_lineScore_iff {least : Rat} (hpos : 0 < least) :
    least ≤ (c.lineScore r content).1 ↔ ∃ cue ∈ c.cueScores r content, least ≤ cue.1 := by
  have hscore := isFirstBest_lineScore r c content
  constructor
  · intro hleast
    have hbest := (lineScore_eq_iff (Std.lt_of_lt_of_le hpos hleast)).1 rfl
    exact ⟨_, hbest.mem, hleast⟩
  · rintro ⟨cue, hcue, hleast⟩
    exact Rat.le_trans hleast (hscore.le (List.mem_cons_of_mem _ hcue))

/-! ## The entries -/

section

variable (r c)

/-- A line as an entry, whatever it scores. -/
def entry (n : Nat) (content : String) : TermMatch :=
  ⟨n + 1, content, (c.lineScore r content).1, (c.lineScore r content).2⟩

/-- All lines as entries, in the order of the file. -/
def entries (lines : List String) : List TermMatch := lines.mapIdx (c.entry r)

theorem linesAbout_eq (least : Rat) (lines : List String) :
    c.linesAbout r least lines = bestFirst (·.score) ((c.entries r lines).filter (least ≤ ·.score)) := rfl

theorem isRanking_linesAbout (least : Rat) (lines : List String) :
    IsRanking (·.score) ((c.entries r lines).filter (least ≤ ·.score)) (c.linesAbout r least lines) :=
  isRanking_bestFirst _ _

/-- Entries stand in the order of their lines. -/
theorem pairwise_entries (lines : List String) :
    (c.entries r lines).Pairwise fun f g => f.line < g.line := by
  rw [List.pairwise_iff_getElem]
  intro i j hi hj hij
  simp only [entries, List.getElem_mapIdx, entry]
  exact Nat.succ_lt_succ hij

end

variable {lines : List String} {f : TermMatch} {least : Rat}

theorem mem_entries_iff :
    f ∈ c.entries r lines ↔ ∃ n content, lines[n]? = some content ∧ c.entry r n content = f := by
  rw [entries, List.mem_mapIdx]
  constructor
  · rintro ⟨n, hn, rfl⟩
    exact ⟨n, lines[n], List.getElem?_eq_getElem hn, rfl⟩
  · rintro ⟨n, content, hline, rfl⟩
    obtain ⟨hn, rfl⟩ := List.getElem?_eq_some_iff.1 hline
    exact ⟨n, hn, rfl⟩

/-- **An entry is listed exactly if it scores enough.** -/
theorem mem_linesAbout_iff :
    f ∈ c.linesAbout r least lines ↔
      ∃ n content, lines[n]? = some content ∧ c.entry r n content = f ∧ least ≤ f.score := by
  rw [(isRanking_linesAbout r c least lines).perm.mem_iff, List.mem_filter, mem_entries_iff,
    decide_eq_true_iff]
  simp only [and_assoc, ← exists_and_right]

theorem mem_linesAbout_iff_of_line {n : Nat} (hn : f.line = n + 1) :
    f ∈ c.linesAbout r least lines ↔
      ∃ content, lines[n]? = some content ∧ c.entry r n content = f ∧ least ≤ f.score := by
  rw [mem_linesAbout_iff]
  constructor
  · rintro ⟨n', content, hline, rfl, hleast⟩
    obtain rfl : n' = n := Nat.succ.inj hn
    exact ⟨content, hline, rfl, hleast⟩
  · rintro ⟨content, hline, heq, hleast⟩
    exact ⟨n, content, hline, heq, hleast⟩

/-! ## What is listed -/

/-- An entry that is listed is that of its line, with the first of the best cues. -/
theorem mem_linesAbout_iff_cue (hpos : 0 < least) :
    f ∈ c.linesAbout r least lines ↔ ∃ n, f.line = n + 1 ∧ lines[n]? = some f.content ∧
      IsFirstBest (·.1) (c.cueScores r f.content) (f.score, f.reason) ∧ least ≤ f.score := by
  rw [mem_linesAbout_iff]
  constructor
  · rintro ⟨n, content, hline, rfl, hleast⟩
    have hbest := (lineScore_eq_iff (Std.lt_of_lt_of_le hpos hleast)).1 rfl
    exact ⟨n, rfl, hline, hbest, hleast⟩
  · rintro ⟨n, hn, hline, hbest, hleast⟩
    have hscore := (lineScore_eq_iff (Std.lt_of_lt_of_le hpos hleast)).2 hbest
    refine ⟨n, f.content, hline, ?_, hleast⟩
    rw [entry, hscore, ← hn]

/-- A line is listed exactly if one of its cues scores enough. -/
theorem exists_mem_linesAbout_iff (hpos : 0 < least) {n : Nat} (hline : lines[n]? = some content) :
    (∃ f ∈ c.linesAbout r least lines, f.line = n + 1) ↔ ∃ cue ∈ c.cueScores r content, least ≤ cue.1 := by
  rw [← le_lineScore_iff hpos]
  constructor
  · rintro ⟨f, hf, hn⟩
    obtain ⟨content', hline', rfl, hleast⟩ := (mem_linesAbout_iff_of_line hn).1 hf
    obtain rfl := Option.some.inj (hline'.symm.trans hline)
    exact hleast
  · intro hleast
    exact ⟨c.entry r n content, mem_linesAbout_iff.2 ⟨n, content, hline, rfl, hleast⟩, rfl⟩

/-- No line is listed twice. -/
theorem nodup_linesAbout : ((c.linesAbout r least lines).map (·.line)).Nodup := by
  rw [((isRanking_linesAbout r c least lines).perm.map _).nodup_iff, List.Nodup, List.pairwise_map]
  exact ((pairwise_entries r c lines).filter _).imp fun hlt => Nat.ne_of_lt hlt

/-- The best lines come first, and of equally good ones those that stand first. -/
theorem pairwise_linesAbout : (c.linesAbout r least lines).Pairwise fun f g =>
    g.score < f.score ∨ f.score = g.score ∧ f.line < g.line :=
  (isRanking_linesAbout r c least lines).pairwise ((pairwise_entries r c lines).filter _)

/-- **A higher threshold leaves out the entries below it.** -/
theorem linesAbout_of_le {least' : Rat} (hle : least ≤ least') :
    c.linesAbout r least' lines = (c.linesAbout r least lines).filter (least' ≤ ·.score) := by
  have hsame : ((c.entries r lines).filter (least ≤ ·.score)).filter (least' ≤ ·.score)
      = (c.entries r lines).filter (least' ≤ ·.score) := by
    rw [List.filter_filter]
    refine List.filter_congr fun f _ => ?_
    rw [← Bool.decide_and, decide_eq_decide]
    exact and_iff_left_of_imp (Rat.le_trans hle)
  refine (isRanking_linesAbout r c least' lines).eq ?_
  rw [← hsame]
  exact (isRanking_linesAbout r c least lines).filter _

/-- **An entry depends on its own line alone.** -/
theorem mem_linesAbout_congr {lines' : List String} {n : Nat} (hline : lines'[n]? = lines[n]?)
    (hn : f.line = n + 1) : f ∈ c.linesAbout r least lines' ↔ f ∈ c.linesAbout r least lines := by
  rw [mem_linesAbout_iff_of_line hn, mem_linesAbout_iff_of_line hn, hline]

/-- **The lines that a comment is about are ranked, each by its own best cue.** No line is listed twice. An
    entry is listed exactly if it is that of a line of the file, its score and its reason are those of the
    first of the cues that the line is most like, and the score is enough; so a line is listed exactly if it
    is enough like one of the cues. The best come first, and equally good ones in the order of the file. A
    higher threshold leaves out the entries below it and no others, in the same order, and what other lines
    say, or whether there are more of them, does not show in an entry. -/
theorem linesAbout_ranked (r : Rounding) (c : Comment) (lines : List String) {least least' : Rat}
    (hpos : 0 < least) (hle : least ≤ least') :
    ((c.linesAbout r least lines).map (·.line)).Nodup ∧
      (∀ f, f ∈ c.linesAbout r least lines ↔ ∃ n, f.line = n + 1 ∧ lines[n]? = some f.content ∧
        IsFirstBest (·.1) (c.cueScores r f.content) (f.score, f.reason) ∧ least ≤ f.score) ∧
      (∀ n content, lines[n]? = some content →
        ((∃ f ∈ c.linesAbout r least lines, f.line = n + 1) ↔
          ∃ cue ∈ c.cueScores r content, least ≤ cue.1)) ∧
      ((c.linesAbout r least lines).Pairwise fun f g =>
        g.score < f.score ∨ f.score = g.score ∧ f.line < g.line) ∧
      c.linesAbout r least' lines = (c.linesAbout r least lines).filter (least' ≤ ·.score) ∧
      ∀ (lines' : List String) n, lines'[n]? = lines[n]? → ∀ f : TermMatch, f.line = n + 1 →
        (f ∈ c.linesAbout r least lines' ↔ f ∈ c.linesAbout r least lines) := by
  refine ⟨nodup_linesAbout, fun f => mem_linesAbout_iff_cue hpos, ?_, pairwise_linesAbout,
    linesAbout_of_le hle, ?_⟩
  · intro n content hline
    exact exists_mem_linesAbout_iff hpos hline
  · intro lines' n hline f hn
    exact mem_linesAbout_congr hline hn

/-- A line that says half of what a comment says is listed behind one that says all of it, until the
    threshold is raised. -/
theorem linesAbout_ranked_halfLine :
    let c : Comment := ⟨"a", 1, .minor, "naming", "abcd", ""⟩
    let lines := ["abxy", "abcd"]
    (0 : Rat) < 1 / 2 ∧ (1 / 2 : Rat) ≤ 3 / 5 ∧
      (∃ f ∈ c.linesAbout .binary64 (1 / 2) lines, f.line = 1) ∧
      (∃ f ∈ c.linesAbout .binary64 (1 / 2) lines, f.line = 2) ∧
      ((c.linesAbout .binary64 (1 / 2) lines).Pairwise fun f g =>
        g.score < f.score ∨ f.score = g.score ∧ f.line < g.line) ∧
      c.linesAbout .binary64 (3 / 5) lines
        = (c.linesAbout .binary64 (1 / 2) lines).filter ((3 / 5 : Rat) ≤ ·.score) ∧
      (c.linesAbout .binary64 (3 / 5) lines).map (·.line) = [2] := by
  intro c lines
  have hpos : (0 : Rat) < 1 / 2 := by decide +kernel
  have hle : (1 / 2 : Rat) ≤ 3 / 5 := by decide +kernel
  obtain ⟨-, -, hlisted, hordered, hhigher, -⟩ := linesAbout_ranked .binary64 c lines hpos hle
  have hhalf := (hlisted 0 "abxy" rfl).2 (by decide +kernel)
  have hwhole := (hlisted 1 "abcd" rfl).2 (by decide +kernel)
  exact ⟨hpos, hle, hhalf, hwhole, hordered, hhigher, by decide +kernel⟩

end Comment

end PatchReview
