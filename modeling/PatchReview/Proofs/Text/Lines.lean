import Mathlib.Data.List.Basic
import PatchReview.Text.Lines

/-!
# Cutting texts into lines

A text that ends with a line feed is cut apart from what follows it (`lines_append`), lines joined by
line feeds are the lines again (`lines_intercalate`), and so are lines of which each is ended by one
(`lines_flatMap`).

The lines of a file are counted otherwise: only a line feed ends one. `feedLines` cuts a text so, without
the empty piece after the last line feed (`fileLines_eq`), and such lines hold no other line end exactly
if the text holds none (`isUnbroken_feedLines_iff`).
-/

namespace PatchReview.Text

/-- A character that is not the first of a pair of line ends is looked at alone. -/
theorem linesFrom_cons {c : Char} {rest : List Char} (h : c = '\r' → rest.head? ≠ some '\n')
    (line : List Char) (started : Bool) :
    linesFrom line started (c :: rest)
      = if isLineBoundary c then line.reverse :: linesFrom [] false rest
        else linesFrom (c :: line) true rest := by
  rw [linesFrom]
  rintro rest' hc rfl
  exact h hc rfl

/-- What follows a text that ends with a line feed starts a line. -/
theorem linesFrom_append (line : List Char) (started : Bool) (cs ds : List Char)
    (hcs : cs.getLast? = some '\n') :
    linesFrom line started (cs ++ ds) = linesFrom line started cs ++ lines ds := by
  -- the cases are those of the reader, which takes a pair of line ends as one step
  induction line, started, cs using linesFrom.induct with
  | case1 line => exact nomatch hcs
  | case2 line started _ => exact nomatch hcs
  | case3 line started rest ih =>
      rw [List.cons_append, List.cons_append, linesFrom, linesFrom]
      cases rest with
      | nil => rfl
      | cons c more => rw [ih (by simpa using hcs), List.cons_append]
  | case4 line started c rest hpair hc ih =>
      cases rest with
      | nil =>
          obtain rfl : c = '\n' := by simpa using hcs
          rfl
      | cons d more =>
          have halone : c = '\r' → d ≠ '\n' := fun h1 h2 => hpair more h1 (by rw [h2])
          rw [List.cons_append, linesFrom_cons (by simpa using halone),
            linesFrom_cons (by simpa using halone), if_pos hc, if_pos hc, ih (by simpa using hcs),
            List.cons_append]
  | case5 line started c rest hpair hc ih =>
      cases rest with
      | nil =>
          obtain rfl : c = '\n' := by simpa using hcs
          exact absurd (by decide) hc
      | cons d more =>
          have halone : c = '\r' → d ≠ '\n' := fun h1 h2 => hpair more h1 (by rw [h2])
          rw [List.cons_append, linesFrom_cons (by simpa using halone),
            linesFrom_cons (by simpa using halone), if_neg hc, if_neg hc, ih (by simpa using hcs)]

/-- The lines of two texts, of which the first ends with a line feed unless it is empty. -/
theorem lines_append (cs ds : List Char) (h : cs = [] ∨ cs.getLast? = some '\n') :
    lines (cs ++ ds) = lines cs ++ lines ds := by
  rcases h with rfl | h
  · rfl
  · exact linesFrom_append [] false cs ds h

/-! ## Lines hold no line end -/

/-- No line that is cut holds a line end, if none stands in the unfinished line before it. -/
theorem isUnbroken_of_mem_linesFrom {line : List Char} {started : Bool} {cs l : List Char}
    (hline : isUnbroken line = true) (hl : l ∈ linesFrom line started cs) : isUnbroken l = true := by
  have hreverse : ∀ cs : List Char, isUnbroken cs = true → isUnbroken cs.reverse = true := by
    intro cs hcs
    rwa [isUnbroken, List.all_reverse]
  induction line, started, cs using linesFrom.induct with
  | case1 line =>
      rw [linesFrom, if_pos rfl, List.mem_singleton] at hl
      exact hl ▸ hreverse line hline
  | case2 line started hstarted =>
      rw [linesFrom, if_neg hstarted] at hl
      cases hl
  | case3 line started rest ih =>
      rw [linesFrom] at hl
      rcases List.mem_cons.1 hl with rfl | hin
      · exact hreverse line hline
      · exact ih rfl hin
  | case4 line started c rest hpair hc ih =>
      rw [linesFrom, if_pos hc] at hl
      · rcases List.mem_cons.1 hl with rfl | hin
        · exact hreverse line hline
        · exact ih rfl hin
      · exact hpair
  | case5 line started c rest hpair hc ih =>
      rw [linesFrom, if_neg hc] at hl
      · refine ih ?_ hl
        rw [isUnbroken, List.all_cons, Bool.eq_false_iff.2 hc]
        exact hline
      · exact hpair

/-- No line of a text holds a line end. -/
theorem isUnbroken_of_mem_lines {cs l : List Char} (h : l ∈ lines cs) : isUnbroken l = true :=
  isUnbroken_of_mem_linesFrom rfl h

/-! ## Lines joined by line feeds -/

@[simp] theorem isUnbroken_cons (c : Char) (cs : List Char) :
    isUnbroken (c :: cs) = (!isLineBoundary c && isUnbroken cs) := rfl

@[simp] theorem isUnbroken_append (as bs : List Char) :
    isUnbroken (as ++ bs) = (isUnbroken as && isUnbroken bs) := List.all_append

/-- An unbroken text goes to the line at hand. -/
theorem linesFrom_unbroken {cs : List Char} (h : isUnbroken cs = true) (rest : List Char) :
    ∀ (line : List Char) (started : Bool),
      linesFrom line started (cs ++ rest)
        = linesFrom (cs.reverse ++ line) (started || !cs.isEmpty) rest := by
  induction cs with
  | nil => intro line started; simp
  | cons c more ih =>
      intro line started
      simp only [isUnbroken, List.all_cons, Bool.and_eq_true, Bool.not_eq_true'] at h
      have hc : c ≠ '\r' := by
        rintro rfl
        exact absurd h.1 (by decide)
      rw [List.cons_append, linesFrom_cons (fun h' => absurd h' hc), if_neg (by simp [h.1]), ih h.2]
      simp

/-- An unbroken text before a line feed is a line. -/
theorem lines_unbroken_cons {cs : List Char} (h : isUnbroken cs = true) (rest : List Char) :
    lines (cs ++ '\n' :: rest) = cs :: lines rest := by
  rw [lines, linesFrom_unbroken h, linesFrom_cons (fun h' => absurd h' (by decide)),
    if_pos (by decide)]
  simp [lines]

/-- An unbroken text alone is a line, unless it is empty. -/
theorem lines_unbroken {cs : List Char} (h : isUnbroken cs = true) (hne : cs ≠ []) :
    lines cs = [cs] := by
  have := linesFrom_unbroken h [] [] false
  rw [List.append_nil] at this
  rw [lines, this]
  simp [linesFrom, hne]

/-- **Lines joined by line feeds are read back.** An empty last line would be lost: the end of the
    line before it starts no further line. -/
theorem lines_intercalate {ls : List (List Char)} (h : ∀ l ∈ ls, isUnbroken l = true)
    (hlast : ls.getLast? ≠ some []) : lines (['\n'].intercalate ls) = ls := by
  induction ls with
  | nil => rfl
  | cons l rest ih =>
      have hl : isUnbroken l = true := h l List.mem_cons_self
      cases rest with
      | nil =>
          rw [List.intercalate_singleton]
          exact lines_unbroken hl (by simpa using hlast)
      | cons next more =>
          rw [List.intercalate_cons_cons, List.append_assoc, List.singleton_append,
            lines_unbroken_cons hl,
            ih (fun l hm => h l (List.mem_cons_of_mem _ hm)) (by simpa using hlast)]

/-- **Lines of which each is ended by a line feed are read back.** -/
theorem lines_flatMap {ls : List (List Char)} (h : ∀ l ∈ ls, isUnbroken l = true) :
    lines (ls.flatMap (· ++ ['\n'])) = ls := by
  induction ls with
  | nil => rfl
  | cons l rest ih =>
      obtain ⟨hl, hrest⟩ := List.forall_mem_cons.1 h
      rw [List.flatMap_cons, List.append_assoc, List.singleton_append, lines_unbroken_cons hl, ih hrest]

/-! ## Lines that line feeds end -/

/-- The lines of which each is ended by a line feed, and what follows the last line feed, if anything
    does. -/
def feedLines : List Char → List (List Char)
  | [] => []
  | c :: rest =>
    if c = '\n' then [] :: feedLines rest
    else (c :: (feedLines rest).headD []) :: (feedLines rest).tail

/-- Whether no line is left unfinished at the end. -/
def isEnded (cs : List Char) : Bool := cs.getLast?.all (· = '\n')

theorem isEnded_cons_cons (c d : Char) (more : List Char) :
    isEnded (c :: d :: more) = isEnded (d :: more) := by
  rw [isEnded, isEnded, List.getLast?_cons_cons]

theorem feedLines_ne_nil (c : Char) (rest : List Char) : feedLines (c :: rest) ≠ [] := by
  rw [feedLines]
  split <;> exact List.cons_ne_nil _ _

/-- The pieces between line feeds are the lines, with an empty piece where the last one is ended. -/
theorem splitOn_eq_feedLines (cs : List Char) :
    cs.splitOn '\n' = feedLines cs ++ if isEnded cs then [[]] else [] := by
  induction cs with
  | nil => rfl
  | cons c rest ih =>
      rw [List.splitOn_cons_eq_if_modifyHead, ih, feedLines]
      by_cases hc : c = '\n'
      · have hended : isEnded (c :: rest) = isEnded rest := by
          cases rest with
          | nil => rw [hc]; rfl
          | cons d more => exact isEnded_cons_cons c d more
        rw [if_pos (by simp [hc]), if_pos hc, hended, List.cons_append]
      · rw [if_neg (by simpa using hc), if_neg hc]
        cases rest with
        | nil => simp [isEnded, feedLines, hc]
        | cons d more =>
            rw [isEnded_cons_cons]
            -- more text follows, so there is a line that `c` belongs to
            cases hlines : feedLines (d :: more) with
            | nil => exact absurd hlines (feedLines_ne_nil d more)
            | cons line others => rfl

/-- Without a carriage return there is no line end to unify. -/
theorem unifyLineEnds_eq_self {cs : List Char} (h : '\r' ∉ cs) : unifyLineEnds cs = cs := by
  induction cs with
  | nil => rfl
  | cons c rest ih =>
      rw [List.mem_cons, not_or] at h
      have hc : ¬c = '\r' := fun heq => h.1 heq.symm
      rw [unifyLineEnds, if_neg hc, ih h.2]
      rintro rest' rfl
      exact absurd rfl hc

/-- **The lines of a file are those that line feeds end**, with an empty one where the last is ended. -/
theorem fileLines_eq {cs : List Char} (h : '\r' ∉ cs) :
    fileLines cs = feedLines cs ++ if isEnded cs then [[]] else [] := by
  rw [fileLines, unifyLineEnds_eq_self h, splitOn_eq_feedLines]

/-- The lines that line feeds end hold no other line end exactly if the text holds none. -/
theorem isUnbroken_feedLines_iff (cs : List Char) :
    (∀ l ∈ feedLines cs, isUnbroken l = true) ↔ ∀ c ∈ cs, isLineBoundary c = true → c = '\n' := by
  induction cs with
  | nil => simp [feedLines]
  | cons c rest ih =>
      rw [feedLines, List.forall_mem_cons, ← ih]
      by_cases hc : c = '\n'
      · rw [if_pos hc, List.forall_mem_cons]
        exact ⟨fun h => ⟨fun _ => hc, h.2⟩, fun h => ⟨rfl, h.2⟩⟩
      · have hfirst : isLineBoundary c = false ↔ (isLineBoundary c = true → c = '\n') := by
          simp [hc]
        rw [if_neg hc, List.forall_mem_cons, isUnbroken_cons, ← hfirst]
        cases feedLines rest with
        | nil => simp [isUnbroken]
        | cons line others => simp [and_assoc]

end PatchReview.Text
