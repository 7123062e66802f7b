import Mathlib.Data.List.Basic
import PatchReview.Diff.Reader

/-!
# What one line of a diff can do

The reader takes a line either as part of the open body or as a header line. Header lines do one of
a few things to the progress, whatever the progress is; `headerStep` lists them. Everything later
that speaks of all lines is a case analysis over that list, so the texts of the header lines are
looked at here and nowhere else. Only the header of a hunk can be refused (`HeaderStep.hunk`).

The line after the one at hand matters only where it may be the second of two path lines
(`readLine_lookahead`), so reading runs through any cut of the lines that does not part such a pair
(`readLines_append`).
-/

namespace PatchReview.Diff

namespace Progress

/-- Names the old side; an entry that has a hunk is closed first. -/
def nameOld (path : String) (s : Progress) : Progress :=
  (if s.entry.isNone || s.hasHunk then s.reopen {} else s).amend
    fun e => { e with oldPath := some path }

/-- Names the new side. -/
def nameNew (path : String) (s : Progress) : Progress :=
  (if s.entry.isNone then { s with entry := some {} } else s).amend
    fun e => { e with newPath := some path }

/-- Opens the hunk that a hunk header promises, if it promises one and an entry is open. -/
def promised (ranges? : Option Ranges) (s : Progress) : Except Text.Overlong Progress :=
  match ranges? with
  | some ranges => if s.entry.isSome then ranges.promise.map s.start else .ok s.settle
  | none => .ok s.settle

/-- Whether lines of a body are still awaited. -/
def inBody (s : Progress) : Bool := s.body.any Body.isOpen

/-- Where lines are still promised a body is open. -/
theorem exists_of_inBody {s : Progress} (h : s.inBody = true) :
    ∃ b, s.body = some b ∧ b.isOpen = true := by
  simpa [inBody, Option.any_eq_true] using h

end Progress

/-- The entry that a `diff --git` line opens, with the paths that can be read off it. -/
def Entry.named (paths? : Option (String × String)) : Entry where
  oldPath := paths?.map (·.1)
  newPath := paths?.map (·.2)

/-! ## Header lines -/

/-- What a header line can say that is no hunk header. -/
inductive Note : (Progress → Progress) → Prop where
  | opening (paths? : Option (String × String)) : Note (Progress.reopen (.named paths?))
  | oldSide (raw : List Char) : Note (Progress.nameOld (headerPath raw))
  | newSide (raw : List Char) : Note (Progress.nameNew (headerPath raw))
  | created : Note (Progress.amend fun e => { e with isNew := true })
  | deleted : Note (Progress.amend fun e => { e with isDeleted := true })
  | renamedFrom (raw : List Char) :
      Note (Progress.amend fun e => { e with oldPath := some (String.ofList (Text.strip raw)) })
  | renamedTo (raw : List Char) :
      Note (Progress.amend fun e => { e with newPath := some (String.ofList (Text.strip raw)) })
  | remark : Note fun s => s

/-- What a header line can do to the progress. -/
inductive HeaderStep (line : List Char) : (Progress → Except Text.Overlong Progress) → Prop where
  | note {f : Progress → Progress} (h : Note f) : HeaderStep line fun s => .ok (f s)
  | hunk : HeaderStep line (Progress.promised (readRanges line))

/-- A line that begins so leaves what follows. -/
theorem afterPrefix?_eq_some {beginning : String} {line : List Char}
    (h : begins beginning line = true) :
    afterPrefix? beginning line = some (line.drop beginning.toList.length) := by
  rw [begins] at h
  rw [afterPrefix?]
  simp only [h, if_true]

/-- Every header line does one of the listed things. -/
theorem headerStep (line : List Char) : HeaderStep line (readHeader line) := by
  have hhunk : HeaderStep line (Progress.promised (readRanges line)) := .hunk
  unfold readHeader
  cases afterPrefix? "diff --git " line with
  | some rest =>
      simp only
      cases gitPaths? rest with
      | some paths => exact .note (.opening (some paths))
      | none => exact .note (.opening none)
  | none =>
  cases afterPrefix? "--- " line with
  | some rest => exact .note (.oldSide rest)
  | none =>
  cases afterPrefix? "+++ " line with
  | some rest => exact .note (.newSide rest)
  | none =>
  simp only
  by_cases hnew : begins "new file mode" line = true
  · simp only [hnew, if_true]
    exact .note .created
  by_cases hdel : begins "deleted file mode" line = true
  · simp only [hnew, hdel, if_true]
    exact .note .deleted
  simp only [hnew, hdel]
  cases afterPrefix? "rename from " line with
  | some rest => exact .note (.renamedFrom rest)
  | none =>
  cases afterPrefix? "rename to " line with
  | some rest => exact .note (.renamedTo rest)
  | none =>
  by_cases hat : begins "@@" line = true
  · simp only [hat, if_true]
    cases hranges : readRanges line with
    | some ranges =>
        rw [hranges] at hhunk
        exact hhunk
    | none =>
        rw [hranges] at hhunk
        exact hhunk
  · simp only [hat]
    exact .note .remark

/-- A `diff --git` line opens an entry, whatever came before. -/
theorem readHeader_gitLine {line : List Char} (h : begins "diff --git " line = true) :
    ∃ paths?, ∀ s, readHeader line s = .ok (s.reopen (.named paths?)) := by
  unfold readHeader
  simp only [afterPrefix?_eq_some h]
  cases gitPaths? (line.drop "diff --git ".toList.length) with
  | some paths => exact ⟨some paths, fun _ => rfl⟩
  | none => exact ⟨none, fun _ => rfl⟩

/-- A line `--- ` names the old side. -/
theorem readHeader_oldSide {line : List Char} (h : begins "--- " line = true) (s : Progress) :
    readHeader line s = .ok (s.nameOld (headerPath (line.drop 4))) := by
  obtain ⟨rest, rfl⟩ := List.isPrefixOf_iff_prefix.1 h
  rfl

/-! ## One line -/

/-- Outside a body every line is a header line. -/
theorem readLine_of_not_inBody {s : Progress} (h : s.inBody = false) (line : List Char)
    (following : Option (List Char)) : readLine s line following = readHeader line s := by
  rw [readLine]
  cases hb : s.body with
  | none => rfl
  | some b =>
      have hopen : b.isOpen = false := by simpa [Progress.inBody, hb] using h
      simp [hopen]

/-- Inside a body a line that is no path line is read as part of it, where it can be. -/
theorem readLine_of_body {s : Progress} {b : Body} (hb : s.body = some b) (ho : b.isOpen = true)
    {line : List Char} {following : Option (List Char)} (hn : opensEntry line following = false) :
    readLine s line following = ((readBody b line s).map .ok).getD (readHeader line s.giveUp) := by
  rw [readLine]
  simp only [hb, ho, hn, Bool.not_false, Bool.and_true, if_true]
  cases readBody b line s <;> rfl

/-- Inside a body the first of two path lines ends it. -/
theorem readLine_of_opensEntry {s : Progress} (h : s.inBody = true) {line : List Char}
    {following : Option (List Char)} (hn : opensEntry line following = true) :
    readLine s line following = readHeader line s.giveUp := by
  rw [readLine]
  cases hb : s.body with
  | none => simp [Progress.inBody, hb] at h
  | some b =>
      have hopen : b.isOpen = true := by simpa [Progress.inBody, hb] using h
      simp [hopen, hn]

/-- A `diff --git` line opens an entry inside a body too. -/
theorem readLine_gitLine {line : List Char} (h : begins "diff --git " line = true) :
    ∃ paths?, ∀ s following, readLine s line following = .ok (s.reopen (.named paths?)) := by
  obtain ⟨paths?, he⟩ := readHeader_gitLine h
  refine ⟨paths?, fun s following => ?_⟩
  obtain ⟨rest, rfl⟩ := List.isPrefixOf_iff_prefix.1 h
  by_cases hin : s.inBody = true
  · obtain ⟨b, hb, ho⟩ := Progress.exists_of_inBody hin
    rw [readLine_of_body hb ho rfl, show readBody b ("diff --git ".toList ++ rest) s = none from rfl,
      Option.map_none, Option.getD_none, he]
    simp [Progress.reopen, Progress.close, Progress.settle, Progress.giveUp, hb]
  · rw [readLine_of_not_inBody (Bool.not_eq_true _ ▸ hin), he]

/-! ## Many lines -/

theorem readLines_cons (s : Progress) (line : List Char) (rest : List (List Char)) :
    readLines s (line :: rest) = readLine s line rest.head? >>= (readLines · rest) := rfl

/-- A line that is not refused is read before the others. -/
theorem readLines_cons_of_ok {s s' : Progress} {line : List Char} {rest : List (List Char)}
    (h : readLine s line rest.head? = .ok s') : readLines s (line :: rest) = readLines s' rest := by
  rw [readLines_cons, h]
  rfl

/-- The line after matters only where it may be the second of two path lines. -/
theorem readLine_lookahead (s : Progress) (line : List Char) {following : Option (List Char)}
    (h : following.any (begins "+++ ") = false) :
    readLine s line following = readLine s line none := by
  unfold readLine opensEntry
  simp only [h, Option.any_none]

/-- Lines may be read in two parts, unless the cut parts two path lines. -/
theorem readLines_append (s : Progress) (as bs : List (List Char))
    (h : bs.head?.any (begins "+++ ") = false) :
    readLines s (as ++ bs) = readLines s as >>= (readLines · bs) := by
  induction as generalizing s with
  | nil => rfl
  | cons line rest ih =>
      have hhead : readLine s line (rest ++ bs).head? = readLine s line rest.head? := by
        cases rest with
        | nil => exact readLine_lookahead s line h
        | cons next more => rfl
      rw [List.cons_append, readLines_cons, readLines_cons, hhead, bind_assoc]
      simp only [ih]

end PatchReview.Diff
