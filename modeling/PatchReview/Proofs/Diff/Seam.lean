import PatchReview.Proofs.Diff.Step
import PatchReview.Proofs.Except
import PatchReview.Proofs.Text.Lines

/-!
# Where one diff ends and another begins

A diff may be cut before a line that opens an entry: what is read of the parts is what is read of the
whole, and the whole is refused exactly if a part is. Whatever the reader was in the middle of (a body
with lines still promised, a hunk header that could not be read, an entry without hunks), such a line
closes the entry and opens a new one, so past the seam the progress is that of a fresh reader, but for
what was found and counted before.

`Progress.after` adds to a progress what was found before it. Every step of the reader keeps out of
its way (`readLine_after`), hence so does every run (`readLines_after`), and the seam itself is
`readLines_seam`.
-/

namespace PatchReview.Diff

open PatchReview.Text

/-- The changes of two diffs, one after another. -/
def append (a b : Diff) : Diff :=
  ⟨a.files ++ b.files,
    ⟨a.totals.added + b.totals.added, a.totals.deleted + b.totals.deleted,
      a.totals.files + b.totals.files⟩⟩

namespace Progress

/-- A progress with what was found and counted before it. -/
def after (before s : Progress) : Progress :=
  { s with
    done := before.done ++ s.done
    added := before.added + s.added
    deleted := before.deleted + s.deleted }

/-- Whether the first of two path lines opens an entry here: none is open, or one that has a hunk. -/
def isReady (s : Progress) : Bool := s.entry.isNone || s.hasHunk

variable (before s : Progress)

@[simp] theorem settle_after : (before.after s).settle = before.after s.settle := by
  unfold settle
  cases hb : s.body <;> simp [after, hb]

@[simp] theorem close_after : (before.after s).close = before.after s.close := by
  unfold close
  rw [settle_after]
  simp [after]

@[simp] theorem reopen_after (e : Entry) :
    (before.after s).reopen e = before.after (s.reopen e) := by
  rw [reopen]
  rw [close_after]
  rfl

@[simp] theorem amend_after (change : Entry → Entry) :
    (before.after s).amend change = before.after (s.amend change) := rfl

@[simp] theorem giveUp_after : (before.after s).giveUp = before.after s.giveUp := rfl

@[simp] theorem start_after (promise : Promise) :
    (before.after s).start promise = before.after (s.start promise) := by
  rw [start]
  rw [settle_after]
  rfl

theorem nameOld_after (path : String) :
    (before.after s).nameOld path = before.after (s.nameOld path) := by
  unfold nameOld
  by_cases h : (s.entry.isNone || s.hasHunk) = true
  · rw [if_pos h, if_pos (show ((before.after s).entry.isNone || (before.after s).hasHunk) = true
      from h), reopen_after, amend_after]
  · rw [if_neg h, if_neg (show ¬((before.after s).entry.isNone || (before.after s).hasHunk) = true
      from h), amend_after]

theorem nameNew_after (path : String) :
    (before.after s).nameNew path = before.after (s.nameNew path) := by
  unfold nameNew
  by_cases h : s.entry.isNone = true
  · rw [if_pos h, if_pos (show (before.after s).entry.isNone = true from h)]
    rfl
  · rw [if_neg h, if_neg (show ¬(before.after s).entry.isNone = true from h), amend_after]

theorem promised_after (ranges? : Option Ranges) :
    (before.after s).promised ranges? = (s.promised ranges?).map before.after := by
  have hsettle : Except.ok (ε := Overlong) (before.after s).settle = .ok (before.after s.settle) :=
    congrArg _ (settle_after before s)
  cases ranges? with
  | none => exact hsettle
  | some ranges =>
      unfold promised
      by_cases h : s.entry.isSome = true
      · simp only [if_pos h, if_pos (show (before.after s).entry.isSome = true from h)]
        cases ranges.promise with
        | error e => rfl
        | ok promise => exact congrArg Except.ok (start_after before s promise)
      · simp only [if_neg h, if_neg (show ¬(before.after s).entry.isSome = true from h)]
        exact hsettle

/-- What is answered at the end is what was found before, then what was found after. -/
theorem result_after :
    (before.after s).result
      = append ⟨before.done, before.added, before.deleted, before.done.length⟩ s.result := by
  unfold result
  rw [close_after]
  simp [after, append]

/-! ### Opening an entry -/

@[simp] theorem body_settle : s.settle.body = none := by
  rw [settle]
  cases hb : s.body <;> simp [hb]

theorem isSome_entry_settle : s.settle.entry.isSome = s.entry.isSome := by
  rw [settle]
  cases hb : s.body <;> simp

/-- Lines that are given up are no part of the hunk. -/
@[simp] theorem reopen_giveUp (e : Entry) : s.giveUp.reopen e = s.reopen e := by
  unfold reopen close settle giveUp
  cases hb : s.body <;> simp [hb]

@[simp] theorem isReady_giveUp : s.giveUp.isReady = s.isReady := by
  simp [isReady, hasHunk, giveUp]

/-- An entry that is opened takes nothing from the one before. -/
theorem reopen_eq_after (e : Entry) : s.reopen e = s.close.after (reopen e {}) := by
  have hfresh : close {} = {} := rfl
  unfold reopen
  rw [hfresh]
  simp [after, close]

/-- Where the first of two path lines opens an entry it names its old side. -/
theorem nameOld_of_isReady {s : Progress} (h : s.isReady = true) (path : String) :
    s.nameOld path = s.reopen { oldPath := some path } := by
  rw [nameOld]
  rw [if_pos (show (s.entry.isNone || s.hasHunk) = true from h)]
  rfl

end Progress

/-! ## What was found before does not matter -/

/-- What a header line says does not depend on what was found before. -/
theorem Note.after {f : Progress → Progress} (h : Note f) (before s : Progress) :
    f (before.after s) = before.after (f s) := by
  cases h with
  | opening paths? => exact Progress.reopen_after before s _
  | oldSide raw => exact Progress.nameOld_after before s _
  | newSide raw => exact Progress.nameNew_after before s _
  | created => rfl
  | deleted => rfl
  | renamedFrom raw => rfl
  | renamedTo raw => rfl
  | remark => rfl

/-- A header line does to a progress what it does without what was found before. -/
theorem HeaderStep.after {line : List Char} {f : Progress → Except Overlong Progress}
    (h : HeaderStep line f) (before s : Progress) : f (before.after s) = (f s).map before.after := by
  cases h with
  | note h => exact congrArg Except.ok (h.after before s)
  | hunk => exact Progress.promised_after before s (readRanges line)

/-- So does a line of a body. -/
theorem readBody_after (b : Body) (line : List Char) (before s : Progress) :
    readBody b line (before.after s) = (readBody b line s).map before.after := by
  unfold readBody
  split <;> simp [Progress.after, Nat.add_assoc]

/-- So does any line. -/
theorem readLine_after (before s : Progress) (line : List Char) (following : Option (List Char)) :
    readLine (before.after s) line following = (readLine s line following).map before.after := by
  by_cases hin : s.inBody = true
  · by_cases hopen : opensEntry line following = true
    · rw [readLine_of_opensEntry hin hopen,
        readLine_of_opensEntry (show (before.after s).inBody = true from hin) hopen,
        Progress.giveUp_after, (headerStep line).after]
    · obtain ⟨b, hb, ho⟩ := Progress.exists_of_inBody hin
      rw [Bool.not_eq_true] at hopen
      rw [readLine_of_body hb ho hopen,
        readLine_of_body (show (before.after s).body = some b from hb) ho hopen, readBody_after,
        Progress.giveUp_after, (headerStep line).after]
      cases readBody b line s <;> rfl
  · rw [Bool.not_eq_true] at hin
    rw [readLine_of_not_inBody hin,
      readLine_of_not_inBody (show (before.after s).inBody = false from hin),
      (headerStep line).after]

/-- So do all lines. -/
theorem readLines_after (before s : Progress) (ls : List (List Char)) :
    readLines (before.after s) ls = (readLines s ls).map before.after := by
  induction ls generalizing s with
  | nil => rfl
  | cons line rest ih =>
      rw [readLines_cons, readLines_cons, readLine_after]
      cases readLine s line rest.head? with
      | error e => rfl
      | ok s' => exact ih s'

/-! ## The seam -/

/-- Whether lines begin with one that opens an entry: a `diff --git` line, or where `ready` also the
    first of two path lines. -/
def opens (ready : Bool) : List (List Char) → Bool
  | [] => false
  | line :: rest => begins "diff --git " line || (ready && opensEntry line rest.head?)

/-- **Past a line that opens an entry the reader is as good as new.** The state before it is any. -/
theorem readLines_seam (s : Progress) {ls : List (List Char)} (h : opens s.isReady ls = true) :
    readLines s ls = (readLines {} ls).map s.close.after := by
  cases ls with
  | nil => exact nomatch h
  | cons line rest =>
      obtain ⟨e, hs, hfresh⟩ : ∃ e, readLine s line rest.head? = .ok (s.reopen e) ∧
          readLine {} line rest.head? = .ok (Progress.reopen e {}) := by
        simp only [opens, Bool.or_eq_true, Bool.and_eq_true] at h
        rcases h with hgit | ⟨hready, hpair⟩
        · obtain ⟨paths?, hpaths⟩ := readLine_gitLine hgit
          exact ⟨.named paths?, hpaths s _, hpaths {} _⟩
        · have hold : begins "--- " line = true := by
            simp only [opensEntry, Bool.and_eq_true] at hpair
            exact hpair.1
          refine ⟨{ oldPath := some (headerPath (line.drop 4)) }, ?_, ?_⟩
          · by_cases hin : s.inBody = true
            · rw [readLine_of_opensEntry hin hpair, readHeader_oldSide hold,
                Progress.nameOld_of_isReady (by simpa using hready), Progress.reopen_giveUp]
            · rw [readLine_of_not_inBody (Bool.not_eq_true _ ▸ hin), readHeader_oldSide hold,
                Progress.nameOld_of_isReady hready]
          · rw [readLine_of_not_inBody rfl, readHeader_oldSide hold,
              Progress.nameOld_of_isReady rfl]
      rw [readLines_cons_of_ok hs, readLines_cons_of_ok hfresh, Progress.reopen_eq_after,
        readLines_after]

/-! ## Texts -/

/-- The progress after all lines of a text. -/
def progressOf (text : String) : Except Overlong Progress := readLines {} (lines text.toList)

/-- The diff that lines are. -/
def resultOf (ls : List (List Char)) : Except Overlong Diff := (readLines {} ls).map Progress.result

/-- Whether the first line of a text is a `diff --git` line. -/
def startsWithGitLine (text : String) : Bool :=
  (lines text.toList).head?.any (begins "diff --git ")

/-- Whether a text starts with the two path lines of an entry. -/
def startsWithPathLines (text : String) : Bool :=
  match lines text.toList with
  | first :: second :: _ => begins "--- " first && begins "+++ " second
  | _ => false

theorem read_eq_resultOf (text : String) : read text = resultOf (lines text.toList) := rfl

/-- A text that starts with a `diff --git` line opens an entry anywhere. -/
theorem opens_of_gitLine {text : String} (h : startsWithGitLine text = true) (ready : Bool) :
    opens ready (lines text.toList) = true := by
  rw [startsWithGitLine] at h
  cases hl : lines text.toList with
  | nil => simp [hl] at h
  | cons line rest =>
      have hline : begins "diff --git " line = true := by simpa [hl] using h
      simp [opens, hline]

/-- A text that starts with two path lines opens an entry where one may be opened. -/
theorem opens_of_pathLines {text : String} (h : startsWithPathLines text = true) :
    opens true (lines text.toList) = true := by
  rw [startsWithPathLines] at h
  cases hl : lines text.toList with
  | nil => simp [hl] at h
  | cons first rest =>
      cases rest with
      | nil => simp [hl] at h
      | cons second more =>
          have hpair : begins "--- " first = true ∧ begins "+++ " second = true := by
            simpa [hl] using h
          simp [opens, opensEntry, hpair.1, hpair.2]

/-- A line that opens an entry is not the second of two path lines. -/
theorem head?_of_opens {ready : Bool} {ls : List (List Char)} (h : opens ready ls = true) :
    ls.head?.any (begins "+++ ") = false := by
  cases ls with
  | nil => rfl
  | cons line rest =>
      rw [List.head?_cons, Option.any_some]
      simp only [opens, opensEntry, Bool.or_eq_true, Bool.and_eq_true] at h
      rcases h with hgit | ⟨-, hold, -⟩
      · obtain ⟨more, rfl⟩ := List.isPrefixOf_iff_prefix.1 hgit
        rfl
      · obtain ⟨more, rfl⟩ := List.isPrefixOf_iff_prefix.1 hold
        rfl

/-- The result of lines cut before one that opens an entry. -/
theorem resultOf_append {as bs : List (List Char)} (hpath : bs.head?.any (begins "+++ ") = false)
    (h : ∀ s, readLines {} as = .ok s → opens s.isReady bs = true) :
    resultOf (as ++ bs) = (do return (← resultOf as).append (← resultOf bs)) := by
  rw [resultOf, resultOf, resultOf, readLines_append {} as bs hpath]
  cases has : readLines {} as with
  | error e => rfl
  | ok s =>
      show (readLines s bs).map Progress.result = _
      rw [readLines_seam s (h s has)]
      cases readLines {} bs with
      | error e => rfl
      | ok s' => exact congrArg Except.ok (s.close.result_after s')

/-- **File boundaries leak no state.** What is read of two texts, of which the first ends its last
    line and the second opens an entry, is what is read of one and then of the other: the files of both
    with the sums of their totals. It is refused exactly if one of the two is, and for the same number. -/
theorem read_append (d₁ d₂ : String) (ended : d₁ = "" ∨ d₁.toList.getLast? = some '\n')
    (opening : startsWithGitLine d₂ = true ∨ startsWithPathLines d₂ = true ∧
      ∀ s, progressOf d₁ = .ok s → s.entry = none ∨ s.hasHunk = true) :
    read (d₁ ++ d₂) = (do return (← read d₁).append (← read d₂)) := by
  have hcut : lines (d₁ ++ d₂).toList = lines d₁.toList ++ lines d₂.toList := by
    rw [String.toList_append]
    refine lines_append _ _ (ended.imp_left ?_)
    rintro rfl
    rfl
  have hpath : (lines d₂.toList).head?.any (begins "+++ ") = false := by
    rcases opening with hgit | ⟨hpair, -⟩
    · exact head?_of_opens (opens_of_gitLine hgit true)
    · exact head?_of_opens (opens_of_pathLines hpair)
  rw [read_eq_resultOf, hcut]
  refine resultOf_append hpath fun s hs => ?_
  rcases opening with hgit | ⟨hpair, hready⟩
  · exact opens_of_gitLine hgit _
  · have hopen : s.isReady = true := by
      simpa [Progress.isReady] using hready s hs
    rw [hopen]
    exact opens_of_pathLines hpair

/-- A hunk that is cut short, before the path lines of the next file. -/
theorem read_append_cutShort :
    startsWithPathLines "--- a/y\n+++ b/y\n@@ -1 +1 @@\n-c\n+d\n" = true ∧
      (∀ s, progressOf "--- a/x\n+++ b/x\n@@ -1,5 +1,6 @@\n a\n+b\n" = .ok s →
        s.entry = none ∨ s.hasHunk = true) ∧
      read ("--- a/x\n+++ b/x\n@@ -1,5 +1,6 @@\n a\n+b\n"
          ++ "--- a/y\n+++ b/y\n@@ -1 +1 @@\n-c\n+d\n")
        = .ok ⟨[⟨"x", some "x", .modified, [⟨"x", 1, 2, [⟨2, "b"⟩]⟩]⟩,
            ⟨"y", some "y", .modified, [⟨"y", 1, 1, [⟨1, "d"⟩]⟩]⟩], ⟨2, 1, 2⟩⟩ := by
  have starts : startsWithPathLines "--- a/y\n+++ b/y\n@@ -1 +1 @@\n-c\n+d\n" = true := by decide +kernel
  have hunk : ∀ s, progressOf "--- a/x\n+++ b/x\n@@ -1,5 +1,6 @@\n a\n+b\n" = .ok s →
      s.entry = none ∨ s.hasHunk = true := by
    have hread : ((progressOf "--- a/x\n+++ b/x\n@@ -1,5 +1,6 @@\n a\n+b\n").map Progress.hasHunk)
        = .ok true := by decide +kernel
    intro s hs
    rw [hs] at hread
    exact .inr (Except.ok.inj hread)
  refine ⟨starts, hunk, ?_⟩
  rw [read_append _ _ (.inr (by decide +kernel)) (.inr ⟨starts, hunk⟩)]
  decide +kernel

end PatchReview.Diff
