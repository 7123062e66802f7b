import PatchReview.Proofs.Diff.Entries

/-!
# When a diff is refused

A diff is refused for one thing only: a hunk header, read as such in an open entry, in which a number
that is asked for has too many digits. The reader then stops at that line (`readLines_eq_error_iff`),
whatever comes after it. So a text whose hunk headers have short numbers is always read
(`exists_read_of_short`).
-/

namespace PatchReview.Diff

open PatchReview.Text

/-! ## Hunk headers -/

/-- The digits of a hunk header that are taken for numbers, in the order in which they are. -/
def Ranges.numerals (r : Ranges) : List (List Char) :=
  r.old.count.toList ++ r.new.first :: r.new.count.toList

theorem exists_numberOf_iff {ds : List Char} : (∃ n, numberOf ds = .ok n) ↔ ds.length ≤ digitLimit := by
  by_cases h : ds.length ≤ digitLimit
  · exact ⟨fun _ => h, fun _ => ⟨_, numberOf_of_le h⟩⟩
  · rw [numberOf_of_lt (Nat.lt_of_not_le h)]
    exact ⟨fun ⟨_, hn⟩ => (nomatch hn), fun hle => absurd hle h⟩

theorem Range.exists_size_iff {r : Range} :
    (∃ n, r.size = .ok n) ↔ ∀ ds ∈ r.count, ds.length ≤ digitLimit := by
  rw [size]
  cases r.count with
  | none => exact ⟨fun _ => nofun, fun _ => ⟨1, rfl⟩⟩
  | some ds => simp [exists_numberOf_iff]

/-- A hunk header promises something exactly if no number that is asked for has too many digits. -/
theorem Ranges.exists_promise_iff {r : Ranges} :
    (∃ p, r.promise = .ok p) ↔ ∀ ds ∈ r.numerals, ds.length ≤ digitLimit := by
  have hparts : (∃ p, r.promise = .ok p) ↔
      (∃ n, r.old.size = .ok n) ∧ (∃ n, numberOf r.new.first = .ok n) ∧ ∃ n, r.new.size = .ok n := by
    simp only [promise, bind_eq_ok_iff]
    constructor
    · rintro ⟨p, m, hm, s, hs, n, hn, -⟩
      exact ⟨⟨m, hm⟩, ⟨s, hs⟩, ⟨n, hn⟩⟩
    · rintro ⟨⟨m, hm⟩, ⟨s, hs⟩, ⟨n, hn⟩⟩
      exact ⟨_, m, hm, s, hs, n, hn, rfl⟩
  rw [hparts, Range.exists_size_iff, Range.exists_size_iff, exists_numberOf_iff, numerals]
  simp only [List.mem_append, List.mem_cons, Option.mem_toList, Option.mem_def, or_imp, forall_and,
    forall_eq]

/-! ## Lines -/

/-- A line that is a hunk header is read as one, if it is no line of a body. -/
theorem readHeader_of_ranges {line : List Char} {r : Ranges} (h : readRanges line = some r)
    (s : Progress) : readHeader line s = s.promised (some r) := by
  obtain ⟨rest, hrest⟩ : ∃ rest, afterPrefix? "@@ -" line = some rest := by
    cases hrest : afterPrefix? "@@ -" line with
    | none =>
        rw [readRanges, hrest] at h
        cases h
    | some rest => exact ⟨rest, rfl⟩
  have hbegins : begins "@@ -" line = true := by
    by_contra hnot
    rw [afterPrefix?_eq_none (Bool.not_eq_true _ ▸ hnot)] at hrest
    cases hrest
  obtain ⟨more, rfl⟩ := List.isPrefixOf_iff_prefix.1 hbegins
  rw [← h]
  rfl

/-- A header line is refused only as a hunk header in an open entry. -/
theorem readHeader_eq_error_iff {line : List Char} {s : Progress} {e : Overlong} :
    readHeader line s = .error e ↔
      s.entry.isSome = true ∧ ∃ r, readRanges line = some r ∧ r.promise = .error e := by
  have hpromised : ∀ r : Ranges, s.promised (some r) = .error e ↔
      s.entry.isSome = true ∧ r.promise = .error e := by
    intro r
    rw [Progress.promised]
    by_cases hentry : s.entry.isSome = true
    · rw [if_pos hentry]
      cases r.promise with
      | error e' => simp [Except.map, hentry]
      | ok p => simp [Except.map]
    · rw [if_neg hentry]
      constructor
      · intro h
        cases h
      · exact fun h => absurd h.1 hentry
  cases hranges : readRanges line with
  | some r => simp [readHeader_of_ranges hranges, hpromised]
  | none =>
      have hstep := headerStep line
      generalize readHeader line = f at hstep
      cases hstep with
      | note h => simp
      | hunk => simp [hranges, Progress.promised]

/-- Whether a line is refused: it is a hunk header of the open entry and no line of a body, and a number
    that is asked for in it has too many digits. -/
structure Progress.Refuses (s : Progress) (line : List Char) (following : Option (List Char))
    (e : Overlong) : Prop where
  notBody : s.reads line following = false
  entry   : s.entry.isSome = true
  header  : ∃ r, readRanges line = some r ∧ r.promise = .error e

theorem readLine_eq_error_iff {s : Progress} {line : List Char} {following : Option (List Char)}
    {e : Overlong} : readLine s line following = .error e ↔ s.Refuses line following e := by
  by_cases hreads : s.reads line following = true
  · have hread := hreads
    simp only [Progress.reads, Bool.and_eq_true, Bool.not_eq_true'] at hread
    obtain ⟨⟨hin, hopen⟩, hsome⟩ := hread
    obtain ⟨b, hb, ho⟩ := Progress.exists_of_inBody hin
    rw [hb, Option.bind_some] at hsome
    obtain ⟨s', hs'⟩ := Option.isSome_iff_exists.1 hsome
    rw [readLine_of_body hb ho hopen, hs']
    constructor
    · intro h
      cases h
    · exact fun h => Bool.noConfusion (hreads.symm.trans h.notBody)
  · rw [Bool.not_eq_true] at hreads
    obtain ⟨s₁, hs₁, hline⟩ := readLine_of_not_reads hreads
    have hentry : s₁.entry = s.entry := by
      rcases hs₁ with rfl | rfl <;> rfl
    rw [hline, readHeader_eq_error_iff, hentry]
    exact ⟨fun h => ⟨hreads, h.1, h.2⟩, fun h => ⟨h.entry, h.header⟩⟩

/-- A hunk header is not the second of two path lines. -/
theorem begins_of_ranges {line : List Char} {r : Ranges} (h : readRanges line = some r) :
    begins "+++ " line = false := by
  by_contra hnot
  have hplus : begins "+++ " line = true := by simpa using hnot
  obtain ⟨more, rfl⟩ := List.isPrefixOf_iff_prefix.1 hplus
  exact nomatch h

/-- **Lines are refused at the first line that is.** -/
theorem readLines_eq_error_iff {ls : List (List Char)} {e : Overlong} {s : Progress} :
    readLines s ls = .error e ↔
      ∃ before line after s', ls = before ++ line :: after ∧ readLines s before = .ok s' ∧
        s'.Refuses line after.head? e := by
  constructor
  · intro h
    induction ls generalizing s with
    | nil => exact nomatch h
    | cons line rest ih =>
        rw [readLines_cons, bind_eq_error_iff] at h
        rcases h with hline | ⟨s₁, hs₁, hrest⟩
        · exact ⟨[], line, rest, s, rfl, rfl, readLine_eq_error_iff.1 hline⟩
        · obtain ⟨before, next, after, s', rfl, hbefore, hrefuses⟩ := ih hrest
          refine ⟨line :: before, next, after, s', rfl, ?_, hrefuses⟩
          -- the refused line is no path line, so the one before it is read alike without it
          have halone : readLine s line before.head? = .ok s₁ := by
            cases before with
            | cons other more => exact hs₁
            | nil =>
                obtain ⟨r, hr, -⟩ := hrefuses.header
                have hnext : (some next).any (begins "+++ ") = false := begins_of_ranges hr
                rw [← hs₁]
                exact (readLine_lookahead s line hnext).symm
          rw [readLines_cons_of_ok halone, hbefore]
  · rintro ⟨before, line, after, s', rfl, hbefore, hrefuses⟩
    obtain ⟨r, hr, -⟩ := hrefuses.header
    rw [readLines_append s before (line :: after) (begins_of_ranges hr), hbefore]
    show readLines s' (line :: after) = _
    rw [readLines_cons, readLine_eq_error_iff.2 hrefuses]
    rfl

/-! ## Texts -/

/-- Whether a text is refused: reading gets to a line that is. -/
def IsRefused (text : String) (e : Overlong) : Prop :=
  ∃ before line after s, lines text.toList = before ++ line :: after ∧
    readLines {} before = .ok s ∧ s.Refuses line after.head? e

/-- **A diff is refused for a number in a hunk header of an open entry, and for nothing else.** -/
theorem read_eq_error_iff {text : String} {e : Overlong} : read text = .error e ↔ IsRefused text e := by
  rw [IsRefused, ← readLines_eq_error_iff, read]
  cases readLines {} (lines text.toList) with
  | error e' => simp [Except.map]
  | ok s => exact ⟨(nomatch ·), (nomatch ·)⟩

theorem exists_read_iff {text : String} : (∃ d, read text = .ok d) ↔ ∀ e, ¬IsRefused text e := by
  simp only [exists_eq_ok_iff, read_eq_error_iff, not_exists]

/-- **A diff is read if the hunk headers in it have short numbers.** -/
theorem exists_read_of_short {text : String}
    (h : ∀ line ∈ lines text.toList, ∀ r, readRanges line = some r →
      ∀ ds ∈ r.numerals, ds.length ≤ digitLimit) : ∃ d, read text = .ok d := by
  refine exists_read_iff.2 ?_
  rintro e ⟨before, line, after, s, hlines, -, hrefuses⟩
  obtain ⟨r, hr, hpromise⟩ := hrefuses.header
  have hmem : line ∈ lines text.toList := by
    rw [hlines]
    exact List.mem_append_right before List.mem_cons_self
  obtain ⟨p, hp⟩ := Ranges.exists_promise_iff.2 (h line hmem r hr)
  exact nomatch hpromise.symm.trans hp

end PatchReview.Diff
