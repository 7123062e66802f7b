import Mathlib
import PatchReview.Diff.Printer
import PatchReview.Proofs.Diff.Step
import PatchReview.Proofs.Except

/-!
# Reading the headers that were written

The header of a hunk is read as the true counts of its body, unless one of its numbers has too many
digits (`Hunk.promised_eq_ok_iff`), since digits are read back before any character that is none. The
header of a file opens its entry (`readLines_header`): the last two lines name both sides, so whatever
was read of the names on the first line is said again.
-/

namespace PatchReview.Patch

open PatchReview.Text PatchReview.Diff

/-! ## Numbers and header lines -/

theorem digitValue?_of_isDigit {c : Char} (h : c.isDigit = true) :
    digitValue? c = some (c.toNat - 48) := by
  have hlt : c.toNat < 128 := by
    simp only [Char.isDigit, Bool.and_eq_true, decide_eq_true_eq] at h
    have := UInt32.le_iff_toNat_le.1 h.2
    exact Nat.lt_of_le_of_lt this (by decide)
  rw [digitValue?, if_pos hlt, if_pos h]

theorem isDecimal_of_isDigit {c : Char} (h : c.isDigit = true) : isDecimal c = true := by
  rw [isDecimal, digitValue?_of_isDigit h]
  rfl

/-- The digits of a number are read as their value. -/
theorem foldl_digitValue? (cs : List Char) (h : ∀ c ∈ cs, c.isDigit = true) (n : Nat) :
    cs.foldl (fun n c => n * 10 + (digitValue? c).getD 0) n = Nat.ofDigitChars 10 cs n := by
  induction cs generalizing n with
  | nil => rfl
  | cons c rest ih =>
      rw [List.foldl_cons, Nat.ofDigitChars_cons, digitValue?_of_isDigit (h c List.mem_cons_self),
        ih fun d hd => h d (List.mem_cons_of_mem _ hd), Nat.mul_comm]
      rfl

theorem digits_eq (n : Nat) : digits n = Nat.toDigits 10 n := Nat.toList_repr

theorem isDigit_of_mem_digits {n : Nat} {c : Char} (h : c ∈ digits n) : c.isDigit = true := by
  rw [digits_eq] at h
  exact Nat.isDigit_of_mem_toDigits (by decide) (by decide) h

theorem length_digits_le_iff (n : Nat) {k : Nat} (h : 0 < k) : (digits n).length ≤ k ↔ n < 10 ^ k := by
  rw [digits_eq]
  exact Nat.length_toDigits_le_iff (by decide) h

theorem length_digits_pow (k : Nat) : (digits (10 ^ k)).length = k + 1 := by
  have hle : (digits (10 ^ k)).length ≤ k + 1 :=
    (length_digits_le_iff _ (Nat.succ_pos k)).2 (Nat.pow_lt_pow_succ (by decide))
  rcases Nat.eq_zero_or_pos k with rfl | hk
  · rfl
  · have hnot := mt (length_digits_le_iff (10 ^ k) hk).1 (Nat.lt_irrefl _)
    omega

/-- The digits of a number are taken for it, if they are not too many. -/
theorem numberOf_digits_eq_ok_iff {n m : Nat} :
    numberOf (digits n) = .ok m ↔ n < 10 ^ digitLimit ∧ m = n := by
  have hvalue : valueOf (digits n) = n := by
    rw [valueOf, foldl_digitValue? _ (fun c => isDigit_of_mem_digits), digits_eq,
      Nat.ofDigitChars_ten_toDigits]
  rw [← length_digits_le_iff n (by decide)]
  by_cases h : (digits n).length ≤ digitLimit
  · rw [numberOf_of_le h, hvalue, Except.ok.injEq, eq_comm]
    exact ⟨fun hm => ⟨h, hm⟩, fun hm => hm.2⟩
  · rw [numberOf_of_lt (Nat.lt_of_not_le h)]
    exact ⟨(nomatch ·), fun hm => absurd hm.1 h⟩

/-- Digits are read before a character that is none. -/
theorem readDigits_append {ds : List Char} (hds : ∀ d ∈ ds, isDecimal d = true) (hne : ds ≠ [])
    {c : Char} (hc : isDecimal c = false) (rest : List Char) :
    readDigits (ds ++ c :: rest) = some (ds, c :: rest) := by
  have htake : (ds ++ c :: rest).takeWhile isDecimal = ds := by
    rw [List.takeWhile_append_of_pos hds, List.takeWhile_cons_of_neg (by simp [hc]), List.append_nil]
  have hdrop : (ds ++ c :: rest).dropWhile isDecimal = c :: rest := by
    rw [List.dropWhile_append_of_pos hds, List.dropWhile_cons_of_neg (by simp [hc])]
  rw [readDigits, htake, hdrop, if_neg (by simpa using hne)]

/-- So the digits of a number are read back. -/
theorem readDigits_digits (n : Nat) {c : Char} (hc : isDecimal c = false) (rest : List Char) :
    readDigits (digits n ++ c :: rest) = some (digits n, c :: rest) := by
  refine readDigits_append (fun d hd => isDecimal_of_isDigit (isDigit_of_mem_digits hd)) ?_ hc rest
  rw [digits_eq]
  exact Nat.toDigits_ne_nil

/-- What is written of one side. -/
def rangeOf (start count : Nat) (short : Bool) : Range :=
  ⟨digits start, if short && count == 1 then none else some (digits count)⟩

/-- A side of a hunk header is read back, if a space follows it. -/
theorem readRange_printSide (start count : Nat) (short : Bool) (rest : List Char) :
    readRange (printSide start count short ++ ' ' :: rest)
      = some (rangeOf start count short, ' ' :: rest) := by
  have hspace : isDecimal ' ' = false := by decide
  have hcomma : isDecimal ',' = false := by decide
  rw [printSide, rangeOf]
  by_cases hs : (short && count == 1) = true
  · rw [if_pos hs, if_pos hs, readRange, readDigits_digits start hspace]
    rfl
  · rw [if_neg hs, if_neg hs, List.append_assoc, List.cons_append, readRange,
      readDigits_digits start hcomma]
    simp only [readDigits_digits count hspace]

/-- The number of lines of a side is taken if its digits are not too many. -/
theorem size_rangeOf_eq_ok_iff (start : Nat) {count n : Nat} (short : Bool) :
    (rangeOf start count short).size = .ok n ↔ count < 10 ^ digitLimit ∧ n = count := by
  rw [Range.size, rangeOf]
  by_cases hs : (short && count == 1) = true
  · have hone : count = 1 := by simp_all
    rw [if_pos hs, hone]
    show Except.ok 1 = .ok n ↔ _
    rw [Except.ok.injEq, eq_comm]
    exact ⟨fun h => ⟨Nat.one_lt_pow (by decide) (by decide), h⟩, fun h => h.2⟩
  · rw [if_neg hs]
    exact numberOf_digits_eq_ok_iff

namespace Hunk

variable (h : Hunk)

/-- What the header of a hunk says. -/
def ranges : Ranges :=
  ⟨rangeOf h.oldStart (oldCount h.lines) h.shortOld, rangeOf h.newStart (newCount h.lines) h.shortNew⟩

/-- What the header of a hunk promises: its true counts. -/
def promise : Promise := ⟨oldCount h.lines, h.newStart, newCount h.lines⟩

/-- Whether no number that is asked for in the header has too many digits. -/
structure IsCountable : Prop where
  oldCount : oldCount h.lines < 10 ^ digitLimit
  newStart : h.newStart < 10 ^ digitLimit
  newCount : newCount h.lines < 10 ^ digitLimit

/-- The header is read as what it says. -/
theorem readRanges_header : readRanges h.header = some h.ranges := by
  have hat : ∀ rest : List Char, afterPrefix? "@@ -" ("@@ -".toList ++ rest) = some rest :=
    fun _ => rfl
  have hsplit : ∀ rest : List Char, " +".toList ++ rest = ' ' :: '+' :: rest := fun _ => rfl
  have hplus : ∀ rest : List Char, afterPrefix? " +" (' ' :: '+' :: rest) = some rest :=
    fun _ => rfl
  have hend : " @@".toList = ' ' :: ['@', '@'] := rfl
  rw [readRanges, header]
  simp only [hat, hsplit, hend, readRange_printSide, hplus, Option.bind_eq_bind, Option.bind_some]
  rfl

/-- What the header is read as promising. -/
def promised : Except Overlong Promise := h.ranges.promise

/-- **The header promises the true counts**, if its numbers can be taken. -/
theorem promised_eq_ok_iff {p : Promise} : h.promised = .ok p ↔ h.IsCountable ∧ p = h.promise := by
  simp only [promised, Ranges.promise, ranges, bind_eq_ok_iff, size_rangeOf_eq_ok_iff]
  constructor
  · rintro ⟨m, ⟨hold, rfl⟩, start, hstart, n, ⟨hnew, rfl⟩, hp⟩
    obtain ⟨hfirst, rfl⟩ := numberOf_digits_eq_ok_iff.1 hstart
    exact ⟨⟨hold, hfirst, hnew⟩, (Except.ok.inj hp).symm⟩
  · rintro ⟨⟨hold, hfirst, hnew⟩, rfl⟩
    exact ⟨_, ⟨hold, rfl⟩, _, numberOf_digits_eq_ok_iff.2 ⟨hfirst, rfl⟩, _, ⟨hnew, rfl⟩, rfl⟩

/-- A hunk header opens its hunk in an open entry, if its numbers can be taken. -/
theorem readHeader_header (s : Progress) (hs : s.entry.isSome = true) :
    readHeader h.header s = h.promised.map s.start := by
  have hpromised : readHeader h.header s = s.promised (readRanges h.header) := rfl
  rw [hpromised, h.readRanges_header]
  exact if_pos hs

end Hunk

/-- Nothing is stripped where no blank stands at either end. -/
theorem strip_eq_self {cs : List Char} (hhead : ∀ c ∈ cs.head?, isBlank c = false)
    (hlast : ∀ c ∈ cs.getLast?, isBlank c = false) : strip cs = cs := by
  have hdrop : ∀ ds : List Char, (∀ c ∈ ds.head?, isBlank c = false) → ds.dropWhile isBlank = ds := by
    intro ds hds
    cases ds with
    | nil => rfl
    | cons d more => exact List.dropWhile_cons_of_neg (by simp [hds d rfl])
  rw [strip, trimmed]
  rw [hdrop cs hhead, hdrop cs.reverse (by simpa using hlast), List.reverse_reverse]

/-- A path in a header line is read back without its side. -/
theorem headerPath_sided (p : HeaderPath) {side : Char} (h : side = 'a' ∨ side = 'b') :
    headerPath (side :: '/' :: p.text.toList) = p.text := by
  have hproper := p.proper
  simp only [isHeaderPath, Bool.and_eq_true, Bool.not_eq_true'] at hproper
  obtain ⟨⟨⟨⟨-, hne⟩, htab⟩, hblank⟩, -⟩ := hproper
  -- a tab, a blank, a quote or a slash in front would be read as something else
  have hside : side ≠ '\t' ∧ isBlank side = false ∧ side ≠ '\x22' ∧ side ≠ '/' := by
    rcases h with rfl | rfl <;> decide
  have htake : (side :: '/' :: p.text.toList).takeWhile (· ≠ '\t') = side :: '/' :: p.text.toList := by
    refine List.takeWhile_eq_self_iff.2 fun c hc => ?_
    rcases List.mem_cons.1 hc with rfl | hc
    · simpa using hside.1
    rcases List.mem_cons.1 hc with rfl | hc
    · decide
    · rw [decide_eq_true_eq]
      rintro rfl
      exact absurd hc (by simpa using htab)
  have hstrip : strip (side :: '/' :: p.text.toList) = side :: '/' :: p.text.toList := by
    refine strip_eq_self ?_ ?_
    · rintro c ⟨⟩
      exact hside.2.1
    · cases hp : p.text.toList with
      | nil => simp [hp] at hne
      | cons c more =>
          rw [hp] at hblank
          simpa [Option.all_eq_true] using hblank
  have hunquote : unquote (side :: '/' :: p.text.toList) = side :: '/' :: p.text.toList := by
    rw [unquote]
    rw [if_neg]
    rintro ⟨-, hq, -⟩
    exact hside.2.2.1 (by simpa using hq)
  have hreal : String.ofList (side :: '/' :: p.text.toList) ≠ nowhere := by
    intro heq
    have hhead := congrArg (fun text : String => text.toList.head?) heq
    rw [String.toList_ofList, List.head?_cons] at hhead
    exact hside.2.2.2 (Option.some.inj hhead)
  rw [headerPath]
  simp only [htake, hstrip, hunquote, if_neg hreal]
  rcases h with rfl | rfl <;> exact String.ofList_toList

/-! ## The header of a file -/

/-- What the header of a file is read as. -/
def Edit.entry : Edit → Entry
  | modified path => { oldPath := some path.text, newPath := some path.text }
  | created path _ => { oldPath := some nowhere, newPath := some path.text, isNew := true }
  | deleted path _ => { oldPath := some path.text, newPath := some nowhere, isDeleted := true }
  | renamed old new _ => { oldPath := some old.text, newPath := some new.text }

/-- The progress of a reader that has read some lines of a file's header. -/
def opened (e : Entry) : Progress := { entry := some e }

theorem readLines_opened_oldSide (e : Entry) (he : e.hunks = []) (raw : List Char)
    (rest : List (List Char)) :
    readLines (opened e) (("--- ".toList ++ raw) :: rest)
      = readLines (opened { e with oldPath := some (headerPath raw) }) rest := by
  obtain ⟨old, new, isNew, isDeleted, hunks⟩ := e
  obtain rfl : hunks = [] := he
  rfl

theorem readLines_opened_newSide (e : Entry) (raw : List Char) (rest : List (List Char)) :
    readLines (opened e) (("+++ ".toList ++ raw) :: rest)
      = readLines (opened { e with newPath := some (headerPath raw) }) rest := rfl

theorem readLines_opened_renamedFrom (e : Entry) (raw : List Char) (rest : List (List Char)) :
    readLines (opened e) (("rename from ".toList ++ raw) :: rest)
      = readLines (opened { e with oldPath := some (String.ofList (strip raw)) }) rest := rfl

theorem readLines_opened_renamedTo (e : Entry) (raw : List Char) (rest : List (List Char)) :
    readLines (opened e) (("rename to ".toList ++ raw) :: rest)
      = readLines (opened { e with newPath := some (String.ofList (strip raw)) }) rest := rfl

theorem readLines_opened_created (e : Entry) (raw : List Char) (rest : List (List Char)) :
    readLines (opened e) (("new file mode ".toList ++ raw) :: rest)
      = readLines (opened { e with isNew := true }) rest := rfl

theorem readLines_opened_deleted (e : Entry) (raw : List Char) (rest : List (List Char)) :
    readLines (opened e) (("deleted file mode ".toList ++ raw) :: rest)
      = readLines (opened { e with isDeleted := true }) rest := rfl

/-- A `diff --git` line opens an entry with the paths that are read off it. -/
theorem readLines_gitPaths (raw : List Char) (rest : List (List Char)) :
    readLines {} (("diff --git ".toList ++ raw) :: rest)
      = readLines (opened (.named (gitPaths? raw))) rest := by
  have hafter : afterPrefix? "diff --git " ("diff --git ".toList ++ raw) = some raw := rfl
  rw [readLines, readLine_of_not_inBody rfl, readHeader]
  simp only [hafter]
  cases gitPaths? raw with
  | none => rfl
  | some paths => rfl

/-- A `diff --git` line opens an entry. -/
theorem readLines_gitLine (raw : List Char) (rest : List (List Char)) : ∃ paths?,
    readLines {} (("diff --git ".toList ++ raw) :: rest) = readLines (opened (.named paths?)) rest :=
  ⟨gitPaths? raw, readLines_gitPaths raw rest⟩

/-- The header of a file opens its entry. What the `diff --git` line and the names say is said again
    by the path lines, so it does not matter how it was read. -/
theorem readLines_header (e : Edit) (rest : List (List Char)) :
    readLines {} (e.header ++ rest) = readLines (opened e.entry) rest := by
  have ha : ∀ p : HeaderPath, headerPath ("a/".toList ++ p.text.toList) = p.text :=
    fun p => headerPath_sided p (.inl rfl)
  have hb : ∀ p : HeaderPath, headerPath ("b/".toList ++ p.text.toList) = p.text :=
    fun p => headerPath_sided p (.inr rfl)
  have hnowhere : headerPath nowhere.toList = nowhere := by decide +kernel
  rw [Edit.header]
  rw [List.cons_append, List.append_assoc]
  obtain ⟨paths?, hpaths⟩ := readLines_gitLine
    ("a/".toList ++ (e.oldPath.toList ++ (" b/".toList ++ e.newPath.toList)))
    (e.notes ++ ([e.oldLine, e.newLine] ++ rest))
  rw [hpaths]
  -- `paths?` stays open: the path lines below set both sides whatever it is
  cases e with
  | modified path =>
      simp only [Edit.notes, Edit.oldLine, Edit.newLine, Edit.oldPath, Edit.newPath,
        List.nil_append, List.cons_append]
      rw [readLines_opened_oldSide _ rfl, readLines_opened_newSide, ha, hb]
      rfl
  | created path mode =>
      simp only [Edit.notes, Edit.oldLine, Edit.newLine, Edit.newPath, List.nil_append,
        List.cons_append]
      rw [readLines_opened_created, readLines_opened_oldSide _ rfl, readLines_opened_newSide,
        hnowhere, hb]
      rfl
  | deleted path mode =>
      simp only [Edit.notes, Edit.oldLine, Edit.newLine, Edit.oldPath, List.nil_append,
        List.cons_append]
      rw [readLines_opened_deleted, readLines_opened_oldSide _ rfl, readLines_opened_newSide,
        hnowhere, ha]
      rfl
  | renamed old new differ =>
      simp only [Edit.notes, Edit.oldLine, Edit.newLine, Edit.oldPath, Edit.newPath,
        List.nil_append, List.cons_append]
      rw [readLines_opened_renamedFrom, readLines_opened_renamedTo,
        readLines_opened_oldSide _ rfl, readLines_opened_newSide, ha, hb]
      rfl

end PatchReview.Patch
