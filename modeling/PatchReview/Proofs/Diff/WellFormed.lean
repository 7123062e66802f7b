import PatchReview.Proofs.Diff.Header
import PatchReview.Proofs.Diff.Refusal
import PatchReview.Proofs.Diff.Totals

/-!
# Every diff that is read is well formed

Whatever the text, what is read from it is a diff that makes sense (`isWellFormed_of_read`): each file has
a real path and a status that agrees with its two paths, and each hunk says of its own file which lines
are new, in their order and inside the stretch it covers. So a text gives such a diff exactly if it is
not refused for a number in a hunk header (`read_isWellFormed_iff`).

The stretch is settled line by line. A body counts its lines from the first one, and its next line is at
most one beyond its last (`Body.IsInOrder`). What a header promised does not matter for that, so it holds
of hunks that are cut short or overrun as well.
-/

namespace PatchReview

/-! ## What makes sense -/

/-- Whether the added lines of a hunk stand in order inside the stretch it covers, each on one line. -/
structure Hunk.IsWellFormed (h : Hunk) : Prop where
  first_le_last : h.first ≤ h.last
  increasing    : h.added.Pairwise fun l m => l.number < m.number
  inside        : ∀ l ∈ h.added, h.first ≤ l.number ∧ l.number ≤ h.last
  fits          : (h.added.length : Int) ≤ h.last - h.first + 1
  unbroken      : ∀ l ∈ h.added, Text.isUnbroken l.content.toList = true

/-- Whether a change has a real path, a status that agrees with its paths, and hunks of its own. -/
structure FileChange.IsWellFormed (c : FileChange) : Prop where
  path_ne_empty      : c.path ≠ ""
  path_ne_nowhere    : c.path ≠ Diff.nowhere
  oldPath_ne_nowhere : c.oldPath ≠ some Diff.nowhere
  renamed            : c.status = .renamed → ∃ old, c.oldPath = some old ∧ old ≠ "" ∧ old ≠ c.path
  modified           : c.status = .modified → ∀ old, c.oldPath = some old → old = "" ∨ old = c.path
  file_of_mem_hunks  : ∀ h ∈ c.hunks, h.file = c.path
  hunks              : ∀ h ∈ c.hunks, h.IsWellFormed

/-- Whether all changes of a diff make sense. -/
def Diff.IsWellFormed (d : Diff) : Prop := ∀ c ∈ d.files, c.IsWellFormed

namespace Diff

open PatchReview.Text

/-! ## Hunks -/

/-- Added lines hold no line boundary. -/
theorem isKept_unbroken :
    Body.IsKept fun b => ∀ l ∈ b.hunk.added, isUnbroken l.content.toList = true where
  opened := by
    intro promise l hl
    cases hl
  addLine := by
    intro b content hcontent hb l hl
    rcases List.mem_append.1 hl with hin | hlast
    · exact hb l hin
    · rw [List.mem_singleton.1 hlast, String.toList_ofList]
      exact hcontent
  keepLine := by
    intro b hb
    exact hb
  promised := by
    intro b old new hb
    exact hb

/-- Whether the lines of a body are numbered from its first line on and come before its next line,
    which is at most one beyond the last. -/
structure Body.IsInOrder (b : Body) : Prop where
  first_le_last : b.hunk.first ≤ b.hunk.last
  next_le       : b.next ≤ b.hunk.last + 1
  increasing    : b.hunk.added.Pairwise fun l m => l.number < m.number
  inside        : ∀ l ∈ b.hunk.added, (b.hunk.first : Int) ≤ l.number ∧ l.number < b.next
  fits          : b.hunk.first + b.hunk.added.length ≤ b.next

/-- Every line keeps the order: an added line takes the next number, and the next number grows. -/
theorem isKept_isInOrder : Body.IsKept Body.IsInOrder where
  opened := by
    intro promise
    refine ⟨Nat.le_refl _, Nat.le_succ _, .nil, ?_, Nat.le_refl _⟩
    intro l hl
    cases hl
  addLine := by
    intro b content _ hb
    obtain ⟨hlast, hnext, hsorted, hinside, hfits⟩ := hb
    have hbefore : ∀ l ∈ b.hunk.added, l.number < b.next := fun l hl => (hinside l hl).2
    refine ⟨?_, ?_, ?_, ?_, ?_⟩
    · show b.hunk.first ≤ max b.hunk.last b.next
      omega
    · show b.next + 1 ≤ max b.hunk.last b.next + 1
      omega
    · -- all numbers so far are below the next one
      refine List.pairwise_append.2 ⟨hsorted, List.pairwise_singleton _ _, ?_⟩
      intro l hl m hm
      rw [List.mem_singleton.1 hm]
      exact hbefore l hl
    · intro l hl
      show (b.hunk.first : Int) ≤ l.number ∧ l.number < (b.next + 1 : Nat)
      rcases List.mem_append.1 hl with hin | hnew
      · have := hinside l hin
        omega
      · rw [List.mem_singleton.1 hnew]
        show (b.hunk.first : Int) ≤ b.next ∧ (b.next : Int) < (b.next + 1 : Nat)
        omega
    · show b.hunk.first + (b.hunk.added ++ [_]).length ≤ b.next + 1
      rw [List.length_append, List.length_singleton]
      omega
  keepLine := by
    intro b hb
    obtain ⟨hlast, hnext, hsorted, hinside, hfits⟩ := hb
    refine ⟨?_, ?_, hsorted, ?_, ?_⟩
    · show b.hunk.first ≤ max b.hunk.last b.next
      omega
    · show b.next + 1 ≤ max b.hunk.last b.next + 1
      omega
    · intro l hl
      show (b.hunk.first : Int) ≤ l.number ∧ l.number < (b.next + 1 : Nat)
      have := hinside l hl
      omega
    · show b.hunk.first + b.hunk.added.length ≤ b.next + 1
      omega
  promised := by
    intro b old new hb
    exact ⟨hb.first_le_last, hb.next_le, hb.increasing, hb.inside, hb.fits⟩

/-- Where the lines of a body are in order, so are those of its hunk. -/
theorem Body.IsInOrder.hunk_isWellFormed {b : Body} (h : b.IsInOrder)
    (hunbroken : ∀ l ∈ b.hunk.added, isUnbroken l.content.toList = true) (path : String) :
    Hunk.IsWellFormed ⟨path, b.hunk.first, b.hunk.last, b.hunk.added⟩ := by
  obtain ⟨hlast, hnext, hsorted, hinside, hfits⟩ := h
  refine ⟨?_, hsorted, ?_, ?_, hunbroken⟩
  · show (b.hunk.first : Int) ≤ b.hunk.last
    omega
  · intro l hl
    show (b.hunk.first : Int) ≤ l.number ∧ l.number ≤ b.hunk.last
    have := hinside l hl
    omega
  · show (b.hunk.added.length : Int) ≤ b.hunk.last - b.hunk.first + 1
    omega

/-- Both properties of bodies together. -/
theorem isKept_and {P Q : Body → Prop} (hP : Body.IsKept P) (hQ : Body.IsKept Q) :
    Body.IsKept fun b => P b ∧ Q b where
  opened promise := ⟨hP.opened promise, hQ.opened promise⟩
  addLine b content hcontent hb :=
    ⟨hP.addLine b content hcontent hb.1, hQ.addLine b content hcontent hb.2⟩
  keepLine b hb := ⟨hP.keepLine b hb.1, hQ.keepLine b hb.2⟩
  promised b old new hb := ⟨hP.promised b old new hb.1, hQ.promised b old new hb.2⟩

/-- **The hunks of any diff are well formed.** -/
theorem hunk_isWellFormed {text : String} {d : Diff} (hread : read text = .ok d) {c : FileChange}
    (hc : c ∈ d.files) {h : Hunk} (hh : h ∈ c.hunks) : h.IsWellFormed := by
  obtain ⟨es, -, hfiles, -, hbodies⟩ := exists_entries (isKept_and isKept_isInOrder isKept_unbroken) hread
  rw [hfiles] at hc
  obtain ⟨e, he, hchange⟩ := List.mem_filterMap.1 hc
  rw [hunks_of_change hchange] at hh
  obtain ⟨stretch, hstretch, rfl⟩ := List.mem_map.1 hh
  obtain ⟨b, ⟨horder, hunbroken⟩, rfl⟩ := hbodies e he stretch hstretch
  exact horder.hunk_isWellFormed hunbroken c.path

/-- **No added line of a diff holds a line boundary.** -/
theorem isUnbroken_of_mem_added {text : String} {d : Diff} (hread : read text = .ok d) {f : FileChange}
    (hf : f ∈ d.files) {h : Hunk} (hh : h ∈ f.hunks) {l : AddedLine} (hl : l ∈ h.added) :
    isUnbroken l.content.toList = true :=
  (hunk_isWellFormed hread hf hh).unbroken l hl

/-! ## Paths -/

/-- A path that is real is not the one that stands for nothing. -/
theorem realPath_ne_nowhere (path? : Option String) : realPath path? ≠ some nowhere := by
  rw [realPath]
  by_cases h : path? = some nowhere
  · rw [if_pos h]
    intro hpath
    cases hpath
  · rw [if_neg h]
    exact h

/-- The first path that is not empty is one of the two. -/
theorem firstPath_eq_some {a b : Option String} {path : String} (h : firstPath a b = some path) :
    path ≠ "" ∧ (a = some path ∨ b = some path) := by
  rw [firstPath] at h
  cases ha : a.filter (· ≠ "") with
  | none =>
      rw [ha] at h
      obtain ⟨hb, hne⟩ := Option.filter_eq_some_iff.1 h
      exact ⟨of_decide_eq_true hne, .inr hb⟩
  | some p =>
      rw [ha] at h
      obtain rfl : p = path := Option.some.inj h
      obtain ⟨ha, hne⟩ := Option.filter_eq_some_iff.1 ha
      exact ⟨of_decide_eq_true hne, .inl ha⟩

/-- A text that is given and not empty. -/
theorem filter_eq_some_iff {path? : Option String} {path : String} :
    path?.filter (· ≠ "") = some path ↔ path? = some path ∧ path ≠ "" := by
  simp [Option.filter_eq_some_iff]

/-- What an entry describes is one of its real paths, and not empty. -/
theorem path_of_change {e : Entry} {c : FileChange} (h : e.change = some c) :
    c.path ≠ "" ∧ (realPath e.oldPath = some c.path ∨ realPath e.newPath = some c.path) := by
  obtain ⟨path, hpath, rfl⟩ := Option.map_eq_some_iff.1 h
  -- a deleted file is named by its old path first, and any other by its new one
  split at hpath
  · exact firstPath_eq_some hpath
  · obtain ⟨hne, hfrom⟩ := firstPath_eq_some hpath
    exact ⟨hne, hfrom.symm⟩

/-- What an entry describes keeps its old path, if that is real. -/
theorem oldPath_of_change {e : Entry} {c : FileChange} (h : e.change = some c) :
    c.oldPath = realPath e.oldPath := by
  obtain ⟨path, -, rfl⟩ := Option.map_eq_some_iff.1 h
  rfl

/-- A change is a rename only if both paths are real and differ, and it is a mere change of contents only
    if they do not: the file is named by its new path then. -/
theorem status_of_change {e : Entry} {c : FileChange} (h : e.change = some c) :
    (c.status = .renamed → ∃ old, c.oldPath = some old ∧ old ≠ "" ∧ old ≠ c.path) ∧
      (c.status = .modified → ∀ old, c.oldPath = some old → old = "" ∨ old = c.path) := by
  obtain ⟨path, hpath, rfl⟩ := Option.map_eq_some_iff.1 h
  have hplain : ChangeStatus.modified ≠ .renamed := by decide
  dsimp only at hpath ⊢
  split
  · exact ⟨fun h => absurd h (by decide), fun h => absurd h (by decide)⟩
  rename_i hdeleted
  rw [if_neg hdeleted] at hpath
  split
  · exact ⟨fun h => absurd h (by decide), fun h => absurd h (by decide)⟩
  cases hnew : (realPath e.newPath).filter (· ≠ "") with
  | none =>
      -- without a new path the file is named by the old one
      rw [firstPath, hnew] at hpath
      cases hold : (realPath e.oldPath).filter (· ≠ "") with
      | none => rw [hold] at hpath; cases hpath
      | some old =>
          refine ⟨fun h => absurd h hplain, ?_⟩
          intro _ old' hold'
          rw [hold] at hpath
          rw [filter_eq_some_iff, hold'] at hold
          exact .inr (Option.some.inj (hold.1.trans hpath))
  | some new =>
      rw [firstPath, hnew] at hpath
      obtain rfl : new = path := Option.some.inj hpath
      cases hold : (realPath e.oldPath).filter (· ≠ "") with
      | none =>
          refine ⟨fun h => absurd h hplain, ?_⟩
          intro _ old hold'
          by_cases hempty : old = ""
          · exact .inl hempty
          · rw [hold', filter_eq_some_iff.2 ⟨rfl, hempty⟩] at hold
            cases hold
      | some old =>
          obtain ⟨hold, hempty⟩ := filter_eq_some_iff.1 hold
          dsimp only
          by_cases hsame : old = new
          · rw [if_pos hsame]
            refine ⟨fun h => absurd h hplain, ?_⟩
            intro _ old' hold'
            exact .inr (Option.some.inj (hold'.symm.trans hold) ▸ hsame)
          · rw [if_neg hsame]
            exact ⟨fun _ => ⟨old, hold, hempty, hsame⟩, fun h => absurd h (by decide)⟩

/-- **Every diff that is read is well formed.** -/
theorem isWellFormed_of_read {text : String} {d : Diff} (hread : read text = .ok d) :
    d.IsWellFormed := by
  intro c hc
  obtain ⟨es, -, hfiles, -, -⟩ := exists_entries isKept_true hread
  have hentry := hc
  rw [hfiles] at hentry
  obtain ⟨e, -, hchange⟩ := List.mem_filterMap.1 hentry
  obtain ⟨hempty, hreal⟩ := path_of_change hchange
  obtain ⟨hrenamed, hmodified⟩ := status_of_change hchange
  refine ⟨hempty, ?_, ?_, hrenamed, hmodified, ?_, fun h hh => hunk_isWellFormed hread hc hh⟩
  · intro hnowhere
    rw [hnowhere] at hreal
    exact hreal.elim (realPath_ne_nowhere _) (realPath_ne_nowhere _)
  · rw [oldPath_of_change hchange]
    exact realPath_ne_nowhere e.oldPath
  · intro h hh
    rw [hunks_of_change hchange] at hh
    obtain ⟨stretch, -, rfl⟩ := List.mem_map.1 hh
    rfl

/-- **A text gives a well-formed diff exactly if it is not refused**: no hunk header that is read in an
    open entry asks for a number of too many digits. -/
theorem read_isWellFormed_iff (text : String) :
    (∃ d, read text = .ok d ∧ d.IsWellFormed) ↔ ∀ e, ¬IsRefused text e := by
  rw [← exists_read_iff]
  constructor
  · rintro ⟨d, hread, -⟩
    exact ⟨d, hread⟩
  · rintro ⟨d, hread⟩
    exact ⟨d, hread, isWellFormed_of_read hread⟩

/-- One, with zeros in front of it. -/
def paddedDigits (zeros : Nat) : List Char := List.replicate zeros '0' ++ ['1']

/-- One line is added to a file, as its first; the number of the line has zeros in front of it. -/
def paddedLines (zeros : Nat) : List (List Char) :=
  ["--- a/x".toList, "+++ b/x".toList, "@@ -0,0 +".toList ++ (paddedDigits zeros ++ " @@".toList),
    "+y".toList]

/-- The text of the lines. -/
def paddedText (zeros : Nat) : String := String.ofList ((paddedLines zeros).flatMap (· ++ ['\n']))

theorem eq_of_mem_paddedDigits {zeros : Nat} {c : Char} (h : c ∈ paddedDigits zeros) :
    c = '0' ∨ c = '1' :=
  (List.mem_append.1 h).imp List.eq_of_mem_replicate List.mem_singleton.1

theorem lines_paddedText (zeros : Nat) : lines (paddedText zeros).toList = paddedLines zeros := by
  have hdigits : isUnbroken (paddedDigits zeros) = true := by
    refine List.all_eq_true.2 fun c hc => ?_
    rcases eq_of_mem_paddedDigits hc with rfl | rfl <;> decide
  have hunbroken : ∀ line ∈ paddedLines zeros, isUnbroken line = true := by
    intro line hline
    simp only [paddedLines, List.mem_cons, List.not_mem_nil, or_false] at hline
    rcases hline with rfl | rfl | rfl | rfl
    · decide
    · decide
    · rw [isUnbroken_append, isUnbroken_append, hdigits]
      decide
    · decide
  rw [paddedText, String.toList_ofList, lines_flatMap hunbroken]

theorem readRange_padded (zeros : Nat) :
    readRange (paddedDigits zeros ++ " @@".toList)
      = some (⟨paddedDigits zeros, none⟩, " @@".toList) := by
  have hdecimal : ∀ c ∈ paddedDigits zeros, isDecimal c = true := by
    intro c hc
    rcases eq_of_mem_paddedDigits hc with rfl | rfl <;> decide
  have hdigits := Patch.readDigits_append hdecimal (by simp [paddedDigits]) (c := ' ') (by decide) ['@', '@']
  have hend : " @@".toList = ' ' :: ['@', '@'] := rfl
  rw [hend, readRange, hdigits]
  rfl

theorem readRanges_padded (zeros : Nat) :
    readRanges ("@@ -0,0 +".toList ++ (paddedDigits zeros ++ " @@".toList))
      = some ⟨⟨['0'], some ['0']⟩, ⟨paddedDigits zeros, none⟩⟩ := by
  have hat : ∀ rest : List Char,
      afterPrefix? "@@ -" ("@@ -0,0 +".toList ++ rest) = some ("0,0 +".toList ++ rest) := fun _ => rfl
  have hold : ∀ rest : List Char, readRange ("0,0 +".toList ++ rest)
      = some (⟨['0'], some ['0']⟩, " +".toList ++ rest) := fun _ => rfl
  have hplus : ∀ rest : List Char, afterPrefix? " +" (" +".toList ++ rest) = some rest :=
    fun _ => rfl
  simp only [readRanges, hat, hold, hplus, readRange_padded, Option.bind_eq_bind, Option.bind_some]
  rfl

/-- Zeros in front are digits too: with enough of them the number is not taken. -/
theorem isRefused_paddedText {zeros : Nat} (h : digitLimit ≤ zeros) :
    IsRefused (paddedText zeros) ⟨zeros + 1⟩ := by
  have hlength : (paddedDigits zeros).length = zeros + 1 := by simp [paddedDigits]
  have hlong : numberOf (paddedDigits zeros) = .error ⟨zeros + 1⟩ := by
    rw [numberOf_of_lt (hlength ▸ Nat.lt_succ_of_le h), hlength]
  have hpromise : (⟨⟨['0'], some ['0']⟩, ⟨paddedDigits zeros, none⟩⟩ : Ranges).promise
      = .error ⟨zeros + 1⟩ := by
    show (numberOf (paddedDigits zeros) >>= _) = _
    rw [hlong]
    rfl
  exact ⟨["--- a/x".toList, "+++ b/x".toList], _, ["+y".toList], _, lines_paddedText zeros, rfl, rfl, rfl,
    _, readRanges_padded zeros, hpromise⟩

-- a few zeros do no harm
example : read (paddedText 3) = .ok ⟨[⟨"x", some "x", .modified, [⟨"x", 1, 1, [⟨1, "y"⟩]⟩]⟩], ⟨1, 0, 1⟩⟩ := by
  decide +kernel

/-- With as many zeros as a number may have digits nothing is read. -/
theorem read_paddedText :
    read (paddedText digitLimit) = .error ⟨digitLimit + 1⟩ ∧
      ¬∃ d, read (paddedText digitLimit) = .ok d ∧ d.IsWellFormed := by
  have hrefused := read_eq_error_iff.2 (isRefused_paddedText (Nat.le_refl digitLimit))
  refine ⟨hrefused, ?_⟩
  rintro ⟨d, hread, -⟩
  exact nomatch hrefused.symm.trans hread

end Diff

end PatchReview
