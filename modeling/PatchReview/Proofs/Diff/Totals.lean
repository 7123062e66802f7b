import PatchReview.Proofs.Diff.Entries

/-!
# The totals of a diff

The number of files is that of the files that are listed. The number of added lines is counted while the
lines are read, and an entry is left out only when it is closed: where neither of its two paths names a
file, its lines stay counted but are listed nowhere. So the total is that of the listed files exactly if
no such entry has an added line (`totals_read_iff`); one that has is `totals_nameless`.
-/

namespace PatchReview

/-- The number of lines that are added to a file. -/
def FileChange.addedCount (c : FileChange) : Nat := (c.hunks.map (·.added.length)).sum

namespace Diff

/-- Whether a path names a file: it is given, not empty, and not the one that stands for no file. -/
def namesFile (path? : Option String) : Bool := path?.any fun path => path != "" && path != nowhere

/-- Whether no path of an entry names a file. -/
def Entry.isNameless (e : Entry) : Bool := !namesFile e.oldPath && !namesFile e.newPath

/-- A path that names a file is usable. -/
theorem filter_realPath_eq_none_iff (path? : Option String) :
    (realPath path?).filter (· ≠ "") = none ↔ namesFile path? = false := by
  cases path? with
  | none => simp [realPath, namesFile]
  | some path =>
      by_cases hnowhere : path = nowhere
      · simp [realPath, namesFile, hnowhere]
      · simp [realPath, namesFile, hnowhere]

theorem firstPath_eq_none_iff (a b : Option String) :
    firstPath a b = none ↔ a.filter (· ≠ "") = none ∧ b.filter (· ≠ "") = none := by
  rw [firstPath]
  cases a.filter (· ≠ "") <;> simp

/-- An entry is left out exactly if none of its paths names a file. -/
theorem change_eq_none_iff (e : Entry) : e.change = none ↔ e.isNameless = true := by
  have hnone : e.isNameless = true ↔
      (realPath e.oldPath).filter (· ≠ "") = none ∧ (realPath e.newPath).filter (· ≠ "") = none := by
    simp only [filter_realPath_eq_none_iff, Entry.isNameless, Bool.and_eq_true, Bool.not_eq_true']
  rw [hnone, Entry.change]
  simp only [Option.map_eq_none_iff]
  -- a deleted file is named by its old path first, and any other by its new one
  split
  · exact firstPath_eq_none_iff _ _
  · rw [firstPath_eq_none_iff]
    exact and_comm

/-- What an entry describes has the hunks of the entry. -/
theorem hunks_of_change {e : Entry} {c : FileChange} (h : e.change = some c) :
    c.hunks = e.hunks.map fun hunk => ⟨c.path, hunk.first, hunk.last, hunk.added⟩ := by
  obtain ⟨path, -, rfl⟩ := Option.map_eq_some_iff.1 h
  rfl

/-- So it has the lines of the entry. -/
theorem addedCount_of_change {e : Entry} {c : FileChange} (h : e.change = some c) :
    c.addedCount = e.addedCount := by
  rw [FileChange.addedCount, hunks_of_change h, Entry.addedCount, List.map_map]
  rfl

/-- The lines of entries are those of what they describe and those of the ones that are left out. -/
theorem addedIn_eq (es : List Entry) :
    addedIn es
      = ((es.filterMap Entry.change).map FileChange.addedCount).sum
        + addedIn (es.filter Entry.isNameless) := by
  induction es with
  | nil => rfl
  | cons e rest ih =>
      have hcons : ∀ fs : List Entry, addedIn (e :: fs) = e.addedCount + addedIn fs := fun fs => rfl
      cases hchange : e.change with
      | none =>
          rw [List.filterMap_cons_none hchange, List.filter_cons_of_pos ((change_eq_none_iff e).1 hchange),
            hcons, hcons, ih]
          omega
      | some c =>
          have hnamed : ¬e.isNameless = true := by
            rw [← change_eq_none_iff, hchange]
            exact Option.some_ne_none c
          rw [List.filterMap_cons_some hchange, List.filter_cons_of_neg hnamed, hcons, ih,
            List.map_cons, List.sum_cons, addedCount_of_change hchange]
          omega

theorem addedIn_eq_zero_iff (es : List Entry) : addedIn es = 0 ↔ ∀ e ∈ es, e.addedCount = 0 := by
  simp [addedIn, List.sum_eq_zero_iff_forall_eq_nat]

/-- **The totals of a diff describe its files, but for entries without a name.** Of a diff that is read the
    files are counted as they are listed. The added lines are those of the listed files and those of the
    entries that are left out, so they are those of the listed files exactly if no entry that is left out
    adds a line. -/
theorem totals_read_iff {text : String} {d : Diff} (h : read text = .ok d) :
    ∃ es, entries text = .ok es ∧
      d.totals.files = d.files.length ∧
      d.totals.added
        = ((d.files.map FileChange.addedCount).sum + addedIn (es.filter Entry.isNameless) : Nat) ∧
      (d.totals.added = ((d.files.map FileChange.addedCount).sum : Nat) ↔
        ∀ e ∈ es, e.isNameless = true → e.addedCount = 0) := by
  obtain ⟨es, hes, hfiles, hadded, -⟩ := exists_entries isKept_true h
  have htotal : d.totals.added
      = ((d.files.map FileChange.addedCount).sum + addedIn (es.filter Entry.isNameless) : Nat) := by
    rw [hadded, addedIn_eq, hfiles]
  have hcount : d.totals.files = d.files.length := by
    obtain ⟨s, -, rfl⟩ := map_eq_ok_iff.1 h
    rfl
  refine ⟨es, hes, hcount, htotal, ?_⟩
  have hzero := addedIn_eq_zero_iff (es.filter Entry.isNameless)
  simp only [List.mem_filter, and_imp] at hzero
  rw [htotal, Int.ofNat_inj, ← hzero]
  omega

/-- A diff of two entries, of which one names no file but adds no line either. -/
theorem totals_read_iff_removal :
    read "--- /dev/null\n+++ /dev/null\n@@ -1 +0,0 @@\n-x\n--- a/y\n+++ b/y\n@@ -0,0 +1 @@\n+y\n"
        = .ok ⟨[⟨"y", some "y", .modified, [⟨"y", 1, 1, [⟨1, "y"⟩]⟩]⟩], ⟨1, 1, 1⟩⟩ ∧
      ∃ es, entries
          "--- /dev/null\n+++ /dev/null\n@@ -1 +0,0 @@\n-x\n--- a/y\n+++ b/y\n@@ -0,0 +1 @@\n+y\n" = .ok es ∧
        ∀ e ∈ es, e.isNameless = true → e.addedCount = 0 := by
  have hread : read
      "--- /dev/null\n+++ /dev/null\n@@ -1 +0,0 @@\n-x\n--- a/y\n+++ b/y\n@@ -0,0 +1 @@\n+y\n"
        = .ok ⟨[⟨"y", some "y", .modified, [⟨"y", 1, 1, [⟨1, "y"⟩]⟩]⟩], ⟨1, 1, 1⟩⟩ := by decide +kernel
  obtain ⟨es, hes, -, -, hiff⟩ := totals_read_iff hread
  exact ⟨hread, es, hes, hiff.1 (by decide)⟩

/-- An added line in an entry that names no file on either side: no file is listed, one line is counted. -/
theorem totals_nameless :
    read "--- /dev/null\n+++ /dev/null\n@@ -0,0 +1 @@\n+x\n" = .ok ⟨[], ⟨1, 0, 0⟩⟩ := by
  decide +kernel

end Diff

end PatchReview
