import PatchReview.Diff.Printer
import PatchReview.Proofs.Text.Lines

/-!
# The lines of a patch that is written out

Whatever is written for a file, a hunk or a line of a body stands on one line and is not empty, so
the lines that are written are the lines that are read (`lines_print`).
-/

namespace PatchReview.Patch

open PatchReview.Text
open PatchReview.Diff (nowhere)

theorem isUnbroken_digits (n : Nat) : isUnbroken (digits n) = true := by
  have hlist : digits n = Nat.toDigits 10 n := Nat.toList_repr
  rw [hlist, isUnbroken, List.all_eq_true]
  intro c hc
  have hdigit := Nat.isDigit_of_mem_toDigits (by decide) (by decide) hc
  simp only [Char.isDigit, Bool.and_eq_true, decide_eq_true_eq] at hdigit
  have hlow : 48 ≤ c.toNat := UInt32.le_iff_toNat_le.1 hdigit.1
  have hhigh : c.toNat ≤ 57 := UInt32.le_iff_toNat_le.1 hdigit.2
  simp [isLineBoundary]
  omega

theorem isUnbroken_printSide (start count : Nat) (short : Bool) :
    isUnbroken (printSide start count short) = true := by
  rw [printSide]
  split
  · exact isUnbroken_digits start
  · rw [isUnbroken_append, isUnbroken_digits, isUnbroken_cons, isUnbroken_digits]
    rfl

theorem HeaderPath.unbroken (p : HeaderPath) : isUnbroken p.text.toList = true := by
  have hproper := p.proper
  simp only [isHeaderPath, Bool.and_eq_true] at hproper
  exact hproper.1.1.1.1

/-- Whether something stands on a line, and on one only. -/
def isWhole (line : List Char) : Bool := isUnbroken line && !line.isEmpty

/-- What follows a sign or a word on its line is whole with it. -/
theorem isWhole_append {as bs : List Char} (ha : isWhole as = true) (hb : isUnbroken bs = true) :
    isWhole (as ++ bs) = true := by
  simp only [isWhole, Bool.and_eq_true] at ha
  cases as with
  | nil => exact nomatch ha.2
  | cons a rest =>
      rw [isWhole, isUnbroken_append, ha.1, hb]
      rfl

theorem isWhole_header (h : Hunk) : isWhole h.header = true := by
  rw [Hunk.header]
  refine isWhole_append (by decide) ?_
  simp only [isUnbroken_append, isUnbroken_printSide]
  decide

theorem isWhole_signed (l : BodyLine) : isWhole l.signed = true := by
  have hsign : isWhole [l.side.sign] = true := by cases l.side <;> decide
  exact isWhole_append hsign l.content.unbroken

theorem Edit.oldPath_unbroken (e : Edit) : isUnbroken e.oldPath.toList = true := by
  cases e with
  | modified path | created path _ | deleted path _ => exact path.unbroken
  | renamed old _ _ => exact old.unbroken

theorem Edit.newPath_unbroken (e : Edit) : isUnbroken e.newPath.toList = true := by
  cases e with
  | modified path | created path _ | deleted path _ => exact path.unbroken
  | renamed _ new _ => exact new.unbroken

theorem isWhole_notes (e : Edit) : ∀ line ∈ e.notes, isWhole line = true := by
  intro line hline
  cases e with
  | modified path => exact nomatch hline
  | created path mode | deleted path mode =>
      rw [List.mem_singleton.1 hline]
      exact isWhole_append (by decide) mode.unbroken
  | renamed old new differ =>
      rcases List.mem_pair.1 hline with rfl | rfl
      · exact isWhole_append (by decide) old.unbroken
      · exact isWhole_append (by decide) new.unbroken

/-- A path line is whole, with or without a path. -/
theorem isWhole_pathLine {sign side : List Char} (hsign : isWhole sign = true)
    (hside : isUnbroken side = true) {path : String} (hpath : isUnbroken path.toList = true) :
    isWhole (sign ++ (side ++ path.toList)) = true := by
  refine isWhole_append hsign ?_
  rw [isUnbroken_append, hside, hpath]
  rfl

theorem isWhole_oldLine (e : Edit) : isWhole e.oldLine = true := by
  cases e with
  | created _ _ => exact isWhole_append (by decide) (by decide)
  | modified path | deleted path _ => exact isWhole_pathLine (by decide) (by decide) path.unbroken
  | renamed old _ _ => exact isWhole_pathLine (by decide) (by decide) old.unbroken

theorem isWhole_newLine (e : Edit) : isWhole e.newLine = true := by
  cases e with
  | deleted _ _ => exact isWhole_append (by decide) (by decide)
  | modified path | created path _ => exact isWhole_pathLine (by decide) (by decide) path.unbroken
  | renamed _ new _ => exact isWhole_pathLine (by decide) (by decide) new.unbroken

theorem isWhole_edit (e : Edit) : ∀ line ∈ e.header, isWhole line = true := by
  intro line hline
  rcases List.mem_cons.1 hline with rfl | hline
  · refine isWhole_append (by decide) ?_
    simp only [isUnbroken_append, e.oldPath_unbroken, e.newPath_unbroken]
    decide
  rcases List.mem_append.1 hline with hnote | hpath
  · exact isWhole_notes e line hnote
  rcases List.mem_pair.1 hpath with rfl | rfl
  · exact isWhole_oldLine e
  · exact isWhole_newLine e

theorem isWhole_hunk (h : Hunk) : ∀ line ∈ h.print, isWhole line = true := by
  intro line hline
  rcases List.mem_cons.1 hline with rfl | hline
  · exact isWhole_header h
  obtain ⟨l, -, hl⟩ := List.mem_flatMap.1 hline
  rw [BodyLine.print] at hl
  split at hl
  · rcases List.mem_pair.1 hl with rfl | rfl
    · exact isWhole_signed l
    · decide
  · rw [List.mem_singleton.1 hl]
    exact isWhole_signed l

theorem isWhole_file (f : File) : ∀ line ∈ f.print, isWhole line = true := by
  intro line hline
  rcases List.mem_append.1 hline with hheader | hbody
  · exact isWhole_edit f.edit line hheader
  · obtain ⟨h, -, hh⟩ := List.mem_flatMap.1 hbody
    exact isWhole_hunk h line hh

/-- The lines of a patch that is written out are those that were written. -/
theorem lines_print (files : List File) :
    lines (print files).toList = files.flatMap File.print := by
  have hwhole : ∀ line ∈ files.flatMap File.print, isUnbroken line = true ∧ line ≠ [] := by
    intro line hline
    obtain ⟨f, -, hf⟩ := List.mem_flatMap.1 hline
    simpa [isWhole] using isWhole_file f line hf
  rw [print, String.toList_ofList]
  refine lines_intercalate (fun line hline => (hwhole line hline).1) ?_
  intro hlast
  exact (hwhole [] (List.mem_of_getLast? hlast)).2 rfl

end PatchReview.Patch
