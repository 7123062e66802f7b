import Mathlib.Data.List.Induction
import PatchReview.Tree.Resolution

/-!
# Following names that are there

Directories need no following: the names of one lead to it (`follow_directory`), so opening its
location finds a directory and no file (`opensFile_directory`).
-/

namespace PatchReview.Tree

variable {t : Tree}

/-- What stands anywhere but at the top is entered. -/
theorem mem_keys_of_at? {l : Location} {e : Entry} (hne : l ≠ []) (h : t.at? l = some e) :
    l ∈ t.entries.keys := by
  by_contra hout
  rw [at?, Entries.at?, if_neg hne, Entries.lookup_eq_none_of_not_mem hout] at h
  exact nomatch h

/-- What leads to a directory is a directory. -/
theorem isDirectory_of_append {l more : Location} (h : t.isDirectory (l ++ more) = true) :
    t.isDirectory l = true := by
  induction more using List.reverseRecOn with
  | nil => rwa [List.append_nil] at h
  | append_singleton more name ih =>
      refine ih ?_
      rw [isDirectory, decide_eq_true_eq] at h
      have hkey := mem_keys_of_at? (by simp) h
      have hparent := t.closed _ hkey
      rw [← List.append_assoc, List.dropLast_concat] at hparent
      rw [isDirectory, decide_eq_true_eq]
      exact hparent

/-- Where something stands, every location on the way is that of a directory. -/
theorem isDirectory_of_at? {front more : Location} {e : Entry} (hmore : more ≠ [])
    (h : t.at? (front ++ more) = some e) : t.isDirectory front = true := by
  have hparent := t.closed _ (mem_keys_of_at? (by simp [hmore]) h)
  rw [List.dropLast_append_of_ne_nil hmore] at hparent
  have hdir : t.isDirectory (front ++ more.dropLast) = true := by
    rw [isDirectory, decide_eq_true_eq]
    exact hparent
  exact isDirectory_of_append hdir

/-- The names of a directory are such as a file can have. -/
theorem isName_of_isDirectory {l : Location} (h : t.isDirectory l = true) :
    l.all Path.isName = true := by
  by_cases hne : l = []
  · rw [hne]
    rfl
  · rw [isDirectory, decide_eq_true_eq] at h
    exact t.named l (mem_keys_of_at? hne h)

/-- **The names of a directory lead to it.** -/
theorem follow_directory (links : List Location) {here names : Location}
    (h : t.isDirectory (here ++ names) = true) :
    t.follow links here names = .ok (here ++ names) := by
  induction names generalizing here with
  | nil => rw [follow, List.append_nil]
  | cons name rest ih =>
      -- every step leads to a directory, so no link is met on the way
      have hnext : t.isDirectory (here ++ [name] ++ rest) = true := by simpa using h
      have hstep := isDirectory_of_append hnext
      have hname : Path.isName name = true :=
        List.all_eq_true.1 (isName_of_isDirectory hstep) name (by simp)
      simp only [Path.isName, Path.isSingle, Bool.and_eq_true, Bool.not_eq_true', bne_iff_ne] at hname
      rw [isDirectory, decide_eq_true_eq] at hstep
      rw [follow, if_pos (isDirectory_of_append h), if_neg (by simp [hname.1.1.1]),
        if_neg hname.1.2]
      simp only [hstep]
      rw [ih hnext, List.append_assoc, List.singleton_append]

/-- Opening the location of a directory finds no file. -/
theorem opensFile_directory {l : Location} (h : t.isDirectory l = true) : t.opensFile l = false := by
  have hfollow := follow_directory t.links (show t.isDirectory ([] ++ l) = true from h)
  rw [isDirectory, decide_eq_true_eq] at h
  simp [opensFile, opened?, hfollow, h]

/-- Nor does opening the top by an empty name. -/
theorem opensFile_emptyName : t.opensFile [""] = false := by
  have htop : t.at? [] = some .directory := rfl
  have hfollow : t.follow t.links [] [""] = .ok [] := by
    rw [follow, if_pos (by simp [isDirectory, htop]), if_pos (by decide), follow]
  simp [opensFile, opened?, hfollow, htop]

end PatchReview.Tree
