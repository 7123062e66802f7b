import PatchReview.Proofs.Path
import PatchReview.Proofs.Tree.Confinement

/-!
# Reading a file where it stands

Whatever is entered in a tree stands in directories, so no link is met on the way to a file: its names
lead to it, whether they are followed as a path (`walk_isReal`) or by opening it (`follow_isFile`). A
file below a root is read, under its names joined by slashes, as the lines of its bytes (`lines_isFile`).
-/

namespace PatchReview.Tree

variable {t : Tree} {root : Location} {content : ByteArray}

/-- The names of a file are such as a file can have. -/
theorem isName_of_isFile {l : Location} (h : t.at? l = some (.file content)) :
    l.all Path.isName = true := by
  by_cases hne : l = []
  · rw [hne]
    rfl
  · exact t.named l (mem_keys_of_at? hne h)

/-- A file below a root has single names on the way. -/
theorem all_isSingle_of_isFile {names : Location} (h : t.at? (root ++ names) = some (.file content)) :
    names.all Path.isSingle = true := by
  refine List.all_eq_true.2 fun name hname => ?_
  have hisName := List.all_eq_true.1 (isName_of_isFile h) name (List.mem_append_right root hname)
  simp only [Path.isName, Bool.and_eq_true] at hisName
  exact hisName.1.1

/-- A file is at a real location. -/
theorem isReal_of_isFile {l : Location} (h : t.at? l = some (.file content)) : t.IsReal l where
  named := by
    intro name hname
    have hisName := List.all_eq_true.1 (isName_of_isFile h) name hname
    simp only [Path.isName, Path.isSingle, Bool.and_eq_true, Bool.not_eq_true', bne_iff_ne] at hisName
    exact ⟨hisName.1.1.1, hisName.1.2⟩
  linkless := by
    rintro front target ⟨more, rfl⟩ hlink
    by_cases hmore : more = []
    · rw [hmore, List.append_nil, hlink] at h
      cases h
    · have hfront := isDirectory_of_at? hmore h
      rw [isDirectory, decide_eq_true_eq, hlink] at hfront
      cases hfront

/-- **The names of a file lead to it** when it is opened. -/
theorem follow_isFile (links : List Location) {here names : Location}
    (h : t.at? (here ++ names) = some (.file content)) :
    t.follow links here names = .ok (here ++ names) := by
  -- a real location leads to itself unless something on the way is missing, and nothing is
  induction names generalizing here with
  | nil => rw [follow, List.append_nil]
  | cons name rest ih =>
      have hnext : here ++ name :: rest = here ++ [name] ++ rest := by simp
      obtain ⟨hidle, hup⟩ := (isReal_of_isFile h).named name (by simp)
      rw [follow, if_pos (isDirectory_of_at? (List.cons_ne_nil name rest) h), if_neg (by simp [hidle]),
        if_neg hup]
      rw [hnext] at h ⊢
      by_cases hrest : rest = []
      · rw [hrest, List.append_nil] at h
        simp only [h]
        exact ih (by rw [hrest, List.append_nil]; exact h)
      · have hdir := isDirectory_of_at? hrest h
        rw [isDirectory, decide_eq_true_eq] at hdir
        simp only [hdir]
        exact ih h

/-- A real location is where the walk along its names ends. -/
theorem walk_isReal (links : List Location) {here names : Location} (h : t.IsReal (here ++ names))
    (hzero : ∀ name ∈ names, Path.holdsZero name = false) :
    t.walk links here names = .reached (here ++ names) := by
  induction names generalizing here with
  | nil => rw [walk, List.append_nil]
  | cons name rest ih =>
      have hnext : here ++ name :: rest = here ++ [name] ++ rest := by simp
      obtain ⟨hidle, hup⟩ := h.named name (by simp)
      have hlink := h.linkless (here ++ [name])
      rw [walk, if_neg (by simp [hidle]), if_neg hup, if_neg (by simp [hzero name])]
      split
      · rename_i target hat
        exact absurd hat (hlink target ⟨rest, hnext.symm⟩)
      · rw [hnext] at h ⊢
        exact ih h fun other hother => hzero other (List.mem_cons_of_mem name hother)

/-- **A file that stands below a root is read there.** -/
theorem reads_isFile {names : Location} (hne : names ≠ [])
    (h : t.at? (root ++ names) = some (.file content)) :
    t.Reads root ("/".intercalate names) (root ++ names) content := by
  have hsingle := all_isSingle_of_isFile h
  have hzero : ∀ name ∈ names, Path.holdsZero name = false := by
    intro name hname
    have hisName := List.all_eq_true.1 (isName_of_isFile h) name (List.mem_append_right root hname)
    simp only [Path.isName, Bool.and_eq_true, Bool.not_eq_true'] at hisName
    exact hisName.2
  have htext : Path.text ⟨.here, names⟩ = "/".intercalate names := by
    cases names with
    | nil => exact absurd rfl hne
    | cons first rest => exact String.empty_append
  have hpath : Path.ofText ("/".intercalate names) = ⟨.here, names⟩ :=
    htext ▸ Path.ofText_text (p := ⟨.here, names⟩) hsingle
  have hopen : t.follow t.links [] (root ++ names) = .ok (root ++ names) := follow_isFile t.links h
  refine ⟨root ++ names, locate_eq_some_iff.2 ⟨?_, List.prefix_append root names⟩, hopen, h⟩
  rw [endOf, hpath]
  simp only [base, walk_isReal t.links (isReal_of_isFile h) hzero, Walk.path?, Path.ofLocation, hopen]

/-- Its lines are those of its bytes. -/
theorem lines_isFile {names : Location} (hne : names ≠ [])
    (h : t.at? (root ++ names) = some (.file content)) :
    t.lines root ("/".intercalate names) = .ok (some (linesOfBytes content)) :=
  lines_eq_some_iff.2 ⟨_, _, reads_isFile hne h, rfl⟩

end PatchReview.Tree
