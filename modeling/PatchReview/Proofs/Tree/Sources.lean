import Mathlib
import PatchReview.Proofs.Tree.Standing

/-!
# Exactly the source files

A path from a directory down is listed exactly if it leads to a source file: opening it finds a file,
with no link on the way, no name on it is hidden or left out, and the last has a listed suffix
(`sourceFiles_exact`). Links on the way are ruled out by themselves, since opening a path follows them; a
path on which none stands leads to itself (`opensFile_iff_isFile`).
-/

namespace PatchReview.Tree

variable {t : Tree} {start : Location} {suffixes leftOut : List String} {names : Location}

/-- Whether names lead from a directory to a source file: as a path they are opened as a file, no link
    stands on the way or at the end, none is hidden or left out, and the last has a listed suffix. -/
structure LeadsToSource (t : Tree) (start : Location) (suffixes leftOut : List String)
    (names : Location) : Prop where
  single   : ∀ name ∈ names, Path.isSingle name = true
  opened   : t.opensFile (start ++ names) = true
  linkless : ∀ front target, front <+: names → t.at? (start ++ front) ≠ some (.link target)
  shown    : ∀ name ∈ names, name.toList.head? ≠ some '.'
  kept     : ∀ name ∈ names, name ∉ leftOut
  suffix   : Path.suffixOfName (names.getLast?.getD "") ∈ suffixes

/-- What opening a location without links finds is what stands there. -/
theorem opensFile_iff_isFile {l : Location} (h : t.IsReal l) :
    t.opensFile l = true ↔ t.isFile l = true := by
  have hself := follow_isReal t.links (show t.IsReal ([] ++ l) from h)
  rw [List.nil_append] at hself
  rw [opensFile, opened?]
  rcases hself with hfollow | hfollow
  · rw [hfollow]
    rfl
  · rw [hfollow]
    constructor
    · intro hopened
      cases hopened
    · intro hfile
      -- a file that stands there is found
      obtain ⟨content, hat⟩ := isFile_iff.1 hfile
      have hfound := follow_isFile t.links (show t.at? ([] ++ l) = some (.file content) from hat)
      rw [List.nil_append, hfollow] at hfound
      cases hfound

/-- Below a directory a path is real if its names say something, none leads back, and no link stands on
    the way. -/
theorem isReal_below (hstart : t.isDirectory start = true)
    (hnamed : ∀ name ∈ names, Path.isIdle name = false ∧ name ≠ "..")
    (hlinkless : ∀ front target, front <+: names → t.at? (start ++ front) ≠ some (.link target)) :
    t.IsReal (start ++ names) where
  named := by
    intro name hname
    rcases List.mem_append.1 hname with habove | hbelow
    · exact (isReal_of_isDirectory hstart).named name habove
    · exact hnamed name hbelow
  linkless := by
    intro front target hfront
    rcases List.prefix_or_prefix_of_prefix hfront (List.prefix_append start names) with habove | hbelow
    · exact (isReal_of_isDirectory hstart).linkless front target habove
    · obtain ⟨more, rfl⟩ := hbelow
      exact hlinkless more target ((List.prefix_append_right_inj start).1 hfront)

/-- A name that leads back is hidden. -/
theorem ne_parent_of_shown {name : String} (h : name.toList.head? ≠ some '.') : name ≠ ".." := by
  rintro rfl
  exact h rfl

/-- **Names lead to a source file exactly if a file that is not passed over stands there.** -/
theorem leadsToSource_iff (hstart : t.isDirectory start = true) :
    t.LeadsToSource start suffixes leftOut names ↔
      names ≠ [] ∧ t.isFile (start ++ names) = true ∧ IsNamed suffixes leftOut names := by
  have hpassed : ∀ name, isPassedOver leftOut name = false ↔
      name.toList.head? ≠ some '.' ∧ name ∉ leftOut := by
    intro name
    simp [isPassedOver]
  constructor
  · intro h
    have hreal : t.IsReal (start ++ names) := by
      refine isReal_below hstart ?_ h.linkless
      intro name hname
      exact ⟨Path.not_isIdle_of_isSingle (h.single name hname), ne_parent_of_shown (h.shown name hname)⟩
    have hfile := (opensFile_iff_isFile hreal).1 h.opened
    refine ⟨?_, hfile, ?_, List.contains_iff_mem.2 h.suffix⟩
    · rintro rfl
      -- the directory itself is no file
      rw [isDirectory, decide_eq_true_eq] at hstart
      rw [List.append_nil, isFile, hstart] at hfile
      cases hfile
    · intro name hname
      exact (hpassed name).2 ⟨h.shown name hname, h.kept name hname⟩
  · rintro ⟨-, hfile, hshown, hsuffix⟩
    obtain ⟨content, hat⟩ := isFile_iff.1 hfile
    have hreal := isReal_of_isFile hat
    exact {
      single := List.all_eq_true.1 (all_isSingle_of_isFile hat)
      opened := (opensFile_iff_isFile hreal).2 hfile
      linkless := fun front target hfront =>
        hreal.linkless (start ++ front) target ((List.prefix_append_right_inj start).2 hfront)
      shown := fun name hname => ((hpassed name).1 (hshown name hname)).1
      kept := fun name hname => ((hpassed name).1 (hshown name hname)).2
      suffix := List.contains_iff_mem.1 hsuffix }

/-- **The list of source files has exactly the paths that lead to one**, in strictly ascending order of
    their names from the directory down, each name by its characters. So it has none twice, and it is
    the same for every tree in which the same things stand, in whatever order they are entered. -/
theorem sourceFiles_exact (hstart : t.isDirectory start = true) (suffixes leftOut : List String) :
    (∀ names, names ∈ t.sourceFiles start suffixes leftOut ↔
        t.LeadsToSource start suffixes leftOut names) ∧
      (t.sourceFiles start suffixes leftOut).Pairwise (· < ·) ∧
      ∀ t' : Tree, (∀ l, t'.at? l = t.at? l) →
        t'.sourceFiles start suffixes leftOut = t.sourceFiles start suffixes leftOut := by
  refine ⟨?_, pairwise_sourceFiles, ?_⟩
  · intro names
    rw [mem_sourceFiles_iff, leadsToSource_iff hstart]
  · intro t' hsame
    refine sourceFiles_congr fun l => ?_
    rw [isFile, isFile, hsame]

/-- A file whose name starts with that of a directory, the directory with one more and a hidden file, and
    a link to it. -/
def beside : Tree :=
  (((Tree.empty.write ["a-b.ts"] ⟨#[]⟩).write ["a", "b.ts"] ⟨#[]⟩).write ["a", ".c.ts"] ⟨#[]⟩).add ["d"]
    (.link "a")

theorem entries_beside : beside.entries = [(["a-b.ts"], .file ⟨#[]⟩), (["a"], .directory),
    (["a", "b.ts"], .file ⟨#[]⟩), (["a", ".c.ts"], .file ⟨#[]⟩), (["d"], .link "a")] := by
  decide +kernel

/-- As one text `a-b.ts` comes before `a/b.ts`, but the name of the directory comes before both. -/
theorem sourceFiles_beside : beside.sourceFiles [] [".ts"] ["out"] = [["a", "b.ts"], ["a-b.ts"]] := by
  simp [sourceFiles, depth, sourcesWithin, listing, entries_beside, standingIn, List.mergeSort, sourcesOf,
    isPassedOver, Path.suffixOfName]

theorem sourceFiles_exact_beside : beside.isDirectory [] = true ∧
    (∀ names, names ∈ beside.sourceFiles [] [".ts"] ["out"] ↔
        beside.LeadsToSource [] [".ts"] ["out"] names) ∧
      [["a", "b.ts"], ["a-b.ts"]].Pairwise (· < ·) ∧
      ∀ t' : Tree, (∀ l, t'.at? l = beside.at? l) →
        t'.sourceFiles [] [".ts"] ["out"] = [["a", "b.ts"], ["a-b.ts"]] := by
  have hstart : beside.isDirectory [] = true := rfl
  obtain ⟨hexact, hordered, hsame⟩ := sourceFiles_exact hstart [".ts"] ["out"]
  rw [sourceFiles_beside] at hordered hsame
  exact ⟨hstart, hexact, hordered, hsame⟩

end PatchReview.Tree
