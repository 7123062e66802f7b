import PatchReview.Proofs.Comment.Loading

/-!
# Relocation and misplacement agree

Relocation asks whether a comment stands exactly at its best match, misplacement whether it is in the same
file and near it. They agree all the same (`agree_allRelocated`): of relocated comments none is misplaced,
and relocating them again changes nothing.

Where a comment is placed depends on what it says and not on where it stands (`suggested_relocated`), so a
relocated comment is placed where it stands already. That its file counts as the same one takes that loaded
files have normal names.
-/

namespace PatchReview.Comment

variable {r : Number.Rounding} {o : PlacementOptions} {files : LoadedFiles} {c : Comment}
  {m : LineMatch}

theorem relocated_of_none (h : (c.placement r o files).suggested = none) :
    c.relocated r o files = c := by
  rw [relocated, moved?, h]
  rfl

theorem relocated_of_some (h : (c.placement r o files).suggested = some m) :
    c.relocated r o files = c.movedTo m.file m.line := by
  rw [relocated, moved?, h]
  rfl

/-- A comment that is moved says what it said before, so it is placed as before. -/
theorem suggested_movedTo (file : String) (line : Int) :
    ((c.movedTo file line).placement r o files).suggested = (c.placement r o files).suggested := rfl

/-- **A relocated comment is placed as it was before.** -/
theorem suggested_relocated :
    ((c.relocated r o files).placement r o files).suggested = (c.placement r o files).suggested := by
  cases h : (c.placement r o files).suggested with
  | none => rw [relocated_of_none h, h]
  | some m => rw [relocated_of_some h, suggested_movedTo, h]

/-- A comment that is relocated stays where it is the next time. -/
theorem relocated_relocated : (c.relocated r o files).relocated r o files = c.relocated r o files := by
  cases h : (c.placement r o files).suggested with
  | none => exact relocated_of_none (suggested_relocated.trans h)
  | some m =>
      rw [relocated_of_some (suggested_relocated.trans h), relocated_of_some h]
      rfl

/-- A comment is placed in a file that is loaded. -/
theorem exists_file_of_suggested (h : (c.placement r o files).suggested = some m) :
    ∃ f ∈ files, f.1 = m.file := by
  have hfound : m ∈ files.search (c.likeness r) o.minConfidence :=
    mem_of_mem_takeBounded (List.mem_of_mem_head? h)
  rw [LoadedFiles.search_eq] at hfound
  have hline := (List.mem_filter.1 (List.mem_mergeSort.1 hfound)).1
  obtain ⟨lines, hfile, -⟩ := LoadedFiles.exists_file_of_mem_allLines hline
  exact ⟨_, hfile, rfl⟩

/-- **A relocated comment is not misplaced**, if loaded files have normal names. -/
theorem misplaced?_relocated (hnormal : ∀ f ∈ files, Path.normalized f.1 = f.1) :
    (c.relocated r o files).misplaced? r o files = none := by
  rw [misplaced?]
  simp only [suggested_relocated]
  cases h : (c.placement r o files).suggested with
  | none => rfl
  | some m =>
      obtain ⟨f, hf, hfile⟩ := exists_file_of_suggested h
      have hpath : m.file = (c.relocated r o files).path := by
        rw [relocated_of_some h]
        show m.file = Path.normalized m.file
        rw [← hfile, hnormal f hf]
      have hline : ((m.line : Int) - (c.relocated r o files).line).natAbs ≤ tolerance := by
        rw [relocated_of_some h]
        show ((m.line : Int) - m.line).natAbs ≤ tolerance
        rw [Int.sub_self]
        exact Nat.zero_le _
      exact if_pos ⟨hpath, hline⟩

/-- **Relocation and misplacement agree.** Whatever files were loaded, and in whatever calls: once comments
    are relocated none of them is misplaced, and relocating them once more leaves them as they are. -/
theorem agree_allRelocated (r : Number.Rounding) (o : PlacementOptions)
    (calls : List LoadedFiles.Call) (cs : List Comment) :
    allMisplaced r o (LoadedFiles.loadedBy calls) (allRelocated r o (LoadedFiles.loadedBy calls) cs)
        = [] ∧
      allRelocated r o (LoadedFiles.loadedBy calls) (allRelocated r o (LoadedFiles.loadedBy calls) cs)
        = allRelocated r o (LoadedFiles.loadedBy calls) cs := by
  constructor
  · rw [allMisplaced, allRelocated, List.filterMap_map, List.filterMap_eq_nil_iff]
    exact fun c _ => misplaced?_relocated (LoadedFiles.normalized_of_mem_loadedBy calls)
  · rw [allRelocated, allRelocated, List.map_map]
    exact List.map_congr_left fun c _ => relocated_relocated

end PatchReview.Comment
