import PatchReview.Proofs.Comment.Placement
import PatchReview.Proofs.Path

/-!
# Files that are loaded

Files are loaded call by call, and the tree may change in between. A call leaves what was loaded before as
it is and adds files after it (`exists_append_of_load`), each under the spelling of its path that stands
for all others. So whatever was called, the names of loaded files are their own normal forms
(`normalized_of_mem_loadedBy`).
-/

namespace PatchReview.LoadedFiles

/-- A call that loads files: the tree as it stands then, the root, and the files that are named. -/
structure Call where
  tree  : Tree
  root  : Location
  files : List String

/-- The files that are loaded after some calls, one after another. What a call loads before it meets a
    fault stays. -/
def loadedBy (calls : List Call) : LoadedFiles :=
  calls.foldl (fun loaded call => (load call.tree call.root loaded call.files).1) []

/-- **A call adds files after those that are loaded**, under their normal names. -/
theorem exists_append_of_load (t : Tree) (root : Location) (loaded : LoadedFiles)
    (files : List String) :
    ∃ new, (load t root loaded files).1 = loaded ++ new ∧
      ∀ f ∈ new, Path.normalized f.1 = f.1 := by
  induction files generalizing loaded with
  | nil => exact ⟨[], (List.append_nil loaded).symm, List.forall_mem_nil _⟩
  | cons file rest ih =>
      rw [load]
      by_cases hthere : loaded.any (·.1 == Path.normalized file) = true
      · rw [if_pos hthere]
        exact ih loaded
      rw [if_neg hthere]
      cases t.lines root (Path.normalized file) with
      | error fault => exact ⟨[], (List.append_nil loaded).symm, List.forall_mem_nil _⟩
      | ok lines? =>
          cases lines? with
          | none => exact ih loaded
          | some lines =>
              obtain ⟨new, hnew, hnormal⟩ := ih (loaded ++ [(Path.normalized file, lines)])
              refine ⟨(Path.normalized file, lines) :: new, ?_, ?_⟩
              · rw [← List.append_cons] at hnew
                exact hnew
              · exact List.forall_mem_cons.2 ⟨Path.normalized_normalized file, hnormal⟩

/-- What every call keeps of loaded files holds of them after any calls. -/
theorem loadedBy_induction {P : LoadedFiles → Prop} (hnil : P [])
    (hload : ∀ t root loaded files, P loaded → P (load t root loaded files).1)
    (calls : List Call) : P (loadedBy calls) := by
  have hfold : ∀ loaded, P loaded →
      P (calls.foldl (fun loaded call => (load call.tree call.root loaded call.files).1) loaded) := by
    induction calls with
    | nil => exact fun loaded h => h
    | cons call rest ih => exact fun loaded h => ih _ (hload _ _ _ _ h)
  exact hfold [] hnil

/-- **Loaded files have normal names.** -/
theorem normalized_of_mem_loadedBy (calls : List Call) :
    ∀ f ∈ loadedBy calls, Path.normalized f.1 = f.1 := by
  refine loadedBy_induction (P := fun loaded => ∀ f ∈ loaded, Path.normalized f.1 = f.1) ?_ ?_ calls
  · intro f hf
    cases hf
  · intro t root loaded files hloaded
    obtain ⟨new, hnew, hnormal⟩ := exists_append_of_load t root loaded files
    rw [hnew]
    exact List.forall_mem_append.2 ⟨hloaded, hnormal⟩

end PatchReview.LoadedFiles
