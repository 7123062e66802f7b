import PatchReview.Proofs.Except
import PatchReview.Tree.Lines

/-!
# Reading files below a root

What is on a shelf under a path is what the tree has there (`lines?_of_shelf`), and a shelf can be
filled exactly when every path can be followed (`shelf_isOk_iff`): it comes upon no name with a zero
character, and where it ends no link leads in a circle. So a shelf does not show which other paths are on
it (`exists_shelf_of_subset`).
-/

namespace PatchReview.Tree

variable (t : Tree) (root : Location)

/-- Whether a path can be followed from a root: it comes upon no name with a zero character, and where
    it ends no link leads in a circle. -/
def IsFollowable (path : String) : Prop :=
  ∃ last, (t.walk t.links (base root (.ofText path)) (Path.ofText path).names).path? = some last ∧
    t.follow t.links [] last.names ≠ .error .circle

/-- A path ends somewhere exactly if it can be followed. -/
theorem endOf_isOk_iff (path : String) :
    (∃ last, t.endOf root (Path.ofText path) = .ok last) ↔ t.IsFollowable root path := by
  rw [endOf, IsFollowable]
  cases (t.walk t.links (base root (.ofText path)) (Path.ofText path).names).path? with
  | none => simp
  | some last =>
      simp only [Option.some.injEq, exists_eq_left']
      split
      · rename_i hcircle
        simp [hcircle]
      · rename_i hopen
        simp only [Except.ok.injEq, exists_eq', true_iff]
        exact hopen

/-- So does its file have lines, or none. -/
theorem lines_isOk_iff (path : String) :
    (∃ ls?, t.lines root path = .ok ls?) ↔ t.IsFollowable root path := by
  rw [← endOf_isOk_iff]
  rw [lines, locate]
  cases t.endOf root (Path.ofText path) with
  | error fault => simp [bind, Except.bind]
  | ok last =>
      simp only [bind, Except.bind, pure, Except.pure]
      by_cases hroot : last.anchor = .top ∧ root <+: last.names
      · simp only [if_pos hroot]
        cases t.opened? last.names with
        | none => simp
        | some e => cases e <;> simp
      · simp only [if_neg hroot]
        simp

theorem shelf_cons (path : String) (paths : List String) :
    t.shelf root (path :: paths) = do
      let ls? ← t.lines root path
      let rest ← t.shelf root paths
      return (path, ls?) :: rest := by
  simp [shelf, List.mapM_cons]

/-- A shelf can be filled exactly if each of its paths can be followed. -/
theorem shelf_isOk_iff (paths : List String) :
    (∃ s, t.shelf root paths = .ok s) ↔ ∀ path ∈ paths, t.IsFollowable root path := by
  induction paths with
  | nil => simp [shelf, pure, Except.pure]
  | cons path rest ih =>
      rw [shelf_cons, List.forall_mem_cons, ← ih, ← lines_isOk_iff]
      constructor
      · rintro ⟨s, hs⟩
        obtain ⟨ls?, hls, hs⟩ := bind_eq_ok_iff.1 hs
        obtain ⟨more, hmore, -⟩ := bind_eq_ok_iff.1 hs
        exact ⟨⟨ls?, hls⟩, more, hmore⟩
      · rintro ⟨⟨ls?, hls⟩, more, hmore⟩
        exact ⟨_, bind_eq_ok_iff.2 ⟨ls?, hls, bind_eq_ok_iff.2 ⟨more, hmore, rfl⟩⟩⟩

/-- What is wrong with a path, if it cannot be followed. -/
def fault? (path : String) : Option PathFault :=
  match t.lines root path with
  | .error fault => some fault
  | .ok _ => none

/-- A shelf that cannot be filled fails at the first path that cannot be followed. -/
theorem shelf_eq_error_iff (paths : List String) (fault : PathFault) :
    t.shelf root paths = .error fault ↔ paths.findSome? (t.fault? root) = some fault := by
  induction paths with
  | nil => simp [shelf, pure, Except.pure]
  | cons path rest ih =>
      rw [shelf_cons, List.findSome?_cons, fault?]
      cases hlines : t.lines root path with
      | error first => simp [bind, Except.bind]
      | ok ls? =>
          simp only [bind_eq_error_iff, ← ih]
          simp [pure, Except.pure]

/-- **A shelf has what the tree has.** -/
theorem lines_of_shelf {paths : List String} {s : Shelf} (h : t.shelf root paths = .ok s)
    {path : String} (hpath : path ∈ paths) : t.lines root path = .ok (s.lines? path) := by
  induction paths generalizing s with
  | nil => exact nomatch hpath
  | cons first rest ih =>
      rw [shelf_cons] at h
      obtain ⟨ls?, hls, h⟩ := bind_eq_ok_iff.1 h
      obtain ⟨more, hmore, h⟩ := bind_eq_ok_iff.1 h
      obtain rfl : (first, ls?) :: more = s := Except.ok.inj h
      rw [Shelf.lines?]
      by_cases hsame : path = first
      · simp [hsame, hls]
      · have hin : path ∈ rest := by simpa [hsame] using hpath
        rw [List.lookup_cons, beq_eq_false_iff_ne.2 hsame]
        exact ih hmore hin

/-- A shelf with fewer paths has the same lines under them. -/
theorem exists_shelf_of_subset {paths paths' : List String} {s : Shelf}
    (h : t.shelf root paths = .ok s) (hsub : paths' ⊆ paths) :
    ∃ s', t.shelf root paths' = .ok s' ∧ ∀ path ∈ paths', s'.lines? path = s.lines? path := by
  have hfollowable := (shelf_isOk_iff t root paths).1 ⟨s, h⟩
  obtain ⟨s', hs'⟩ := (shelf_isOk_iff t root paths').2 fun path hpath => hfollowable path (hsub hpath)
  refine ⟨s', hs', ?_⟩
  intro path hpath
  have hlines := lines_of_shelf t root hs' hpath
  exact Except.ok.inj (hlines.symm.trans (lines_of_shelf t root h (hsub hpath)))

end PatchReview.Tree
