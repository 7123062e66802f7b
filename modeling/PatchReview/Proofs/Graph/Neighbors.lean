import Mathlib
import PatchReview.Proofs.Graph.Relevance

/-!
# The order of neighbours

The neighbours of a file are those that it imports, then those that only import it, and each group comes in
the order of its first edges (`neighbors_grouped`). Edges may be parallel, run both ways or lead back to
their own file, and their ends need not be nodes: what counts is where an import is found first.

A file of the first group is left out of the second, so the second keeps the order of all importers with
some of them left out (`pairwise_idxOf_eraseDups`). The places in the list of importers are not those of
the edges, but they come in the same order (`findIdx_lt_of_idxOf_lt`).
-/

namespace PatchReview

/-- What comes first among the values of the chosen items is the value of an earlier item. -/
theorem findIdx_lt_of_idxOf_lt {α β : Type} [BEq β] [LawfulBEq β] (p : α → Bool) (f : α → β)
    {items : List α} {a b : β}
    (h : ((items.filter p).map f).idxOf a < ((items.filter p).map f).idxOf b) :
    items.findIdx (fun x => p x && f x == a) < items.findIdx (fun x => p x && f x == b) := by
  induction items with
  | nil => exact absurd h (Nat.lt_irrefl 0)
  | cons x rest ih =>
      rw [List.findIdx_cons, List.findIdx_cons]
      by_cases hp : p x = true
      · rw [List.filter_cons_of_pos hp, List.map_cons] at h
        have hb : f x ≠ b := by
          rintro rfl
          rw [List.idxOf_cons_self] at h
          exact Nat.not_lt_zero _ h
        by_cases ha : f x = a
        · obtain rfl := ha
          simp only [hp, beq_self_eq_true, beq_false_of_ne hb, Bool.true_and, cond_true, cond_false]
          exact Nat.succ_pos _
        · rw [List.idxOf_cons_ne _ ha, List.idxOf_cons_ne _ hb] at h
          simp only [hp, beq_false_of_ne ha, beq_false_of_ne hb, Bool.and_false, cond_false]
          exact Nat.succ_lt_succ (ih (Nat.lt_of_succ_lt_succ h))
      · -- an item that is not chosen has its place among the items and none among the values
        rw [List.filter_cons_of_neg hp] at h
        simp only [Bool.eq_false_iff.2 hp, Bool.false_and, cond_false]
        exact Nat.succ_lt_succ (ih h)

namespace Graph

variable {g : Graph} {file other : String}

/-- Whether a file imports another. -/
def Imports (g : Graph) (file other : String) : Prop :=
  ∃ e ∈ g.edges, e.source = file ∧ e.target = other

/-- The place among the edges at which a file first imports another. -/
def firstImport (g : Graph) (file other : String) : Nat :=
  g.edges.findIdx fun e => e.source = file ∧ e.target = other

/-! ## The two groups -/

/-- The files that only import a file, each once. -/
def onlyImporters (g : Graph) (file : String) : List String :=
  ((g.importers file).filter fun a => !(g.imported file).contains a).eraseDups

/-- **Neighbours come in two groups**: those that a file imports, then those that only import it. -/
theorem neighbors_eq (g : Graph) (file : String) :
    g.neighbors file = (g.imported file).eraseDups ++ g.onlyImporters file := by
  rw [neighbors, List.eraseDups_append]
  rfl

theorem mem_onlyImporters_iff :
    other ∈ g.onlyImporters file ↔ other ∈ g.importers file ∧ other ∉ g.imported file := by
  simp [onlyImporters]

/-- Files that edges join to a file, whichever end of the edges they are, come in the order of their first
    edges, also where only some of them are listed. -/
theorem pairwise_findIdx_ends (edges : List Edge) (near far : Edge → String) (file : String)
    (p : String → Bool) :
    (((edges.filter fun e => near e = file ∧ far e ≠ file).map far).filter p).eraseDups.Pairwise
      fun a b => edges.findIdx (fun e => near e = file ∧ far e = a)
        < edges.findIdx fun e => near e = file ∧ far e = b := by
  -- an edge back to its own file is passed over, and no file that is listed is that file
  have hplace : ∀ c ∈ (edges.filter fun e => near e = file ∧ far e ≠ file).map far,
      edges.findIdx (fun e => near e = file ∧ far e = c)
        = edges.findIdx fun e => decide (near e = file ∧ far e ≠ file) && far e == c := by
    intro c hc
    obtain ⟨first, hfirst, rfl⟩ := List.mem_map.1 hc
    have hne : far first ≠ file := (of_decide_eq_true (List.mem_filter.1 hfirst).2).2
    refine congrArg (List.findIdx · edges) (funext fun e => ?_)
    by_cases hfar : far e = far first
    · simp [hfar, hne]
    · simp [hfar]
  refine (pairwise_idxOf_eraseDups p _).imp_of_mem fun {a b} ha hb hlt => ?_
  rw [hplace a (List.mem_filter.1 (List.mem_eraseDups.1 ha)).1,
    hplace b (List.mem_filter.1 (List.mem_eraseDups.1 hb)).1]
  exact findIdx_lt_of_idxOf_lt _ _ hlt

theorem pairwise_imported (g : Graph) (file : String) :
    (g.imported file).eraseDups.Pairwise fun a b => g.firstImport file a < g.firstImport file b := by
  have horder := pairwise_findIdx_ends g.edges (·.source) (·.target) file fun _ => true
  rwa [List.filter_true] at horder

theorem pairwise_onlyImporters (g : Graph) (file : String) :
    (g.onlyImporters file).Pairwise fun a b => g.firstImport a file < g.firstImport b file := by
  have hends : ∀ a, g.firstImport a file = g.edges.findIdx fun e => e.target = file ∧ e.source = a := by
    intro a
    simp only [firstImport, and_comm]
  simp only [hends]
  exact pairwise_findIdx_ends g.edges (·.target) (·.source) file _

/-! ## The whole list -/

/-- A neighbour is another file that imports the file or is imported by it. -/
theorem mem_neighbors_iff_imports :
    other ∈ g.neighbors file ↔ other ≠ file ∧ (g.Imports file other ∨ g.Imports other file) := by
  rw [mem_neighbors_iff]
  refine and_congr_right fun _ => ?_
  constructor
  · rintro ⟨e, he, hends | ⟨htarget, hsource⟩⟩
    · exact .inl ⟨e, he, hends⟩
    · exact .inr ⟨e, he, hsource, htarget⟩
  · rintro (⟨e, he, hends⟩ | ⟨e, he, hsource, htarget⟩)
    · exact ⟨e, he, .inl hends⟩
    · exact ⟨e, he, .inr ⟨htarget, hsource⟩⟩

/-- **The neighbours of a file are the other files that an edge joins to it**, in either direction, each
    once, so the relation is symmetric. Those that the file imports come before those that only import it,
    and each of the two groups comes in the order of its first edges. -/
theorem neighbors_grouped (g : Graph) (file other : String) :
    (g.neighbors file).Nodup ∧ file ∉ g.neighbors file ∧
      (other ∈ g.neighbors file ↔ other ≠ file ∧ (g.Imports file other ∨ g.Imports other file)) ∧
      (other ∈ g.neighbors file ↔ file ∈ g.neighbors other) ∧
      ∃ targets importers, g.neighbors file = targets ++ importers ∧
        (∀ a ∈ targets, g.Imports file a) ∧
        (∀ a ∈ importers, g.Imports a file ∧ ¬g.Imports file a) ∧
        (targets.Pairwise fun a b => g.firstImport file a < g.firstImport file b) ∧
        importers.Pairwise fun a b => g.firstImport a file < g.firstImport b file := by
  refine ⟨nodup_neighbors g file, not_mem_neighbors_self g file, mem_neighbors_iff_imports, ?_,
    _, _, neighbors_eq g file, ?_, ?_, pairwise_imported g file, pairwise_onlyImporters g file⟩
  · rw [mem_neighbors_iff_imports, mem_neighbors_iff_imports, ne_comm, or_comm]
  · intro a ha
    exact (mem_imported_iff.1 (List.mem_eraseDups.1 ha)).2
  · intro a ha
    obtain ⟨himporter, hnot⟩ := mem_onlyImporters_iff.1 ha
    obtain ⟨hne, e, he, htarget, hsource⟩ := mem_importers_iff.1 himporter
    exact ⟨⟨e, he, hsource, htarget⟩, fun himports => hnot (mem_imported_iff.2 ⟨hne, himports⟩)⟩

end Graph

end PatchReview
