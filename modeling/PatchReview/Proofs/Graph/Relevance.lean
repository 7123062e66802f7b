import Mathlib
import PatchReview.Graph.Relevance
import PatchReview.Proofs.Distinct
import PatchReview.Proofs.Except

/-!
# What a bundle holds

A bundle is the longest beginning of its candidates that the budget pays for (`IsLongestWithin`): as
each definition costs something, the first that would exceed the budget is the end of every beginning
within it. So a larger budget gives a bundle that starts with the smaller one (`relevant_longest`).

The candidates of a file are its own definitions, then those that its neighbours export. A file is a
neighbour once, whatever the number and direction of the edges that join it, and never its own
(`mem_neighbors_iff`).
-/

namespace PatchReview

namespace Definition

/-! ## The longest beginning within a budget -/

/-- What definitions cost together: their texts and names, and what stands around each. -/
def totalCost (ds : List Definition) : Nat :=
  (ds.map fun d => d.text.length + d.name.length + 50).sum

@[simp] theorem totalCost_nil : totalCost [] = 0 := rfl

@[simp] theorem totalCost_cons (d : Definition) (ds : List Definition) :
    totalCost (d :: ds) = d.cost + totalCost ds := by
  rw [totalCost, List.map_cons, List.sum_cons]
  rfl

/-- Whether a list is the longest beginning of another that a budget pays for. -/
structure IsLongestWithin (budget : Int) (all ds : List Definition) : Prop where
  begins  : ds <+: all
  fits    : (totalCost ds : Int) ≤ budget
  longest : ∀ others, others <+: all → (totalCost others : Int) ≤ budget → others.length ≤ ds.length

variable {budget budget' : Int}

theorem limitedFrom_prefix (used : Nat) (ds : List Definition) : limitedFrom budget used ds <+: ds := by
  induction ds generalizing used with
  | nil => exact List.prefix_refl []
  | cons d rest ih =>
      rw [limitedFrom]
      by_cases hover : ((used + d.cost : Nat) : Int) > budget
      · rw [if_pos hover]
        exact List.nil_prefix
      · rw [if_neg hover]
        exact List.cons_prefix_cons.2 ⟨rfl, ih _⟩

/-- What is taken fits beside what is spent already. -/
theorem totalCost_limitedFrom_le {used : Nat} (hused : (used : Int) ≤ budget) (ds : List Definition) :
    ((used + totalCost (limitedFrom budget used ds) : Nat) : Int) ≤ budget := by
  induction ds generalizing used with
  | nil => exact hused
  | cons d rest ih =>
      rw [limitedFrom]
      by_cases hover : ((used + d.cost : Nat) : Int) > budget
      · rw [if_pos hover]
        exact hused
      · rw [if_neg hover, totalCost_cons, ← Nat.add_assoc]
        exact ih (Int.not_lt.1 hover)

/-- Every beginning that fits is no longer than what is taken. -/
theorem length_le_limitedFrom {used : Nat} {ds others : List Definition} (hothers : others <+: ds)
    (hfits : ((used + totalCost others : Nat) : Int) ≤ budget) :
    others.length ≤ (limitedFrom budget used ds).length := by
  induction ds generalizing used others with
  | nil =>
      rw [List.prefix_nil.1 hothers]
      exact Nat.le_refl 0
  | cons d rest ih =>
      cases others with
      | nil => exact Nat.zero_le _
      | cons first others =>
          obtain ⟨rfl, htail⟩ := List.cons_prefix_cons.1 hothers
          rw [totalCost_cons, ← Nat.add_assoc] at hfits
          -- the first fits, since it does together with those after it
          have hroom : ¬((used + first.cost : Nat) : Int) > budget := by omega
          rw [limitedFrom, if_neg hroom, List.length_cons, List.length_cons]
          exact Nat.succ_le_succ (ih htail hfits)

/-- **What is taken is the longest beginning within the budget.** -/
theorem isLongestWithin_limited (hbudget : 0 ≤ budget) (ds : List Definition) :
    IsLongestWithin budget ds (limited budget ds) where
  begins := limitedFrom_prefix 0 ds
  fits := by
    have h : ((0 + totalCost (limitedFrom budget 0 ds) : Nat) : Int) ≤ budget :=
      totalCost_limitedFrom_le hbudget ds
    rwa [Nat.zero_add] at h
  longest := by
    intro others hothers hfits
    rw [← Nat.zero_add (totalCost others)] at hfits
    exact length_le_limitedFrom hothers hfits

/-- A larger budget only adds at the end. -/
theorem IsLongestWithin.prefix_of_le {all ds ds' : List Definition} (h : IsLongestWithin budget all ds)
    (h' : IsLongestWithin budget' all ds') (hle : budget ≤ budget') : ds <+: ds' :=
  List.prefix_of_prefix_length_le h.begins h'.begins
    (h'.longest ds h.begins (Int.le_trans h.fits hle))

end Definition

namespace Graph

open Definition (IsLongestWithin)

variable {g : Graph} {budget : Int} {file : String}

/-! ## Neighbours -/

theorem mem_imported_iff {other : String} :
    other ∈ g.imported file ↔ other ≠ file ∧ ∃ e ∈ g.edges, e.source = file ∧ e.target = other := by
  simp only [imported, List.mem_map, List.mem_filter, decide_eq_true_eq]
  constructor
  · rintro ⟨e, ⟨he, hsource, hne⟩, rfl⟩
    exact ⟨hne, e, he, hsource, rfl⟩
  · rintro ⟨hne, e, he, hsource, rfl⟩
    exact ⟨e, ⟨he, hsource, hne⟩, rfl⟩

theorem mem_importers_iff {other : String} :
    other ∈ g.importers file ↔ other ≠ file ∧ ∃ e ∈ g.edges, e.target = file ∧ e.source = other := by
  simp only [importers, List.mem_map, List.mem_filter, decide_eq_true_eq]
  constructor
  · rintro ⟨e, ⟨he, htarget, hne⟩, rfl⟩
    exact ⟨hne, e, he, htarget, rfl⟩
  · rintro ⟨hne, e, he, htarget, rfl⟩
    exact ⟨e, ⟨he, htarget, hne⟩, rfl⟩

/-- **A neighbour is another file that an edge joins**, in either direction. -/
theorem mem_neighbors_iff {other : String} :
    other ∈ g.neighbors file ↔
      other ≠ file ∧ ∃ e ∈ g.edges,
        e.source = file ∧ e.target = other ∨ e.target = file ∧ e.source = other := by
  rw [neighbors, List.mem_eraseDups, List.mem_append, mem_imported_iff, mem_importers_iff, ← and_or_left]
  refine and_congr_right fun _ => ?_
  constructor
  · rintro (⟨e, he, hends⟩ | ⟨e, he, hends⟩)
    · exact ⟨e, he, .inl hends⟩
    · exact ⟨e, he, .inr hends⟩
  · rintro ⟨e, he, hends | hends⟩
    · exact .inl ⟨e, he, hends⟩
    · exact .inr ⟨e, he, hends⟩

theorem nodup_neighbors (g : Graph) (file : String) : (g.neighbors file).Nodup := nodup_eraseDups _

theorem not_mem_neighbors_self (g : Graph) (file : String) : file ∉ g.neighbors file :=
  fun h => (mem_neighbors_iff.1 h).1 rfl

/-! ## Bundles -/

/-- Under a positive budget every file that is asked for has its bundle. -/
theorem lookup_relevant (g : Graph) (table : DefinitionTable) (hbudget : 0 < budget)
    {files : List String} (hfile : file ∈ files) :
    ∃ found, g.relevant table budget files = .ok found ∧
      found.lookup file = some (g.bundle table budget file) := by
  refine ⟨_, bind_eq_ok_iff.2 ⟨(), requirePositive_of_pos hbudget, rfl⟩, ?_⟩
  exact List.lookup_graph _ (List.mem_eraseDups.2 hfile)

/-- **A bundle is the longest beginning of the candidates that the budget pays for**, and a larger
    budget only adds at its end. The candidates are the definitions of the file and then those that its
    neighbours export; no neighbour comes twice, and the file is not among them. -/
theorem relevant_longest (g : Graph) (table : DefinitionTable) (hbudget : 0 < budget)
    {files : List String} (hfile : file ∈ files) :
    ∃ found bundle, g.relevant table budget files = .ok found ∧ found.lookup file = some bundle ∧
      IsLongestWithin budget
        (definitionsOf table file ++
          (g.neighbors file).flatMap fun other => (definitionsOf table other).filter (·.exported))
        bundle ∧
      (∀ budget', budget ≤ budget' → ∃ found' more,
        g.relevant table budget' files = .ok found' ∧ found'.lookup file = some (bundle ++ more)) ∧
      (g.neighbors file).Nodup ∧ file ∉ g.neighbors file := by
  obtain ⟨found, hfound, hlookup⟩ := lookup_relevant g table hbudget hfile
  have hlongest := Definition.isLongestWithin_limited (Int.le_of_lt hbudget) (g.candidates table file)
  refine ⟨found, g.bundle table budget file, hfound, hlookup, hlongest, ?_, nodup_neighbors g file,
    not_mem_neighbors_self g file⟩
  intro budget' hle
  have hbudget' : 0 < budget' := Int.lt_of_lt_of_le hbudget hle
  obtain ⟨found', hfound', hlookup'⟩ := lookup_relevant g table hbudget' hfile
  have hlongest' := Definition.isLongestWithin_limited (Int.le_of_lt hbudget') (g.candidates table file)
  obtain ⟨more, hmore⟩ := hlongest.prefix_of_le hlongest' hle
  exact ⟨found', more, hfound', hlookup'.trans (congrArg some hmore.symm)⟩

/-- A file that imports itself, and twice a file that imports it; both import a third. -/
def entangled : Graph :=
  ⟨["a", "b", "c"],
    [⟨"a", "a", "."⟩, ⟨"a", "b", "./b"⟩, ⟨"b", "a", "./a"⟩, ⟨"a", "b", "./b.ts"⟩, ⟨"a", "c", "./c"⟩,
      ⟨"b", "c", "./c"⟩]⟩

/-- A definition that costs 52 characters. -/
def shortDefinition (file name : String) (exported : Bool) : Definition :=
  ⟨file, name, .function, exported, "x", ⟨1, 1⟩⟩

/-- What the three define; only `b` keeps something to itself. -/
def entangledTable : DefinitionTable :=
  [("a", [shortDefinition "a" "f" true]),
    ("b", [shortDefinition "b" "g" false, shortDefinition "b" "h" true]),
    ("c", [shortDefinition "c" "i" true])]

/-- Two of the three candidates of `a` are within a budget of 155 characters, its own first. -/
theorem relevant_longest_entangled :
    (0 : Int) < 155 ∧ "a" ∈ ["b", "a"] ∧
      (entangled.bundle entangledTable 155 "a").map (·.name) = ["f", "h"] ∧
      ∃ found bundle, entangled.relevant entangledTable 155 ["b", "a"] = .ok found ∧
        found.lookup "a" = some bundle ∧
        IsLongestWithin 155
          (definitionsOf entangledTable "a" ++ (entangled.neighbors "a").flatMap fun other =>
            (definitionsOf entangledTable other).filter (·.exported)) bundle ∧
        (∀ budget', 155 ≤ budget' → ∃ found' more,
          entangled.relevant entangledTable budget' ["b", "a"] = .ok found' ∧
            found'.lookup "a" = some (bundle ++ more)) ∧
        (entangled.neighbors "a").Nodup ∧ "a" ∉ entangled.neighbors "a" :=
  ⟨by decide, by decide, by decide +kernel,
    relevant_longest entangled entangledTable (by decide) (by decide)⟩

end Graph

end PatchReview
