import Mathlib
import PatchReview.Graph.Basic
import PatchReview.Proofs.Distinct

/-!
# Hotspots

The ranking of a graph has every file of it once, with its degree, by degree from the highest and then by
name (`IsRanking`). No two files are level in it, so a graph has one ranking only, and that does not
depend on the order in which nodes and edges are listed, nor on how often a node is. Hotspots are the
ranking as far as the limit (`hotspots_ranked`).

Degrees count the ends of edges. Every end is a file of the graph, so all degrees together are twice the
number of edges (`sum_degree`).
-/

namespace PatchReview.Graph

/-! ## Files and their degrees -/

/-- Whether a file is one of a graph: a node, or the end of an edge. -/
def Holds (g : Graph) (file : String) : Prop :=
  file ∈ g.nodes ∨ ∃ e ∈ g.edges, e.source = file ∨ e.target = file

/-- The ends of all edges, one after another. -/
def ends (g : Graph) : List String := g.edges.flatMap fun e => [e.source, e.target]

variable {g g' : Graph}

theorem mem_ends_iff {file : String} :
    file ∈ g.ends ↔ ∃ e ∈ g.edges, e.source = file ∨ e.target = file := by
  rw [ends, List.mem_flatMap]
  simp only [List.mem_cons, List.not_mem_nil, or_false, eq_comm (a := file)]

theorem mem_files_iff {file : String} : file ∈ g.files ↔ g.Holds file := by
  rw [files, List.mem_eraseDups, List.mem_append, Holds, ← mem_ends_iff, ends]

theorem nodup_files (g : Graph) : g.files.Nodup := nodup_eraseDups _

/-- A degree counts the ends of edges at a file. -/
theorem degree_eq_count (g : Graph) (file : String) : g.degree file = g.ends.count file := by
  obtain ⟨nodes, edges⟩ := g
  induction edges with
  | nil => rfl
  | cons e rest ih =>
      have hrest : rest.countP (·.source = file) + rest.countP (·.target = file)
          = (rest.flatMap fun e => [e.source, e.target]).count file := ih
      show (e :: rest).countP (·.source = file) + (e :: rest).countP (·.target = file)
        = ([e.source, e.target] ++ rest.flatMap fun e => [e.source, e.target]).count file
      rw [List.count_append, ← hrest, List.countP_cons, List.countP_cons, List.count_cons,
        List.count_cons, List.count_nil]
      simp only [decide_eq_true_eq, beq_iff_eq]
      omega

theorem length_ends (g : Graph) : g.ends.length = 2 * g.edges.length := by
  rw [ends, List.length_flatMap]
  simp [List.map_const', Nat.mul_comm]

/-- **All degrees together are twice the number of edges.** -/
theorem sum_degree (g : Graph) : (g.files.map g.degree).sum = 2 * g.edges.length := by
  have hends : ∀ file ∈ (g.ends : Multiset String), file ∈ g.files.toFinset := by
    intro file hfile
    rw [List.mem_toFinset, mem_files_iff]
    exact .inr (mem_ends_iff.1 hfile)
  calc (g.files.map g.degree).sum
      = (g.files.map g.ends.count).sum := by rw [funext (degree_eq_count g)]
    _ = ∑ file ∈ g.files.toFinset, g.ends.count file :=
        (List.sum_toFinset g.ends.count (nodup_files g)).symm
    _ = g.ends.length := by simpa using Multiset.sum_count_eq_card hends
    _ = 2 * g.edges.length := length_ends g

/-! ## The order of rank -/

/-- Whether a file ranks before another: it has the higher degree, or the same and a name that comes
    first, character by character. -/
def Outranks (a b : Hotspot) : Prop :=
  b.degree < a.degree ∨ a.degree = b.degree ∧ a.file < b.file

theorem not_outranks_self (a : Hotspot) : ¬Outranks a a := by
  rintro (hdegree | ⟨-, hfile⟩)
  · exact Nat.lt_irrefl _ hdegree
  · exact String.lt_irrefl _ hfile

theorem Outranks.asymm {a b : Hotspot} (hab : Outranks a b) : ¬Outranks b a := by
  rintro (hdegree | ⟨hsame, hfile⟩)
  · rcases hab with hab | ⟨hab, -⟩
    · exact Nat.lt_asymm hab hdegree
    · exact absurd hab (Nat.ne_of_lt hdegree)
  · rcases hab with hab | ⟨-, hab⟩
    · exact absurd hsame (Nat.ne_of_lt hab)
    · exact String.lt_asymm hab hfile

instance : Std.Irrefl Outranks := ⟨not_outranks_self⟩

instance : Std.Antisymm Outranks := ⟨fun _ _ hab hba => absurd hba hab.asymm⟩

theorem ranksBefore_iff {a b : Hotspot} :
    ranksBefore a b = true ↔ b.degree < a.degree ∨ a.degree = b.degree ∧ a.file ≤ b.file := by
  simp [ranksBefore]

/-- Of two files that differ, the one that does not come after the other ranks before it. -/
theorem outranks_of_ranksBefore {a b : Hotspot} (h : ranksBefore a b = true) (hne : a ≠ b) :
    Outranks a b := by
  rcases ranksBefore_iff.1 h with hdegree | ⟨hdegree, hfile⟩
  · exact .inl hdegree
  · refine .inr ⟨hdegree, String.not_le.1 fun hback => hne ?_⟩
    have hname : a.file = b.file := String.le_antisymm hfile hback
    cases a
    cases b
    simp_all

theorem ranksBefore_trans (a b c : Hotspot) (hab : ranksBefore a b = true)
    (hbc : ranksBefore b c = true) : ranksBefore a c = true := by
  rw [ranksBefore_iff] at hab hbc ⊢
  rcases hab with hab | ⟨hab, hfile⟩
  · exact .inl (by omega)
  · rcases hbc with hbc | ⟨hbc, hfile'⟩
    · exact .inl (by omega)
    · exact .inr ⟨hab.trans hbc, String.le_trans hfile hfile'⟩

theorem ranksBefore_total (a b : Hotspot) : (ranksBefore a b || ranksBefore b a) = true := by
  rw [Bool.or_eq_true, ranksBefore_iff, ranksBefore_iff]
  rcases Nat.lt_trichotomy a.degree b.degree with hlt | heq | hgt
  · exact .inr (.inl hlt)
  · rcases String.le_total a.file b.file with hfile | hfile
    · exact .inl (.inr ⟨heq, hfile⟩)
    · exact .inr (.inr ⟨heq.symm, hfile⟩)
  · exact .inl (.inl hgt)

/-! ## The ranking -/

/-- Whether a list is the ranking of a graph: every file of the graph once, with its degree, and each
    ranks before all that follow. -/
structure IsRanking (g : Graph) (ranking : List Hotspot) : Prop where
  whole  : ∀ h, h ∈ ranking ↔ g.Holds h.file ∧ h.degree = g.degree h.file
  once   : (ranking.map (·.file)).Nodup
  strict : ranking.Pairwise Outranks

theorem mem_degrees_iff {h : Hotspot} : h ∈ g.degrees ↔ g.Holds h.file ∧ h.degree = g.degree h.file := by
  rw [degrees, List.mem_map]
  constructor
  · rintro ⟨file, hfile, rfl⟩
    exact ⟨mem_files_iff.1 hfile, rfl⟩
  · rintro ⟨hfile, hdegree⟩
    exact ⟨h.file, mem_files_iff.2 hfile, by rw [← hdegree]⟩

theorem map_file_degrees (g : Graph) : g.degrees.map (·.file) = g.files := by
  rw [degrees, List.map_map]
  exact List.map_id _

/-- **Sorting gives the ranking.** -/
theorem isRanking_mergeSort (g : Graph) : g.IsRanking (g.degrees.mergeSort ranksBefore) := by
  have hperm := List.mergeSort_perm g.degrees ranksBefore
  have honce : ((g.degrees.mergeSort ranksBefore).map (·.file)).Nodup := by
    rw [(hperm.map _).nodup_iff, map_file_degrees]
    exact nodup_files g
  have hsorted := List.pairwise_mergeSort ranksBefore_trans ranksBefore_total g.degrees
  have hdistinct : (g.degrees.mergeSort ranksBefore).Pairwise (· ≠ ·) := honce.of_map _
  refine ⟨fun h => ?_, honce, ?_⟩
  · rw [hperm.mem_iff, mem_degrees_iff]
  · exact (hsorted.and hdistinct).imp fun h => outranks_of_ranksBefore h.1 h.2

/-- The hotspots are the first of the ranking. -/
theorem hotspots_eq_take (g : Graph) {limit : Int} (hlimit : 0 < limit) :
    g.hotspots limit = (g.degrees.mergeSort ranksBefore).take limit.toNat := by
  rw [hotspots, takeBounded, if_pos (Int.le_of_lt hlimit)]

/-- A graph has one ranking, and it is that of every graph with the same files and degrees. -/
theorem IsRanking.eq {ranking ranking' : List Hotspot} (h : g.IsRanking ranking)
    (h' : g'.IsRanking ranking') (hfiles : ∀ file, g.Holds file ↔ g'.Holds file)
    (hdegree : ∀ file, g.degree file = g'.degree file) : ranking = ranking' := by
  refine h.strict.eq_of_mem_iff h'.strict fun spot => ?_
  rw [h.whole, h'.whole, hfiles, hdegree]

/-- Where nodes and edges are listed, and how often a node is, does not show in files and degrees. -/
theorem holds_congr (hnodes : ∀ file, file ∈ g.nodes ↔ file ∈ g'.nodes) (hedges : g.edges.Perm g'.edges)
    (file : String) : g.Holds file ↔ g'.Holds file := by
  simp only [Holds, hnodes, hedges.mem_iff]

theorem degree_congr (hedges : g.edges.Perm g'.edges) (file : String) :
    g.degree file = g'.degree file := by
  rw [degree, degree, hedges.countP_eq, hedges.countP_eq]

/-- **Hotspots are the ranking of a graph as far as the limit.** The ranking has every file once, so
    all degrees in it are twice the number of edges, and a file that is left out ranks after all that
    are listed. Another order of nodes and edges, or nodes that are repeated, give the same hotspots. -/
theorem hotspots_ranked (g : Graph) {limit : Int} (hlimit : 0 < limit) :
    ∃ ranking, g.IsRanking ranking ∧ g.hotspots limit = ranking.take limit.toNat ∧
      (∀ listed ∈ g.hotspots limit, ∀ left ∈ ranking, left ∉ g.hotspots limit →
        Outranks listed left) ∧
      (ranking.map (·.degree)).sum = 2 * g.edges.length ∧
      ∀ g' : Graph, (∀ file, file ∈ g.nodes ↔ file ∈ g'.nodes) → g.edges.Perm g'.edges →
        g'.hotspots limit = g.hotspots limit := by
  have hranking := isRanking_mergeSort g
  have htake := hotspots_eq_take g hlimit
  refine ⟨g.degrees.mergeSort ranksBefore, hranking, htake, ?_, ?_, ?_⟩
  · intro listed hlisted left hleft hout
    rw [htake] at hlisted hout
    have hstrict := hranking.strict
    rw [← List.take_append_drop limit.toNat (g.degrees.mergeSort ranksBefore)] at hstrict hleft
    have hrest := (List.mem_append.1 hleft).resolve_left hout
    exact (List.pairwise_append.1 hstrict).2.2 listed hlisted left hrest
  · rw [((List.mergeSort_perm g.degrees ranksBefore).map _).sum_eq, degrees, List.map_map]
    exact sum_degree g
  · intro g' hnodes hedges
    have hsame := hranking.eq (isRanking_mergeSort g') (holds_congr hnodes hedges)
      (degree_congr hedges)
    rw [hotspots, hotspots, hsame]

/-- A file that imports itself and two that import each other, one of them listed twice. -/
def level : Graph :=
  ⟨["c.ts", "b.ts", "c.ts"], [⟨"b.ts", "b.ts", "."⟩, ⟨"c.ts", "a.ts", "./a"⟩, ⟨"a.ts", "c.ts", "./c"⟩]⟩

/-- All three are level, so their names decide. -/
theorem hotspots_ranked_level :
    (0 : Int) < 2 ∧ level.hotspots 2 = [⟨"a.ts", 2⟩, ⟨"b.ts", 2⟩] ∧
      ∃ ranking, level.IsRanking ranking ∧ level.hotspots 2 = ranking.take 2 ∧
        (∀ listed ∈ level.hotspots 2, ∀ left ∈ ranking, left ∉ level.hotspots 2 →
          Outranks listed left) ∧
        (ranking.map (·.degree)).sum = 2 * 3 ∧
        ∀ g' : Graph, (∀ file, file ∈ level.nodes ↔ file ∈ g'.nodes) → level.edges.Perm g'.edges →
          g'.hotspots 2 = level.hotspots 2 :=
  ⟨by decide, by cbv, hotspots_ranked level (by decide)⟩

end PatchReview.Graph
