import PatchReview.Proofs.Graph.Survey
import PatchReview.Proofs.Tree.Shape

/-!
# What one file can change in a survey

A file that is given new content stays where it is, so the tree keeps its shape: the same files are
found, and every import leads where it led (`edge?_congr`). What is read of the other files is what was
read (`read_write`). So two surveys, one taken before and one after, agree on everything but what that
file says of itself (`ofTree_write`): its definitions, its problem, and the edges that start there.

Where the new content is ill-formed nothing is known of the file but its problem, and the edges that
started there are gone. Those that lead there from other files stay; one that led from the file to itself
started there too, and goes (`losesItself`).
-/

namespace PatchReview.Survey

variable {t t' : Tree} {root names : Location} {content : ByteArray}

/-! ## Trees of one shape -/

/-- In trees of one shape an import leads to the same file. -/
theorem target?_congr (hshape : t.SameShape t') (importer : Path) (specifier : String) :
    Resolver.target? t' root importer specifier = Resolver.target? t root importer specifier := by
  rw [Resolver.target?, Resolver.target?, funext (Tree.opensFile_congr hshape)]

/-- So it has the same edge. -/
theorem edge?_congr (hshape : t.SameShape t') (f : SurveyedFile) (specifier : String) :
    edge? t' root f specifier = edge? t root f specifier := by
  rw [edge?, edge?, target?_congr hshape]

/-! ## Listings without one file -/

variable (path : String) (files : List SurveyedFile)

/-- The edges that start elsewhere are those of the other files. -/
theorem filter_edges :
    (files.flatMap fun f => f.readable.imports.filterMap fun i => edge? t root f i.source).filter
        (·.source ≠ path)
      = (files.filter (·.path ≠ path)).flatMap fun f =>
          f.readable.imports.filterMap fun i => edge? t root f i.source := by
  have hsource : ∀ f : SurveyedFile,
      ∀ e ∈ f.readable.imports.filterMap (fun i => edge? t root f i.source), e.source = f.path := by
    intro f e he
    obtain ⟨i, -, hedge⟩ := List.mem_filterMap.1 he
    obtain ⟨target, -, rfl⟩ := Option.map_eq_some_iff.1 hedge
    rfl
  induction files with
  | nil => rfl
  | cons f rest ih =>
      rw [List.flatMap_cons, List.filter_append, ih]
      by_cases hf : f.path = path
      · have hnone : (f.readable.imports.filterMap fun i => edge? t root f i.source).filter
            (·.source ≠ path) = [] := by
          refine List.filter_eq_nil_iff.2 fun e he => ?_
          simp [hsource f e he, hf]
        rw [hnone, List.filter_cons_of_neg (by simpa using hf), List.nil_append]
      · have hall : (f.readable.imports.filterMap fun i => edge? t root f i.source).filter
            (·.source ≠ path) = f.readable.imports.filterMap fun i => edge? t root f i.source := by
          refine List.filter_eq_self.2 fun e he => ?_
          simp [hsource f e he, hf]
        rw [hall, List.filter_cons_of_pos (by simpa using hf), List.flatMap_cons]

/-- So are the problems that other files have. -/
theorem filter_problems :
    (files.filterMap fun f => f.problem?.map (f.path, ·)).filter (·.1 ≠ path)
      = (files.filter (·.path ≠ path)).filterMap fun f => f.problem?.map (f.path, ·) := by
  rw [List.filter_filterMap, List.filterMap_filter]
  refine List.filterMap_congr fun f _ => ?_
  by_cases hf : f.path = path
  · cases f.problem? <;> simp [hf]
  · cases f.problem? <;> simp [hf]

/-! ## What a survey keeps -/

/-- Whether two surveys agree on all files but the one at a path. -/
structure AgreesBut (path : String) (s s' : Survey) : Prop where
  /-- The same files are found, in the same order. -/
  found : s'.files.map (·.path) = s.files.map (·.path)
  /-- They come first among the nodes. -/
  first : s.files.map (·.path) <+: s.graph.nodes ∧ s.files.map (·.path) <+: s'.graph.nodes
  /-- The other files are read as the same: what they define, import and export, and whether they are
      ill-formed. -/
  files : s'.files.filter (·.path ≠ path) = s.files.filter (·.path ≠ path)
  /-- The tables say the same of them. -/
  definitions : s'.definitions.filter (·.1 ≠ path) = s.definitions.filter (·.1 ≠ path)
  problems : s'.problems.filter (·.1 ≠ path) = s.problems.filter (·.1 ≠ path)
  /-- The edges that start elsewhere are the same, in the same order. -/
  edges : s'.graph.edges.filter (·.source ≠ path) = s.graph.edges.filter (·.source ≠ path)

/-- Whether all that a survey loses to another is what the file at a path said: what it defined and where
    it led. -/
structure LosesOnly (path : String) (s s' : Survey) : Prop where
  /-- The file is listed with its problem. -/
  problem : (path, "Failed to parse: syntax error") ∈ s'.problems
  /-- It defines nothing any more. -/
  definitions : s'.definitions = s.definitions.map fun entry =>
    if entry.1 = path then (path, []) else entry
  /-- The edges that started there are gone, and no others. -/
  edges : s'.graph.edges = s.graph.edges.filter (·.source ≠ path)
  /-- The edges that lead there from other files stay. -/
  kept : s'.graph.edges.filter (·.target = path)
    = s.graph.edges.filter fun e => e.target = path ∧ e.source ≠ path

/-! ## New content for one file -/

/-- Each file is read as before, but for the one with the new content. -/
theorem read_write {old : ByteArray} (hfile : t.at? (root ++ names) = some (.file old))
    (others : Location) :
    SurveyedFile.read (t.write (root ++ names) content) root others
      = if others = names then .ofBytes names content else .read t root others := by
  rw [Tree.write_eq_refill content hfile]
  by_cases hsame : others = names
  · rw [if_pos hsame, hsame, SurveyedFile.read, Tree.at?_refill_self hfile]
  · have hne : root ++ others ≠ root ++ names := fun heq => hsame (List.append_cancel_left heq)
    rw [if_neg hsame, SurveyedFile.read, SurveyedFile.read, Tree.at?_refill_of_ne hne]

section

variable {o : SurveyOptions} {changed changed' : List String} {s s' : Survey}
variable (hfound : names ∈ t.sourceFiles root (Script.Dialect.suffixes.map (·.1)) o.leftOut)
variable (before : ofTree o t root changed = .ok s)
variable (after : ofTree o (t.write (root ++ names) content) root changed' = .ok s')

include hfound before after

/-- **Only the file with the new content is another.** -/
theorem files_write : s'.files = s.files.map fun f =>
    if f.path = "/".intercalate names then .ofBytes names content else f := by
  obtain ⟨old, hentry⟩ := Tree.entry_of_mem_sourceFiles hfound
  have hfile := Tree.at?_of_mem hentry
  obtain ⟨hroot, hfiles, -⟩ := ofTree_eq_ok before
  obtain ⟨-, hfiles', -⟩ := ofTree_eq_ok after
  have hsources : (t.write (root ++ names) content).sourceFiles root
      (Script.Dialect.suffixes.map (·.1)) o.leftOut
        = t.sourceFiles root (Script.Dialect.suffixes.map (·.1)) o.leftOut := by
    rw [Tree.write_eq_refill content hfile, Tree.sourceFiles_refill content hfile]
  rw [hfiles', hfiles, hsources, List.map_map]
  refine List.map_congr_left fun others hothers => ?_
  -- different names have different paths, so the test on paths tells the files apart
  have hpath : (SurveyedFile.read t root others).path = "/".intercalate names ↔ others = names := by
    rw [SurveyedFile.path, names_read]
    refine ⟨fun heq => ?_, fun heq => by rw [heq]⟩
    exact Path.intercalate_injective (Tree.ne_nil_of_mem_sourceFiles hothers)
      (Tree.ne_nil_of_mem_sourceFiles hfound) (Tree.isSingle_of_mem_sourceFiles hothers).2
      (Tree.isSingle_of_mem_sourceFiles hfound).2 heq
  rw [Function.comp_apply, read_write hfile]
  simp only [hpath]

theorem agreesBut_write : AgreesBut ("/".intercalate names) s s' := by
  have hfiles := files_write hfound before after
  obtain ⟨old, hentry⟩ := Tree.entry_of_mem_sourceFiles hfound
  have hshape : t.SameShape (t.write (root ++ names) content) := by
    rw [Tree.write_eq_refill content (Tree.at?_of_mem hentry)]
    exact Tree.sameShape_refill content (Tree.at?_of_mem hentry)
  have hpath : ∀ f : SurveyedFile, (if f.path = "/".intercalate names then
      SurveyedFile.ofBytes names content else f).path = f.path := by
    intro f
    split
    · rename_i hf
      exact hf.symm
    · rfl
  have hsame : s'.files.map (·.path) = s.files.map (·.path) := by
    rw [hfiles, List.map_map]
    exact List.map_congr_left fun f _ => hpath f
  have hothers : s'.files.filter (·.path ≠ "/".intercalate names)
      = s.files.filter (·.path ≠ "/".intercalate names) := by
    rw [hfiles, List.filter_map]
    simp only [Function.comp_def, hpath]
    rw [List.map_congr_left (g := id), List.map_id]
    intro f hf
    have hne : ¬f.path = "/".intercalate names := by simpa using (List.mem_filter.1 hf).2
    rw [if_neg hne, id]
  refine ⟨hsame, ⟨?_, ?_⟩, hothers, ?_, ?_, ?_⟩
  · rw [nodes_eq before]
    exact List.prefix_append _ _
  · rw [nodes_eq after, hsame]
    exact List.prefix_append _ _
  · have htable : ∀ s : Survey, s.definitions.filter (·.1 ≠ "/".intercalate names)
        = (s.files.filter (·.path ≠ "/".intercalate names)).map
            fun f => (f.path, f.readable.definitions) := fun s => List.filter_map
    rw [htable, htable, hothers]
  · rw [problems, problems, filter_problems, filter_problems, hothers]
  · rw [edges_eq after, edges_eq before]
    simp only [edge?_congr hshape, filter_edges, hothers]

/-- A file with ill-formed content says nothing, and nothing else is lost. -/
theorem losesOnly_write (hbroken : (SurveyedFile.ofBytes names content).outline = none) :
    LosesOnly ("/".intercalate names) s s' := by
  have hfiles := files_write hfound before after
  have hproblem : ("/".intercalate names, "Failed to parse: syntax error") ∈ s'.problems := by
    have hin : SurveyedFile.read t root names ∈ s.files := by
      rw [(ofTree_eq_ok before).2.1]
      exact List.mem_map_of_mem hfound
    have hpath : (SurveyedFile.read t root names).path = "/".intercalate names := by
      rw [SurveyedFile.path, names_read]
    have hnew : SurveyedFile.ofBytes names content ∈ s'.files := by
      rw [hfiles]
      exact List.mem_map.2 ⟨_, hin, if_pos hpath⟩
    refine List.mem_filterMap.2 ⟨_, hnew, ?_⟩
    rw [SurveyedFile.problem?, hbroken]
    rfl
  -- a file with a problem has no import, so no edge starts there
  have hnone : ∀ e ∈ s'.graph.edges, e.source ≠ "/".intercalate names := by
    intro e he hsource
    obtain ⟨f, hf, hpath, himports, -⟩ := import_of_mem_edges after he
    have hlisted : f.path ∈ s'.problems.map (·.1) := by
      rw [hpath, hsource]
      exact List.mem_map_of_mem hproblem
    rw [readable_of_mem_problems after hf hlisted] at himports
    exact himports rfl
  have hedges : s'.graph.edges = s.graph.edges.filter (·.source ≠ "/".intercalate names) := by
    rw [← (agreesBut_write hfound before after).edges]
    exact (List.filter_eq_self.2 fun e he => by simpa using hnone e he).symm
  refine ⟨hproblem, ?_, hedges, ?_⟩
  · rw [definitions, definitions, hfiles, List.map_map, List.map_map]
    refine List.map_congr_left fun f _ => ?_
    simp only [Function.comp_apply]
    by_cases hf : f.path = "/".intercalate names
    · rw [if_pos hf, if_pos hf, SurveyedFile.readable, hbroken]
      rfl
    · rw [if_neg hf, if_neg hf]
  · rw [hedges, List.filter_filter]
    exact List.filter_congr fun e _ => by simp

/-- **A survey is local in each file.** Whatever is written to a source file, the surveys before and
    after agree on all but what the file says of itself, and if it is ill-formed then, that is all that is
    lost: the edges that lead to it from other files stay. -/
theorem ofTree_write : AgreesBut ("/".intercalate names) s s' ∧
    ((SurveyedFile.ofBytes names content).outline = none →
      LosesOnly ("/".intercalate names) s s') :=
  ⟨agreesBut_write hfound before after, losesOnly_write hfound before after⟩

end

/-! ## A file that imports itself -/

/-- A file that imports itself, and another that imports it. -/
def twoImporters : Tree :=
  (Tree.empty.write ["a.ts"] "import './a'".toUTF8).write ["b.ts"] "import './a'".toUTF8

theorem ofTree_twoImporters : ofTree ⟨1, 1, 1, []⟩ twoImporters [] []
    = .ok ⟨[⟨["a.ts"], some ⟨[], [⟨"./a", [], false⟩], []⟩⟩,
          ⟨["b.ts"], some ⟨[], [⟨"./a", [], false⟩], []⟩⟩],
        ⟨["a.ts", "b.ts"], [⟨"a.ts", "a.ts", "./a"⟩, ⟨"b.ts", "a.ts", "./a"⟩]⟩, [], [⟨"a.ts", 3⟩]⟩ := by
  cbv

/-- The survey when the first of them is ill-formed. -/
theorem ofTree_oneImporter : ofTree ⟨1, 1, 1, []⟩ (twoImporters.write ["a.ts"] "(".toUTF8) [] []
    = .ok ⟨[⟨["a.ts"], none⟩, ⟨["b.ts"], some ⟨[], [⟨"./a", [], false⟩], []⟩⟩],
        ⟨["a.ts", "b.ts"], [⟨"b.ts", "a.ts", "./a"⟩]⟩, [], [⟨"a.ts", 1⟩]⟩ := by
  cbv

theorem outline_unclosed : (SurveyedFile.ofBytes ["a.ts"] "(".toUTF8).outline = none := by
  cbv

theorem ofTree_write_unclosed :
    ["a.ts"] ∈ twoImporters.sourceFiles [] (Script.Dialect.suffixes.map (·.1)) [] ∧
      (SurveyedFile.ofBytes ["a.ts"] "(".toUTF8).outline = none ∧
      ∃ s s', ofTree ⟨1, 1, 1, []⟩ twoImporters [] [] = .ok s ∧
        ofTree ⟨1, 1, 1, []⟩ (twoImporters.write ["a.ts"] "(".toUTF8) [] [] = .ok s' ∧
        AgreesBut "a.ts" s s' ∧ LosesOnly "a.ts" s s' := by
  have hfound : ["a.ts"] ∈ twoImporters.sourceFiles [] (Script.Dialect.suffixes.map (·.1)) [] := by
    obtain ⟨-, hfiles, -⟩ := ofTree_eq_ok ofTree_twoImporters
    obtain ⟨names, rest, hsources, hread, -⟩ := List.map_eq_cons_iff.1 hfiles.symm
    have hfirst : names = ["a.ts"] := by rw [← names_read names, hread]
    rw [hfirst] at hsources
    exact hsources ▸ List.mem_cons_self
  have hname : "/".intercalate ["a.ts"] = "a.ts" := by decide +kernel
  have hlocal := ofTree_write (o := ⟨1, 1, 1, []⟩) hfound ofTree_twoImporters ofTree_oneImporter
  rw [hname] at hlocal
  exact ⟨hfound, outline_unclosed, _, _, ofTree_twoImporters, ofTree_oneImporter, hlocal.1,
    hlocal.2 outline_unclosed⟩

/-- The edge from the file to itself leads to the file, and it is not kept. -/
theorem losesItself : ∃ s s', ofTree ⟨1, 1, 1, []⟩ twoImporters [] [] = .ok s ∧
    ofTree ⟨1, 1, 1, []⟩ (twoImporters.write ["a.ts"] "(".toUTF8) [] [] = .ok s' ∧
    (SurveyedFile.ofBytes ["a.ts"] "(".toUTF8).outline = none ∧
    ⟨"a.ts", "a.ts", "./a"⟩ ∈ s.graph.edges ∧ ⟨"a.ts", "a.ts", "./a"⟩ ∉ s'.graph.edges :=
  ⟨_, _, ofTree_twoImporters, ofTree_oneImporter, outline_unclosed, by decide, by decide⟩

end PatchReview.Survey
