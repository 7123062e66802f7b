import Mathlib
import PatchReview.Graph.Survey
import PatchReview.Proofs.Distinct
import PatchReview.Proofs.Except
import PatchReview.Proofs.Graph.Resolver
import PatchReview.Proofs.Outline
import PatchReview.Proofs.Tree.Discovery

/-!
# What a survey says of a tree

A survey that is taken describes its tree (`describes_ofTree`): the files that were found, what each
defines, imports and exports, the edges that its imports lead to, and the nodes that these join, the
files first and then what else is imported, by first use.

The edges are found with a memory that is passed along; it only holds what stands in the tree, so every
edge is what its import leads to by itself (`edgesFrom_eq`). All nodes are joined names, the files'
because the tree has only such names and the targets' because a text names no others, hence each is its
own normal spelling.
-/

namespace PatchReview

namespace Survey

variable {t : Tree} {root : Location}

/-! ## Edges -/

/-- The edge of an import, if it leads to a file. -/
def edge? (t : Tree) (root : Location) (f : SurveyedFile) (specifier : String) : Option Edge :=
  (Resolver.target? t root (.ofLocation (root ++ f.names)) specifier).map fun target =>
    ⟨f.path, "/".intercalate (target.drop root.length), specifier⟩

/-- **Every edge is what its import leads to**, whatever was looked up before, and leads to a file below
    the root. -/
theorem edgesFrom_eq {probes : Probes} (hprobes : Resolver.Faithful t probes)
    {found : List (SurveyedFile × String)} {edges : List Edge}
    (h : edgesFrom t root probes found = .ok edges) :
    edges = found.filterMap (fun i => edge? t root i.1 i.2) ∧
      ∀ i ∈ found, ∀ target ∈ Resolver.target? t root (.ofLocation (root ++ i.1.names)) i.2,
        root <+: target := by
  induction found generalizing probes edges with
  | nil =>
      obtain rfl : [] = edges := Except.ok.inj h
      exact ⟨rfl, fun i hi => absurd hi List.not_mem_nil⟩
  | cons i rest ih =>
      obtain ⟨f, specifier⟩ := i
      obtain ⟨htarget, hnext⟩ :=
        Resolver.resolve_eq hprobes root (.ofLocation (root ++ f.names)) specifier
      cases hresolve : Resolver.resolve t root probes (.ofLocation (root ++ f.names)) specifier with
      | mk found? probes' =>
      rw [hresolve] at htarget hnext
      simp only [edgesFrom, hresolve] at h
      cases found? with
      | none =>
          obtain ⟨hedges, hbelow⟩ := ih hnext h
          refine ⟨by rw [hedges, List.filterMap_cons_none (by rw [edge?, ← htarget]; rfl)], ?_⟩
          refine List.forall_mem_cons.2 ⟨fun target hin => ?_, hbelow⟩
          rw [← htarget] at hin
          exact nomatch hin
      | some target =>
          obtain ⟨names, hnames, h⟩ := bind_eq_ok_iff.1 h
          obtain ⟨more, hrest, h⟩ := bind_eq_ok_iff.1 h
          obtain ⟨hroot, hdrop⟩ := Resolver.relative_eq_ok_iff.1 hnames
          obtain ⟨hedges, hbelow⟩ := ih hnext hrest
          refine ⟨?_, List.forall_mem_cons.2 ⟨fun other hin => ?_, hbelow⟩⟩
          · rw [← Except.ok.inj h, hedges, hdrop,
              List.filterMap_cons_some (by rw [edge?, ← htarget]; rfl)]
          · rw [← htarget] at hin
            rw [← Option.some.inj hin]
            exact hroot

theorem filterMap_imports (files : List SurveyedFile) (edge? : SurveyedFile → String → Option Edge) :
    (imports files).filterMap (fun i => edge? i.1 i.2)
      = files.flatMap fun f => f.readable.imports.filterMap fun i => edge? f i.source := by
  simp only [imports, List.filterMap_flatMap, List.filterMap_map, Function.comp_def]

/-! ## Files -/

theorem names_read (names : Location) : (SurveyedFile.read t root names).names = names := by
  rw [SurveyedFile.read]
  split <;> rfl

/-- Every definition of bytes that were read names their file. -/
theorem file_of_mem_ofBytes {names : Location} {content : ByteArray} {d : Definition}
    (h : d ∈ (SurveyedFile.ofBytes names content).readable.definitions) :
    d.file = "/".intercalate names := by
  rw [SurveyedFile.readable] at h
  cases houtline : (SurveyedFile.ofBytes names content).outline with
  | none =>
      rw [houtline] at h
      exact absurd h List.not_mem_nil
  | some o =>
      rw [houtline] at h
      obtain ⟨dialect, -, hsource⟩ := Option.bind_eq_some_iff.1 houtline
      exact Outline.file_of_mem_ofSource hsource d h

/-- So does every definition of a file that was read. -/
theorem file_of_mem_read {names : Location} {d : Definition}
    (h : d ∈ (SurveyedFile.read t root names).readable.definitions) :
    d.file = (SurveyedFile.read t root names).path := by
  rw [SurveyedFile.path, names_read]
  rw [SurveyedFile.read] at h
  split at h
  · exact file_of_mem_ofBytes h
  · exact absurd h List.not_mem_nil

/-- A file with a problem has an empty outline. -/
theorem readable_of_problem? {f : SurveyedFile} {problem : String}
    (h : f.problem? = some problem) : f.readable = .empty := by
  rw [SurveyedFile.problem?] at h
  cases houtline : f.outline with
  | none => rw [SurveyedFile.readable, houtline]; rfl
  | some o => rw [houtline] at h; exact nomatch h

/-! ## Taking a survey -/

/-- What readers need is listed for each file once. -/
theorem keys_relevant {g : Graph} {table relevant : DefinitionTable} {budget : Int}
    {files : List String} (h : g.relevant table budget files = .ok relevant) :
    relevant.map (·.1) = files.eraseDups := by
  obtain ⟨u, -, h⟩ := bind_eq_ok_iff.1 h
  rw [← Except.ok.inj h, List.map_map]
  simp [Function.comp_def]

/-- What a survey that is taken is made of. -/
theorem ofTree_eq_ok {o : SurveyOptions} {changed : List String} {s : Survey}
    (h : ofTree o t root changed = .ok s) :
    t.isDirectory root = true ∧
      s.files = (t.sourceFiles root (Script.Dialect.suffixes.map (·.1)) o.leftOut).map (SurveyedFile.read t root) ∧
      edgesFrom t root [] (imports s.files) = .ok s.graph.edges ∧
      s.graph = graphOf s.files s.graph.edges ∧
      s.relevant.map (·.1) = (s.graph.nodes.filter (changed.contains ·)).eraseDups := by
  rw [ofTree] at h
  by_cases hroot : t.isDirectory root = true
  · simp only [hroot, if_true] at h
    obtain ⟨edges, hedges, h⟩ := bind_eq_ok_iff.1 h
    obtain ⟨relevant, hrelevant, h⟩ := bind_eq_ok_iff.1 h
    rw [mapError_eq_ok_iff] at hedges hrelevant
    obtain rfl := Except.ok.inj h
    exact ⟨hroot, rfl, hedges, rfl, keys_relevant hrelevant⟩
  · simp only [hroot] at h
    exact nomatch h

/-! ## What a survey says -/

/-- Whether a survey says of a tree what is so. The tables of a survey are listed by its files. -/
structure Describes (s : Survey) (t : Tree) (root : Location) (leftOut changed : List String) :
    Prop where
  /-- The files are those that are found, in that order, each as it is read. -/
  files : s.files =
    (t.sourceFiles root (Script.Dialect.suffixes.map (·.1)) leftOut).map (SurveyedFile.read t root)
  /-- Nothing is a node twice. -/
  distinct : s.graph.nodes.Nodup
  /-- The files come first, then what else is imported, by first use. -/
  nodes : ∃ others, s.graph.nodes = s.files.map (·.path) ++ others ∧
    (∀ path, path ∈ others ↔ path ∈ s.graph.edges.map (·.target) ∧ path ∉ s.files.map (·.path)) ∧
    others.Pairwise fun a b =>
      (s.graph.edges.map (·.target)).idxOf a < (s.graph.edges.map (·.target)).idxOf b
  /-- Every node is its own normal spelling. -/
  normal : ∀ path ∈ s.graph.nodes, Path.normalized path = path
  /-- Each import in its order has an edge if it leads to a file, and else none. -/
  edges : s.graph.edges =
    s.files.flatMap fun f => f.readable.imports.filterMap fun i => edge? t root f i.source
  /-- An edge joins nodes. -/
  ends : ∀ e ∈ s.graph.edges, e.source ∈ s.graph.nodes ∧ e.target ∈ s.graph.nodes
  /-- An edge starts at a file without a problem. -/
  sources : ∀ e ∈ s.graph.edges, e.source ∉ s.problems.map (·.1)
  /-- The definitions are listed by the files. -/
  keys : s.definitions.map (·.1) = s.files.map (·.path)
  /-- A definition names the file that it is listed by. -/
  own : ∀ entry ∈ s.definitions, ∀ d ∈ entry.2, d.file = entry.1
  /-- Of a file with a problem nothing is known. -/
  unknown : ∀ f ∈ s.files, f.path ∈ s.problems.map (·.1) → f.readable = .empty
  /-- What readers need is listed by the nodes that are changed, in the order of nodes. -/
  relevant : s.relevant.map (·.1) = s.graph.nodes.filter fun path => decide (path ∈ changed)

/-- Whether a file of a survey stands where it was found: below the root, under single names. -/
structure IsFound (t : Tree) (root : Location) (f : SurveyedFile) : Prop where
  read   : f = SurveyedFile.read t root f.names
  some   : f.names ≠ []
  single : f.names.all Path.isSingle = true
  above  : root.all Path.isSingle = true

theorem isFound_read {suffixes leftOut : List String} {names : Location}
    (h : names ∈ t.sourceFiles root suffixes leftOut) :
    IsFound t root (SurveyedFile.read t root names) := by
  obtain ⟨habove, hsingle⟩ := Tree.isSingle_of_mem_sourceFiles h
  refine ⟨by rw [names_read], ?_, ?_, habove⟩
  · rw [names_read]
    exact Tree.ne_nil_of_mem_sourceFiles h
  · rw [names_read]
    exact hsingle

/-- Files that were found are the same if their paths are. -/
theorem IsFound.eq_of_path_eq {f g : SurveyedFile} (hf : IsFound t root f) (hg : IsFound t root g)
    (h : f.path = g.path) : f = g := by
  have hnames := Path.intercalate_injective hf.some hg.some hf.single hg.single h
  rw [hf.read, hnames]
  exact hg.read.symm

/-- The path of a file that was found is its own normal spelling. -/
theorem IsFound.normalized_path {f : SurveyedFile} (hf : IsFound t root f) :
    Path.normalized f.path = f.path := Path.normalized_intercalate hf.some hf.single

/-- So is the target of an edge that starts there and ends below the root. -/
theorem IsFound.normalized_target {f : SurveyedFile} (hf : IsFound t root f)
    (hroot : t.isDirectory root = true) {specifier : String} {e : Edge}
    (h : edge? t root f specifier = Option.some e)
    (hbelow : ∀ target ∈ Resolver.target? t root (.ofLocation (root ++ f.names)) specifier,
      root <+: target) : Path.normalized e.target = e.target := by
  obtain ⟨target, htarget, rfl⟩ := Option.map_eq_some_iff.1 h
  obtain ⟨names, rfl⟩ := hbelow target htarget
  -- the root is a directory and no target is one, so names are left below it
  have himporter : (Path.ofLocation (root ++ f.names)).names.all Path.isSingle = true := by
    show (root ++ f.names).all Path.isSingle = true
    rw [List.all_append, hf.above, hf.single]
    rfl
  obtain ⟨hsingle, hdirectory⟩ := Resolver.isSingle_of_target? himporter htarget
  rw [List.all_append, Bool.and_eq_true] at hsingle
  have hnames : names ≠ [] := by
    rintro rfl
    rw [List.append_nil, hroot] at hdirectory
    exact nomatch hdirectory
  rw [List.drop_left]
  exact Path.normalized_intercalate hnames hsingle.2

/-- The nodes of a graph are its files, then the further targets by first use. -/
theorem nodes_graphOf {files : List SurveyedFile} (edges : List Edge)
    (hpaths : (files.map (·.path)).Nodup) :
    (graphOf files edges).nodes
      = files.map (·.path) ++
          ((edges.map (·.target)).filter fun path => !(files.map (·.path)).contains path).eraseDups := by
  rw [graphOf, List.eraseDups_append, eraseDups_eq_self hpaths]
  rfl

theorem mem_problems_iff {s : Survey} {path : String} :
    path ∈ s.problems.map (·.1) ↔ ∃ f ∈ s.files, f.path = path ∧ ∃ problem, f.problem? = some problem := by
  simp only [problems, List.mem_map, List.mem_filterMap, Option.map_eq_some_iff]
  constructor
  · rintro ⟨entry, ⟨f, hf, problem, hproblem, rfl⟩, rfl⟩
    exact ⟨f, hf, rfl, problem, hproblem⟩
  · rintro ⟨f, hf, rfl, problem, hproblem⟩
    exact ⟨(f.path, problem), ⟨f, hf, problem, hproblem, rfl⟩, rfl⟩

/-! ## What holds of a survey that is taken -/

section

variable {o : SurveyOptions} {changed : List String} {s : Survey}
variable (taken : ofTree o t root changed = .ok s)

include taken

/-- Its files stand where they were found. -/
theorem isFound_of_mem_files : ∀ f ∈ s.files, IsFound t root f := by
  obtain ⟨-, hfiles, -⟩ := ofTree_eq_ok taken
  intro f hf
  rw [hfiles] at hf
  obtain ⟨names, hnames, rfl⟩ := List.mem_map.1 hf
  exact isFound_read hnames

/-- No two of its files have the same path. -/
theorem nodup_paths : (s.files.map (·.path)).Nodup := by
  have hfound := isFound_of_mem_files taken
  have hfiles : s.files.Nodup := by
    rw [(ofTree_eq_ok taken).2.1]
    refine Tree.nodup_sourceFiles.map fun a b hab => ?_
    rw [← names_read a, hab, names_read]
  exact hfiles.map_on fun f hf g hg hpath => (hfound f hf).eq_of_path_eq (hfound g hg) hpath

/-- Its nodes are its files, then the further targets by first use. -/
theorem nodes_eq : s.graph.nodes = s.files.map (·.path) ++
    ((s.graph.edges.map (·.target)).filter fun path =>
      !(s.files.map (·.path)).contains path).eraseDups := by
  obtain ⟨-, -, -, hgraph, -⟩ := ofTree_eq_ok taken
  rw [← nodes_graphOf s.graph.edges (nodup_paths taken), ← hgraph]

theorem edges_eq : s.graph.edges =
    s.files.flatMap fun f => f.readable.imports.filterMap fun i => edge? t root f i.source := by
  obtain ⟨-, -, hfrom, -⟩ := ofTree_eq_ok taken
  rw [(edgesFrom_eq Resolver.faithful_nil hfrom).1, filterMap_imports]

/-- Every edge is that of an import, and leads to a path that is its own normal spelling. -/
theorem import_of_mem_edges {e : Edge} (he : e ∈ s.graph.edges) :
    ∃ f ∈ s.files, f.path = e.source ∧ f.readable.imports ≠ [] ∧
      Path.normalized e.target = e.target := by
  obtain ⟨hroot, -, hfrom, -⟩ := ofTree_eq_ok taken
  rw [edges_eq taken] at he
  obtain ⟨f, hf, hin⟩ := List.mem_flatMap.1 he
  obtain ⟨i, hi, hedge⟩ := List.mem_filterMap.1 hin
  have hbelow := (edgesFrom_eq Resolver.faithful_nil hfrom).2 (f, i.source)
    (List.mem_flatMap.2 ⟨f, hf, List.mem_map_of_mem hi⟩)
  refine ⟨f, hf, ?_, List.ne_nil_of_mem hi,
    (isFound_of_mem_files taken f hf).normalized_target hroot hedge hbelow⟩
  obtain ⟨target, -, rfl⟩ := Option.map_eq_some_iff.1 hedge
  rfl

/-- Of a file with a problem nothing is known. -/
theorem readable_of_mem_problems {f : SurveyedFile} (hf : f ∈ s.files)
    (h : f.path ∈ s.problems.map (·.1)) : f.readable = .empty := by
  have hfound := isFound_of_mem_files taken
  obtain ⟨g, hg, hpath, problem, hproblem⟩ := mem_problems_iff.1 h
  rw [← (hfound g hg).eq_of_path_eq (hfound f hf) hpath]
  exact readable_of_problem? hproblem

/-- The targets of edges are nodes. -/
theorem target_mem_nodes {e : Edge} (he : e ∈ s.graph.edges) : e.target ∈ s.graph.nodes := by
  obtain ⟨-, -, -, hgraph, -⟩ := ofTree_eq_ok taken
  rw [hgraph]
  exact List.mem_eraseDups.2 (List.mem_append_right _ (List.mem_map_of_mem he))

/-- The files are nodes. -/
theorem path_mem_nodes {f : SurveyedFile} (hf : f ∈ s.files) : f.path ∈ s.graph.nodes := by
  rw [nodes_eq taken]
  exact List.mem_append_left _ (List.mem_map_of_mem hf)

/-- Nothing is a node twice. -/
theorem nodup_nodes : s.graph.nodes.Nodup := by
  obtain ⟨-, -, -, hgraph, -⟩ := ofTree_eq_ok taken
  rw [hgraph]
  exact nodup_eraseDups _

/-- Every node is its own normal spelling. -/
theorem normalized_of_mem_nodes {path : String} (h : path ∈ s.graph.nodes) :
    Path.normalized path = path := by
  rw [nodes_eq taken] at h
  rcases List.mem_append.1 h with hin | hin
  · obtain ⟨f, hf, rfl⟩ := List.mem_map.1 hin
    exact (isFound_of_mem_files taken f hf).normalized_path
  · have htarget := List.mem_of_mem_filter (List.mem_eraseDups.1 hin)
    obtain ⟨e, he, rfl⟩ := List.mem_map.1 htarget
    obtain ⟨f, -, -, -, hnormal⟩ := import_of_mem_edges taken he
    exact hnormal

/-- What readers need is listed by the nodes that are changed, in the order of nodes. -/
theorem keys_relevant_eq : s.relevant.map (·.1) = s.graph.nodes.filter (changed.contains ·) := by
  obtain ⟨-, -, -, -, hrelevant⟩ := ofTree_eq_ok taken
  rw [hrelevant, eraseDups_eq_self ((nodup_nodes taken).filter _)]

/-- Its hotspots are those of its graph. -/
theorem hotspots_eq : s.hotspots = s.graph.hotspots o.hotspotLimit := by
  have hroot := (ofTree_eq_ok taken).1
  rw [ofTree] at taken
  simp only [hroot, if_true] at taken
  obtain ⟨edges, -, taken⟩ := bind_eq_ok_iff.1 taken
  obtain ⟨relevant, -, taken⟩ := bind_eq_ok_iff.1 taken
  rw [← Except.ok.inj taken]

/-- **A survey that is taken describes its tree.** -/
theorem describes_ofTree : s.Describes t root o.leftOut changed where
  files := (ofTree_eq_ok taken).2.1
  distinct := nodup_nodes taken
  nodes := by
    refine ⟨_, nodes_eq taken, ?_, pairwise_idxOf_eraseDups _ _⟩
    intro path
    simp
  normal := fun path hpath => normalized_of_mem_nodes taken hpath
  edges := edges_eq taken
  ends := by
    intro e he
    obtain ⟨f, hf, hsource, -⟩ := import_of_mem_edges taken he
    exact ⟨hsource ▸ path_mem_nodes taken hf, target_mem_nodes taken he⟩
  sources := by
    -- an edge starts at a file with an import, which a file with a problem has not
    intro e he hproblem
    obtain ⟨f, hf, hsource, himports, -⟩ := import_of_mem_edges taken he
    rw [← hsource] at hproblem
    rw [readable_of_mem_problems taken hf hproblem] at himports
    exact himports rfl
  keys := by simp [definitions, Function.comp_def]
  own := by
    intro entry hentry d hd
    obtain ⟨f, hf, rfl⟩ := List.mem_map.1 hentry
    have hread := (isFound_of_mem_files taken f hf).read
    rw [hread] at hd ⊢
    exact file_of_mem_read hd
  unknown := fun f hf hproblem => readable_of_mem_problems taken hf hproblem
  relevant := by
    rw [keys_relevant_eq taken]
    refine List.filter_congr fun path _ => ?_
    simp

end

/-- One file that imports another, which is no source file. -/
def pair : Tree := (Tree.empty.write ["a.ts"] "import './b'".toUTF8).write ["b"] ⟨#[]⟩

theorem ofTree_pair : ofTree ⟨1, 1, 1, []⟩ pair [] ["b", "b"]
    = .ok ⟨[⟨["a.ts"], some ⟨[], [⟨"./b", [], false⟩], []⟩⟩],
        ⟨["a.ts", "b"], [⟨"a.ts", "b", "./b"⟩]⟩, [("b", [])], [⟨"a.ts", 1⟩]⟩ := by cbv

theorem describes_ofTree_pair : ∃ s, ofTree ⟨1, 1, 1, []⟩ pair [] ["b", "b"] = .ok s ∧
    s.graph.edges = [⟨"a.ts", "b", "./b"⟩] ∧ s.Describes pair [] [] ["b", "b"] :=
  ⟨_, ofTree_pair, rfl, describes_ofTree ofTree_pair⟩

end Survey

end PatchReview
