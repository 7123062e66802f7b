import PatchReview.Proofs.Graph.Survey

/-!
# Imports that lead out of the root

An import that leads out of the root by its text has no candidates. The candidates of one that stays are
made from where it leads, by a suffix or by an index file, and all of them lie below the root but for one
case: an import that names the root itself, by points alone or in full. With a suffix the root becomes
the name of something beside it (`resolve_outside_iff`), and a survey that meets such an import ends with
a fault instead of passing it over (`leadsOut_iff`). Every other tree is surveyed, if its root is a directory
(`exists_ofTree_iff`).

What is said of resolvers holds with any memory: a candidate counts as a file if the resolver takes it for
one (`seen`), as it was when it was first looked for.
-/

namespace PatchReview

namespace Resolver

variable {t : Tree} {root : Location} {probes : Probes}

/-! ## Candidates below the root and beside it -/

theorem prefix_of_base? {importer : Path} {specifier : String} {base : Location}
    (h : base? root importer specifier = some base) : root <+: base := by
  rw [base?] at h
  cases hl : (importer.parent.join (Path.ofText specifier)).location? with
  | none =>
      rw [hl] at h
      split at h <;> cases h
  | some l =>
      rw [hl] at h
      have hinside : (if root.isPrefixOf l then some l else none) = some base → root <+: base := by
        intro hsome
        obtain ⟨hroot, heq⟩ := Option.ite_none_right_eq_some.1 hsome
        exact Option.some.inj heq ▸ List.isPrefixOf_iff_prefix.1 hroot
      split at h
      · exact hinside h
      · exact hinside h
      · cases h

/-- A location with a suffix stands beside it, not below. -/
theorem not_prefix_withSuffix {l : Location} (hne : l ≠ []) {suffix : String} (h : suffix ≠ "") :
    ¬l <+: withSuffix l suffix := by
  intro hbelow
  have hlength : l.length = (withSuffix l suffix).length := by
    have hpos := List.length_pos_iff.2 hne
    rw [withSuffix, List.length_append, List.length_dropLast, List.length_singleton]
    omega
  have hsame := hbelow.eq_of_length hlength
  rw [withSuffix, List.getLast?_eq_some_getLast hne, Option.getD_some] at hsame
  -- both end in the same name, so nothing was added to it
  have hlast := congrArg (·.getLast?) hsame
  simp only [List.getLast?_concat, List.getLast?_eq_some_getLast hne, Option.some.injEq] at hlast
  have hchars := congrArg String.toList hlast
  rw [String.toList_append, List.self_eq_append_right] at hchars
  exact h (String.toList_eq_nil_iff.1 hchars)

/-- A candidate lies below the root, unless it is the root with a suffix. -/
theorem prefix_of_mem_candidates {base l : Location} (hbase : root <+: base)
    (h : l ∈ candidates base) :
    root <+: l ∨ base = root ∧ root ≠ [] ∧ ∃ s ∈ suffixes, s ≠ "" ∧ l = withSuffix root s := by
  obtain ⟨more, rfl⟩ := hbase
  rcases List.mem_append.1 h with hmem | hmem
  · obtain ⟨s, hs, rfl⟩ := List.mem_map.1 hmem
    by_cases hmore : more = []
    · subst hmore
      rw [List.append_nil]
      by_cases hroot : root = []
      · exact .inl (hroot ▸ List.nil_prefix)
      · by_cases hempty : s = ""
        · rw [hempty, withSuffix_empty hroot]
          exact .inl (List.prefix_refl root)
        · exact .inr ⟨rfl, hroot, s, hs, hempty, rfl⟩
    · -- the suffix goes to a name further down
      rw [withSuffix, List.dropLast_append_of_ne_nil hmore, List.append_assoc]
      exact .inl (List.prefix_append root _)
  · obtain ⟨name, -, rfl⟩ := List.mem_map.1 hmem
    rw [List.append_assoc]
    exact .inl (List.prefix_append root _)

/-- Whether an import names the root itself, which is not taken for a file, while something beside it is
    whose name is the root's with a suffix. -/
def LeadsBeside (t : Tree) (probes : Probes) (root : Location) (importer : Path)
    (specifier : String) : Prop :=
  base? root importer specifier = some root ∧ root ≠ [] ∧ seen t probes root = false ∧
    ∃ s ∈ suffixes, s ≠ "" ∧ seen t probes (withSuffix root s) = true

/-- **An import leads out of the root exactly if it leads beside it.** -/
theorem resolve_outside_iff (importer : Path) (specifier : String) :
    (∃ target, (resolve t root probes importer specifier).1 = some target ∧ ¬root <+: target) ↔
      LeadsBeside t probes root importer specifier := by
  rw [resolve_fst]
  constructor
  · rintro ⟨target, htarget, hout⟩
    obtain ⟨base, hbase, hfind⟩ := Option.bind_eq_some_iff.1 htarget
    obtain hin | ⟨rfl, hne, s, hs, hempty, rfl⟩ :=
      prefix_of_mem_candidates (prefix_of_base? hbase) (List.mem_of_find?_eq_some hfind)
    · exact absurd hin hout
    · -- the root itself is asked for first, and was passed over
      have hroot : seen t probes base = false := by
        cases hfile : seen t probes base with
        | false => rfl
        | true =>
            rw [candidates_of_ne_nil hne, List.find?_cons, hfile] at hfind
            exact absurd (Option.some.inj hfind ▸ List.prefix_refl base) hout
      exact ⟨hbase, hne, hroot, s, hs, hempty, List.find?_some hfind⟩
  · rintro ⟨hbase, hne, hroot, s, hs, hempty, hfile⟩
    have htail : ∀ s ∈ suffixes, s ≠ "" → s ∈ suffixes.tail := by decide
    have hproper : ∀ s ∈ suffixes.tail, s ≠ "" := by decide
    have hfound : ((suffixes.tail.map (withSuffix root)).find? (seen t probes)).isSome = true :=
      List.find?_isSome.2 ⟨_, List.mem_map_of_mem (htail s hs hempty), hfile⟩
    obtain ⟨target, htarget⟩ := Option.isSome_iff_exists.1 hfound
    obtain ⟨s', hs', rfl⟩ := List.mem_map.1 (List.mem_of_find?_eq_some htarget)
    refine ⟨withSuffix root s', ?_, not_prefix_withSuffix hne (hproper s' hs')⟩
    rw [hbase, Option.bind_some, candidates_of_ne_nil hne, List.find?_cons, hroot, List.find?_append, htarget]
    rfl

end Resolver

namespace Survey

variable {t : Tree} {root : Location}

/-- A location is seen from the root unless it lies elsewhere. -/
theorem relative_isError_iff {l : Location} :
    (∃ e, Resolver.relative root l = .error e) ↔ ¬root <+: l := by
  rw [Resolver.relative, ← List.isPrefixOf_iff_prefix]
  by_cases hroot : root.isPrefixOf l = true
  · simp [hroot]
  · simp [hroot]

/-- The edges cannot be listed exactly if one of the imports leads beside the root. -/
theorem edgesFrom_isError_iff {probes : Probes} (hprobes : Resolver.Faithful t probes)
    {found : List (SurveyedFile × String)} :
    (∃ e, edgesFrom t root probes found = .error e) ↔
      ∃ i ∈ found, Resolver.LeadsBeside t [] root (.ofLocation (root ++ i.1.names)) i.2 := by
  induction found generalizing probes with
  | nil => simp [edgesFrom]
  | cons i rest ih =>
      obtain ⟨f, specifier⟩ := i
      obtain ⟨htarget, hnext⟩ :=
        Resolver.resolve_eq hprobes root (.ofLocation (root ++ f.names)) specifier
      have hbeside : _ ↔
          Resolver.LeadsBeside t [] root (.ofLocation (root ++ f.names)) specifier :=
        Resolver.resolve_outside_iff _ _
      rw [(Resolver.resolve_eq Resolver.faithful_nil root _ specifier).1, ← htarget] at hbeside
      cases hresolve : Resolver.resolve t root probes (.ofLocation (root ++ f.names)) specifier with
      | mk found? probes' =>
      rw [hresolve] at hnext hbeside
      rw [List.exists_mem_cons_iff, ← hbeside, ← ih hnext]
      simp only [edgesFrom, hresolve]
      cases found? with
      | none => simp
      | some target =>
          have hrelative : _ ↔ ¬root <+: target := relative_isError_iff
          simp only [bind_eq_error_iff, Option.some.injEq, exists_eq_left', ← hrelative]
          constructor
          · rintro ⟨e, hout | ⟨names, -, hrest | ⟨edges, -, hok⟩⟩⟩
            · exact .inl ⟨e, hout⟩
            · exact .inr ⟨e, hrest⟩
            · cases hok
          · rintro (⟨e, hout⟩ | ⟨e, hrest⟩)
            · exact ⟨e, .inl hout⟩
            · -- the first fault of the two is the one that is met
              cases hnames : Resolver.relative root target with
              | error e' => exact ⟨e', .inl rfl⟩
              | ok names => exact ⟨e, .inr ⟨names, rfl, .inl hrest⟩⟩

/-- A survey ends with a location outside the root exactly if its edges do. -/
theorem ofTree_eq_outside_iff {o : SurveyOptions} {changed : List String} {e : Resolver.Outside} :
    ofTree o t root changed = .error (.outside e) ↔
      t.isDirectory root = true ∧
        edgesFrom t root [] (imports ((t.sourceFiles root (Script.Dialect.suffixes.map (·.1))
          o.leftOut).map (SurveyedFile.read t root))) = .error e := by
  rw [ofTree]
  by_cases hroot : t.isDirectory root = true
  · simp only [hroot, if_true, true_and]
    constructor
    · intro h
      obtain hedges | ⟨edges, -, h⟩ := bind_eq_error_iff.1 h
      · obtain ⟨e', hedges, heq⟩ := mapError_eq_error_iff.1 hedges
        exact SurveyError.outside.inj heq ▸ hedges
      · -- what is found later is another kind of fault
        obtain hrelevant | ⟨relevant, -, h⟩ := bind_eq_error_iff.1 h
        · obtain ⟨e', -, heq⟩ := mapError_eq_error_iff.1 hrelevant
          cases heq
        · cases h
    · intro h
      exact bind_eq_error_iff.2 (.inl (mapError_eq_error_iff.2 ⟨e, h, rfl⟩))
  · simp only [hroot]
    constructor
    · intro h
      cases h
    · rintro ⟨h, -⟩
      cases h

/-- **A resolver leads out of the root exactly by an import that names the root itself while something
    beside it has its name with a suffix**, whatever it remembers, and a survey ends with a location
    outside the root exactly if one of its files has such an import. -/
theorem leadsOut_iff (o : SurveyOptions) (t : Tree) (root : Location) (changed : List String) :
    (∀ probes importer specifier,
      (∃ target, (Resolver.resolve t root probes importer specifier).1 = some target ∧
          ¬root <+: target) ↔ Resolver.LeadsBeside t probes root importer specifier) ∧
      ((∃ e, ofTree o t root changed = .error (.outside e)) ↔
        t.isDirectory root = true ∧
          ∃ f ∈ (t.sourceFiles root (Script.Dialect.suffixes.map (·.1)) o.leftOut).map
              (SurveyedFile.read t root),
            ∃ i ∈ f.readable.imports,
              Resolver.LeadsBeside t [] root (.ofLocation (root ++ f.names)) i.source) := by
  refine ⟨fun probes => Resolver.resolve_outside_iff, ?_⟩
  simp only [ofTree_eq_outside_iff, exists_and_left, edgesFrom_isError_iff Resolver.faithful_nil]
  refine and_congr_right ?_
  intro hroot
  constructor
  · rintro ⟨⟨f, specifier⟩, hfound, hbeside⟩
    obtain ⟨f', hf, hin⟩ := List.mem_flatMap.1 hfound
    obtain ⟨i, hi, heq⟩ := List.mem_map.1 hin
    obtain ⟨rfl, rfl⟩ := Prod.mk.inj heq
    exact ⟨f', hf, i, hi, hbeside⟩
  · rintro ⟨f, hf, i, hi, hbeside⟩
    exact ⟨(f, i.source), List.mem_flatMap.2 ⟨f, hf, List.mem_map_of_mem hi⟩, hbeside⟩

/-- A file that imports its own directory, which is the root, and a file beside the root with the root's
    name and a suffix. -/
def besideRoot : Tree :=
  (Tree.empty.write ["repo", "a.ts"] "import '.'".toUTF8).write ["repo.ts"] ⟨#[]⟩

/-- The import leads to the file beside the root, and there is no survey. -/
theorem leadsOut_besideRoot :
    (Resolver.resolve besideRoot ["repo"] [] (.ofLocation ["repo", "a.ts"]) ".").1 = some ["repo.ts"] ∧
      ¬["repo"] <+: ["repo.ts"] ∧
      ofTree ⟨1, 1, 1, []⟩ besideRoot ["repo"] [] = .error (.outside ⟨["repo.ts"], ["repo"]⟩) :=
  ⟨by cbv, by decide, by cbv⟩

/-! ## Trees that can be surveyed -/

/-- The imports of the source files below a root. -/
def importsBelow (t : Tree) (root : Location) (leftOut : List String) : List (SurveyedFile × String) :=
  imports ((t.sourceFiles root (Script.Dialect.suffixes.map (·.1)) leftOut).map
    (SurveyedFile.read t root))

/-- Whether a tree can be surveyed: its root is a directory, and no import leads beside it. -/
structure IsSurveyable (t : Tree) (root : Location) (leftOut : List String) : Prop where
  directory : t.isDirectory root = true
  inside    : ∀ i ∈ importsBelow t root leftOut,
    ¬Resolver.LeadsBeside t [] root (.ofLocation (root ++ i.1.names)) i.2

theorem exists_edgesFrom_iff {leftOut : List String} :
    (∃ edges, edgesFrom t root [] (importsBelow t root leftOut) = .ok edges) ↔
      ∀ i ∈ importsBelow t root leftOut,
        ¬Resolver.LeadsBeside t [] root (.ofLocation (root ++ i.1.names)) i.2 := by
  rw [exists_eq_ok_iff, edgesFrom_isError_iff Resolver.faithful_nil]
  simp only [not_exists, not_and]

/-- **A survey is taken of a tree exactly if the tree can be surveyed**, whatever is changed in it. -/
theorem exists_ofTree_iff {o : SurveyOptions} (hbudget : 0 < o.relevanceBudget) (changed : List String) :
    (∃ s, ofTree o t root changed = .ok s) ↔ IsSurveyable t root o.leftOut := by
  constructor
  · rintro ⟨s, taken⟩
    obtain ⟨hroot, hfiles, hedges, -⟩ := ofTree_eq_ok taken
    rw [hfiles] at hedges
    exact ⟨hroot, exists_edgesFrom_iff.1 ⟨_, hedges⟩⟩
  · rintro ⟨hroot, hinside⟩
    obtain ⟨edges, hedges⟩ := exists_edgesFrom_iff.2 hinside
    rw [importsBelow] at hedges
    rw [ofTree]
    simp only [hroot, if_true, hedges, Graph.relevant, requirePositive_of_pos hbudget]
    exact ⟨_, rfl⟩

end Survey

end PatchReview
