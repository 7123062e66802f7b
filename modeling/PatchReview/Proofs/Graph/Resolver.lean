import Mathlib.Data.List.Basic
import PatchReview.Graph.Resolver
import PatchReview.Proofs.Path
import PatchReview.Proofs.Tree.Resolution

/-!
# What a resolver remembers

A search answers the first candidate that the resolver takes for a file (`firstFile_fst`): one that was a
file when it was first looked for, or is one now if it never was (`seen`). What is remembered after the
search is what was remembered before, and how each candidate up to the answer stands
(`lookup_firstFile`). So nothing that was taken for a file ceases to be one by being looked for.

A resolver that only remembers what it saw of a tree answers as one that looks each time: the first
candidate at which a file stands is meant (`resolve_eq`). The invariant is that what is remembered of
a location is what stands there (`Faithful`); every search keeps it.

What an import leads to has single names from the top (`isSingle_of_target?`).
-/

namespace PatchReview.Resolver

variable {t : Tree} {root : Location} {probes : Probes}

/-! ## Candidates -/

/-- No suffix leaves a location as it is. -/
theorem withSuffix_empty {l : Location} (hne : l ≠ []) : withSuffix l "" = l := by
  rw [withSuffix, List.getLast?_eq_some_getLast hne, Option.getD_some, String.append_empty]
  exact List.dropLast_append_getLast hne

/-- The candidates of a location but for the top: itself, what has its name with a suffix, and index
    files. -/
theorem candidates_of_ne_nil {base : Location} (hne : base ≠ []) :
    candidates base = base :: (suffixes.tail.map (withSuffix base) ++
      indexNames.map fun name => base ++ [name]) := by
  have hfirst : withSuffix base "" = base := withSuffix_empty hne
  rw [candidates, suffixes, List.map_cons, hfirst]
  rfl

/-! ## What is taken for a file -/

/-- Whether a resolver takes a location for that of a file: as it remembers it, or else as it stands. -/
def seen (t : Tree) (probes : Probes) (l : Location) : Bool := (probes.lookup l).getD (t.opensFile l)

/-- Looking at a location answers what it is taken for. -/
theorem probe_fst (l : Location) : (probe t probes l).1 = seen t probes l := by
  rw [probe, seen]
  cases probes.lookup l with
  | some found => rfl
  | none => rfl

/-- What was remembered stays, and where nothing was, what is looked at is remembered as it stands. -/
theorem lookup_probe (l k : Location) :
    (probe t probes l).2.lookup k
      = (probes.lookup k).or (if k = l then some (t.opensFile k) else none) := by
  rw [probe]
  by_cases hkl : k = l
  · subst hkl
    rw [if_pos rfl]
    cases hk : probes.lookup k with
    | some found => exact hk
    | none => exact List.lookup_cons_self
  · rw [if_neg hkl, Option.or_none]
    cases probes.lookup l with
    | some found => rfl
    | none => rw [List.lookup_cons, beq_eq_false_iff_ne.2 hkl]

/-- Remembering what stands there changes nothing of what is taken for a file. -/
theorem seen_congr {probes' : Probes} {looked : Location → Prop} [DecidablePred looked]
    (h : ∀ k, probes'.lookup k
      = (probes.lookup k).or (if looked k then some (t.opensFile k) else none)) :
    seen t probes' = seen t probes := by
  funext k
  rw [seen, seen, h k]
  cases probes.lookup k with
  | some found => rfl
  | none =>
      by_cases hk : looked k
      · rw [if_pos hk]
        rfl
      · rw [if_neg hk]
        rfl

/-- The first candidate that is found is the first that is taken for a file. -/
theorem firstFile_fst (ls : List Location) :
    (firstFile t probes ls).1 = ls.find? (seen t probes) := by
  induction ls generalizing probes with
  | nil => rfl
  | cons l rest ih =>
      have hfound : (probe t probes l).1 = seen t probes l := probe_fst l
      have hsame : seen t (probe t probes l).2 = seen t probes := seen_congr (lookup_probe l)
      rw [firstFile]
      split
      · rename_i probes' heq
        rw [heq] at hfound
        rw [List.find?_cons, ← hfound]
      · rename_i probes' heq
        rw [heq] at hfound hsame
        rw [List.find?_cons, ← hfound, ih, hsame]

/-- The locations that are looked at for an answer: all up to it, or all if there is none. -/
def upTo (answer : Option Location) (ls : List Location) : List Location :=
  ls.takeWhile (some · ≠ answer) ++ answer.toList

/-- A search remembers of each location up to its answer how it stands, unless it was remembered. -/
theorem lookup_firstFile (ls : List Location) (k : Location) :
    (firstFile t probes ls).2.lookup k
      = (probes.lookup k).or
          (if k ∈ upTo (firstFile t probes ls).1 ls then some (t.opensFile k) else none) := by
  induction ls generalizing probes with
  | nil => exact Option.or_none.symm
  | cons l rest ih =>
      have hlookup : (probe t probes l).2.lookup k
          = (probes.lookup k).or (if k = l then some (t.opensFile k) else none) := lookup_probe l k
      have hsame : seen t (probe t probes l).2 = seen t probes := seen_congr (lookup_probe l)
      have hfound : (probe t probes l).1 = seen t probes l := probe_fst l
      rw [firstFile]
      split
      · rename_i probes' heq
        rw [heq] at hlookup
        simpa [upTo] using hlookup
      · rename_i probes' heq
        rw [heq] at hlookup hsame hfound
        -- `l` is not taken for a file, so it is not the answer and the search goes past it
        have hpast : some l ≠ (firstFile t probes' rest).1 := by
          intro hl
          rw [firstFile_fst, hsame] at hl
          exact Bool.false_ne_true (hfound.trans (List.find?_some hl.symm))
        rw [ih, hlookup, upTo, upTo, List.takeWhile_cons_of_pos (by simpa using hpast), Option.or_assoc,
          List.cons_append]
        simp only [List.mem_cons]
        by_cases hkl : k = l
        · simp [hkl]
        · simp [hkl]

theorem resolve_fst (importer : Path) (specifier : String) :
    (resolve t root probes importer specifier).1
      = (base? root importer specifier).bind fun base => (candidates base).find? (seen t probes) := by
  rw [resolve]
  cases base? root importer specifier with
  | none => rfl
  | some base => exact firstFile_fst (candidates base)

/-! ## A tree that does not change -/

/-- Whether all that is remembered holds of a tree. -/
def Faithful (t : Tree) (probes : Probes) : Prop :=
  ∀ l found, probes.lookup l = some found → found = t.opensFile l

/-- The file to which an import leads: the first candidate at which a file stands. -/
def target? (t : Tree) (root : Location) (importer : Path) (specifier : String) : Option Location :=
  (base? root importer specifier).bind fun base => (candidates base).find? t.opensFile

theorem faithful_nil : Faithful t [] := fun _ _ h => nomatch h

/-- Where all that is remembered holds, what is taken for a file is one. -/
theorem Faithful.seen_eq (h : Faithful t probes) : seen t probes = t.opensFile := by
  funext l
  rw [seen]
  cases hl : probes.lookup l with
  | some found => exact h l found hl
  | none => rfl

/-- Remembering what stands there keeps that. -/
theorem Faithful.firstFile (h : Faithful t probes) (ls : List Location) :
    Faithful t (firstFile t probes ls).2 := by
  intro l found hl
  rw [lookup_firstFile, Option.or_eq_some_iff] at hl
  rcases hl with hl | ⟨-, hl⟩
  · exact h l found hl
  · exact (Option.some.inj (Option.ite_none_right_eq_some.1 hl).2).symm

/-- **A resolver with a memory answers as one without.** -/
theorem resolve_eq (h : Faithful t probes) (root : Location) (importer : Path) (specifier : String) :
    (resolve t root probes importer specifier).1 = target? t root importer specifier ∧
      Faithful t (resolve t root probes importer specifier).2 := by
  refine ⟨by rw [resolve_fst, h.seen_eq, target?], ?_⟩
  rw [resolve]
  cases base? root importer specifier with
  | none => exact h
  | some base => exact h.firstFile (candidates base)

/-! ## Locations below the root -/

/-- A location is seen from the root exactly if it is there or below. -/
theorem relative_eq_ok_iff {l names : Location} :
    relative root l = .ok names ↔ root <+: l ∧ names = l.drop root.length := by
  rw [relative]
  by_cases hroot : root.isPrefixOf l = true
  · have hbelow := List.isPrefixOf_iff_prefix.1 hroot
    rw [if_pos hroot, Except.ok.injEq]
    exact ⟨fun h => ⟨hbelow, h.symm⟩, fun h => h.2.symm⟩
  · rw [if_neg hroot]
    simp only [reduceCtorEq, false_iff, not_and]
    exact fun hbelow => absurd (List.isPrefixOf_iff_prefix.2 hbelow) hroot

/-! ## The names of targets -/

/-- What an import names is where its text leads from the directory of its file. -/
theorem location?_of_base? {importer : Path} {specifier : String} {base : Location}
    (h : base? root importer specifier = some base) :
    (importer.parent.join (Path.ofText specifier)).location? = some base := by
  rw [base?] at h
  cases hl : (importer.parent.join (Path.ofText specifier)).location? with
  | none =>
      rw [hl] at h
      split at h <;> exact nomatch h
  | some l =>
      rw [hl] at h
      split at h
      · exact (Option.ite_none_right_eq_some.1 h).2
      · exact (Option.ite_none_right_eq_some.1 h).2
      · exact nomatch h

/-- A location that an import names has single names. -/
theorem isSingle_of_base? {importer : Path} {specifier : String} {base : Location}
    (himporter : importer.names.all Path.isSingle = true)
    (h : base? root importer specifier = some base) : base.all Path.isSingle = true := by
  have hparent : importer.parent.names.all Path.isSingle = true :=
    List.all_eq_true.2 fun name hname =>
      List.all_eq_true.1 himporter name ((List.dropLast_sublist _).mem hname)
  have hspecifier := Path.all_isSingle_ofText specifier
  have hjoin : (importer.parent.join (Path.ofText specifier)).names.all Path.isSingle = true := by
    rw [Path.join]
    split
    · rw [List.all_append, hparent, hspecifier]
      rfl
    · exact hspecifier
  have hlocation := location?_of_base? h
  rw [Path.location?] at hlocation
  split at hlocation
  · rw [← Option.some.inj hlocation]
    exact Path.all_isSingle_collapse hjoin
  · exact nomatch hlocation

/-- Every candidate has single names, but for the top itself under an empty name. -/
theorem isSingle_of_mem_candidates {base l : Location} (hbase : base.all Path.isSingle = true)
    (h : l ∈ candidates base) : l.all Path.isSingle = true ∨ l = [""] := by
  have hsuffix : ∀ s ∈ suffixes, '/' ∉ s.toList := by decide
  have hindex : ∀ name ∈ indexNames, Path.isSingle name = true := by decide
  rcases List.mem_append.1 h with hmem | hmem
  · obtain ⟨s, hs, rfl⟩ := List.mem_map.1 hmem
    cases base using List.reverseRecOn with
    | nil =>
        -- the top has no last name, so what is put at its end stands alone
        have htop : ∀ s ∈ suffixes, ([s] : Location).all Path.isSingle = true ∨ [s] = [""] := by decide
        exact htop s hs
    | append_singleton init last =>
        rw [List.all_append, Bool.and_eq_true, List.all_cons, Bool.and_eq_true] at hbase
        have hlast := Path.isSingle_append hbase.2.1 (hsuffix s hs)
        refine .inl ?_
        simp [withSuffix, hbase.1, hlast]
  · obtain ⟨name, hname, rfl⟩ := List.mem_map.1 hmem
    rw [List.all_append, hbase, List.all_cons, hindex name hname]
    exact .inl rfl

/-- **What an import leads to has single names**, and is no directory. -/
theorem isSingle_of_target? {importer : Path} {specifier : String} {target : Location}
    (himporter : importer.names.all Path.isSingle = true)
    (h : target? t root importer specifier = some target) :
    target.all Path.isSingle = true ∧ t.isDirectory target = false := by
  obtain ⟨base, hbase, hfind⟩ := Option.bind_eq_some_iff.1 h
  have hfile : t.opensFile target = true := List.find?_some hfind
  have hdirectory : t.isDirectory target = false := by
    by_contra hdir
    rw [Tree.opensFile_directory (Bool.not_eq_false _ ▸ hdir)] at hfile
    exact nomatch hfile
  refine ⟨?_, hdirectory⟩
  rcases isSingle_of_mem_candidates (isSingle_of_base? himporter hbase)
    (List.mem_of_find?_eq_some hfind) with hsingle | hempty
  · exact hsingle
  · rw [hempty, Tree.opensFile_emptyName] at hfile
    exact nomatch hfile

end PatchReview.Resolver
