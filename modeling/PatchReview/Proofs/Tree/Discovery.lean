import Mathlib.Data.List.Lex
import Mathlib.Data.List.Sort
import Mathlib.Data.String.Basic
import PatchReview.Proofs.Path
import PatchReview.Proofs.Tree.Resolution
import PatchReview.Tree.Discovery

/-!
# The source files that are found

The names found below a directory are those that lead to a file there, none of them passed over and the
last with a listed suffix (`mem_sourceFiles_iff`). The names are single, and there is at least one of them
(`isSingle_of_mem_sourceFiles`, `ne_nil_of_mem_sourceFiles`).

They come in the order of the names from the directory down (`pairwise_sourceFiles`): what is found below
one entry starts with its name, and the entries of a directory have names that differ. So no source
file is found twice, and two trees with the same source files list them alike.
-/

namespace PatchReview.Tree

variable {t : Tree} {start : Location} {suffixes leftOut : List String} {names : Location}

/-! ## Entries and what stands at a location -/

/-- What is entered stands there. -/
theorem lookup_of_mem {es : Entries} (h : es.keys.Nodup) {l : Location} {e : Entry}
    (hmem : (l, e) ∈ es) : es.lookup l = some e := by
  induction es with
  | nil => exact nomatch hmem
  | cons first rest ih =>
      obtain ⟨k, v⟩ := first
      obtain ⟨hk, hrest⟩ := List.nodup_cons.1 h
      rcases List.mem_cons.1 hmem with heq | hin
      · obtain ⟨rfl, rfl⟩ := Prod.mk.inj heq
        simp
      · have hne : l ≠ k := fun hl => hk (List.mem_map.2 ⟨(l, e), hin, hl⟩)
        rw [List.lookup_cons, beq_eq_false_iff_ne.2 hne]
        exact ih hrest hin

theorem at?_of_mem {l : Location} {e : Entry} (hmem : (l, e) ∈ t.entries) : t.at? l = some e := by
  have hne : l ≠ [] := fun hl => t.lower (hl ▸ List.mem_map_of_mem hmem)
  rw [at?, Entries.at?, if_neg hne, lookup_of_mem t.distinct hmem]

/-- What stands below the top is entered there. -/
theorem mem_of_at? {l : Location} {e : Entry} (hne : l ≠ []) (h : t.at? l = some e) :
    (l, e) ∈ t.entries := by
  obtain ⟨⟨k, e'⟩, hmem, rfl⟩ := List.mem_map.1 (mem_keys_of_at? hne h)
  have he : e' = e := Option.some.inj ((at?_of_mem hmem).symm.trans h)
  rwa [← he]

theorem isFile_iff {l : Location} : t.isFile l = true ↔ ∃ content, t.at? l = some (.file content) := by
  rw [isFile]
  constructor
  · intro h
    split at h
    · exact ⟨_, ‹_›⟩
    · cases h
  · rintro ⟨content, hat⟩
    rw [hat]

/-- What is entered has single names on the way. -/
theorem all_isSingle_of_mem {l : Location} {e : Entry} (hmem : (l, e) ∈ t.entries) :
    l.all Path.isSingle = true := by
  refine List.all_eq_true.2 fun name hname => ?_
  have hnamed := List.all_eq_true.1 (t.named l (List.mem_map_of_mem hmem)) name hname
  simp only [Path.isName, Bool.and_eq_true] at hnamed
  exact hnamed.1.1

/-! ## The listing of a directory -/

theorem standingIn_eq_some_iff {dir : Location} {x : Location × Entry} {y : String × Entry} :
    standingIn dir x = some y ↔ x = (dir ++ [y.1], y.2) := by
  obtain ⟨l, e⟩ := x
  obtain ⟨name, e'⟩ := y
  rw [standingIn, Option.ite_none_right_eq_some, Option.map_eq_some_iff]
  constructor
  · rintro ⟨rfl, last, hlast, heq⟩
    obtain ⟨rfl, rfl⟩ := Prod.mk.inj heq
    rw [List.dropLast_append_getLast? last hlast]
  · intro heq
    obtain ⟨rfl, rfl⟩ := Prod.mk.inj heq
    exact ⟨List.dropLast_concat, name, List.getLast?_concat, rfl⟩

/-- A listing has what stands in the directory, each under its name. -/
theorem mem_listing_iff {dir : Location} {name : String} {e : Entry} :
    (name, e) ∈ t.listing dir ↔ t.at? (dir ++ [name]) = some e := by
  rw [listing, List.mem_mergeSort, List.mem_filterMap]
  simp only [standingIn_eq_some_iff, exists_eq_right]
  exact ⟨at?_of_mem, mem_of_at? (by simp)⟩

/-- **A listing is in the order of the names**, which differ. -/
theorem pairwise_listing (dir : Location) : (t.listing dir).Pairwise fun a b => a.1 < b.1 := by
  have hperm := List.mergeSort_perm (t.entries.filterMap (standingIn dir)) fun a b => decide (a.1 ≤ b.1)
  have hdistinct : t.entries.Pairwise fun x y => x.1 ≠ y.1 := List.pairwise_map.1 t.distinct
  -- entries of one name in `dir` stand at one location, which is entered once
  have hnames : (t.entries.filterMap (standingIn dir)).Pairwise fun a b => a.1 ≠ b.1 := by
    refine hdistinct.filterMap _ ?_
    intro x y hxy a ha b hb heq
    rw [standingIn_eq_some_iff.1 ha, standingIn_eq_some_iff.1 hb, heq] at hxy
    exact hxy rfl
  have hdiffer : (t.listing dir).Pairwise fun a b => a.1 ≠ b.1 :=
    hperm.symm.pairwise hnames fun h => Ne.symm h
  have hsorted : (t.listing dir).Pairwise fun a b => decide (a.1 ≤ b.1) = true := by
    refine List.pairwise_mergeSort ?_ ?_ _
    · intro a b c hab hbc
      exact decide_eq_true (le_trans (of_decide_eq_true hab) (of_decide_eq_true hbc))
    · intro a b
      rw [Bool.or_eq_true, decide_eq_true_iff, decide_eq_true_iff]
      exact le_total a.1 b.1
  exact (hsorted.and hdiffer).imp fun h => lt_of_le_of_ne (of_decide_eq_true h.1) h.2

/-! ## What is found -/

/-- What is entered is no farther down than the depth of the tree. -/
theorem length_le_depth {l : Location} {e : Entry} (hmem : (l, e) ∈ t.entries) : l.length ≤ t.depth := by
  rw [depth]
  generalize t.entries = es at hmem
  induction es with
  | nil => cases hmem
  | cons first rest ih =>
      rw [List.map_cons, List.foldr_cons]
      rcases List.mem_cons.1 hmem with rfl | hin
      · exact Nat.le_max_left _ _
      · exact Nat.le_trans (ih hin) (Nat.le_max_right _ _)

/-- Whether names are those of a source file: none is passed over, and the last has a listed suffix. -/
def IsNamed (suffixes leftOut : List String) (names : Location) : Prop :=
  (∀ name ∈ names, isPassedOver leftOut name = false) ∧
    suffixes.contains (Path.suffixOfName (names.getLast?.getD "")) = true

theorem isNamed_cons_iff {name : String} {rest : Location} (hrest : rest ≠ []) :
    IsNamed suffixes leftOut (name :: rest) ↔
      isPassedOver leftOut name = false ∧ IsNamed suffixes leftOut rest := by
  obtain ⟨next, more, rfl⟩ := List.exists_cons_of_ne_nil hrest
  rw [IsNamed, IsNamed, List.forall_mem_cons, List.getLast?_cons_cons, and_assoc]

theorem isNamed_singleton_iff {name : String} :
    IsNamed suffixes leftOut [name] ↔
      isPassedOver leftOut name = false ∧ suffixes.contains (Path.suffixOfName name) = true := by
  rw [IsNamed, List.forall_mem_singleton]
  rfl

/-- An entry gives what is found below it, if it is a directory, or itself; nothing if it is passed over. -/
theorem mem_sourcesOf_iff {below : String → List Location} {name : String} {e : Entry} :
    names ∈ sourcesOf suffixes leftOut below (name, e) ↔
      isPassedOver leftOut name = false ∧
        (e = .directory ∧ (∃ rest ∈ below name, name :: rest = names) ∨
          (∃ content, e = .file content) ∧ suffixes.contains (Path.suffixOfName name) = true ∧
            names = [name]) := by
  rw [sourcesOf]
  by_cases hover : isPassedOver leftOut name = true
  · simp [hover]
  · rw [if_neg hover]
    cases e <;> simp [hover]

/-- **The walk finds the source files**, as far down as it goes. -/
theorem mem_sourcesWithin_iff {n : Nat} {dir : Location} :
    names ∈ t.sourcesWithin suffixes leftOut n dir ↔
      names ≠ [] ∧ names.length ≤ n ∧ t.isFile (dir ++ names) = true ∧
        IsNamed suffixes leftOut names := by
  induction n generalizing dir names with
  | zero =>
      rw [sourcesWithin]
      constructor
      · intro h
        cases h
      · rintro ⟨hne, hlength, -⟩
        exact absurd (List.eq_nil_of_length_eq_zero (Nat.le_zero.1 hlength)) hne
  | succ n ih =>
      rw [sourcesWithin, List.mem_flatMap]
      constructor
      · rintro ⟨⟨name, e⟩, hentry, hnames⟩
        have hat := mem_listing_iff.1 hentry
        obtain ⟨hover, ⟨-, rest, hrest, rfl⟩ | ⟨⟨content, rfl⟩, hsuffix, rfl⟩⟩ := mem_sourcesOf_iff.1 hnames
        · obtain ⟨hne, hlength, hfile, hnamed⟩ := ih.1 hrest
          rw [List.append_assoc] at hfile
          exact ⟨List.cons_ne_nil name rest, Nat.succ_le_succ hlength, hfile,
            (isNamed_cons_iff hne).2 ⟨hover, hnamed⟩⟩
        · exact ⟨List.cons_ne_nil name [], Nat.succ_le_succ (Nat.zero_le n), isFile_iff.2 ⟨content, hat⟩,
            isNamed_singleton_iff.2 ⟨hover, hsuffix⟩⟩
      · rintro ⟨hne, hlength, hfile, hnamed⟩
        obtain ⟨name, rest, rfl⟩ := List.exists_cons_of_ne_nil hne
        by_cases hrest : rest = []
        · subst hrest
          obtain ⟨hover, hsuffix⟩ := isNamed_singleton_iff.1 hnamed
          obtain ⟨content, hat⟩ := isFile_iff.1 hfile
          exact ⟨(name, .file content), mem_listing_iff.2 hat,
            mem_sourcesOf_iff.2 ⟨hover, .inr ⟨⟨content, rfl⟩, hsuffix, rfl⟩⟩⟩
        · obtain ⟨hover, hnamed⟩ := (isNamed_cons_iff hrest).1 hnamed
          rw [← List.singleton_append, ← List.append_assoc] at hfile
          -- on the way to a file there are directories only
          obtain ⟨content, hat⟩ := isFile_iff.1 hfile
          have hdir := isDirectory_of_at? hrest hat
          rw [isDirectory, decide_eq_true_eq] at hdir
          have hbelow := ih.2 ⟨hrest, Nat.le_of_succ_le_succ hlength, hfile, hnamed⟩
          exact ⟨(name, .directory), mem_listing_iff.2 hdir,
            mem_sourcesOf_iff.2 ⟨hover, .inl ⟨rfl, rest, hbelow, rfl⟩⟩⟩

/-- **What is found are the source files below the directory.** -/
theorem mem_sourceFiles_iff :
    names ∈ t.sourceFiles start suffixes leftOut ↔
      names ≠ [] ∧ t.isFile (start ++ names) = true ∧ IsNamed suffixes leftOut names := by
  rw [sourceFiles, mem_sourcesWithin_iff]
  constructor
  · rintro ⟨hne, -, hfile, hnamed⟩
    exact ⟨hne, hfile, hnamed⟩
  · rintro ⟨hne, hfile, hnamed⟩
    obtain ⟨content, hat⟩ := isFile_iff.1 hfile
    have hlength := length_le_depth (mem_of_at? (by simp [hne]) hat)
    rw [List.length_append] at hlength
    exact ⟨hne, by omega, hfile, hnamed⟩

/-- Source files are found below a directory, not at it. -/
theorem ne_nil_of_mem_sourceFiles (h : names ∈ t.sourceFiles start suffixes leftOut) : names ≠ [] :=
  (mem_sourceFiles_iff.1 h).1

/-- A source file that is found is a file that is entered. -/
theorem entry_of_mem_sourceFiles (h : names ∈ t.sourceFiles start suffixes leftOut) :
    ∃ content, (start ++ names, Entry.file content) ∈ t.entries := by
  obtain ⟨hne, hfile, -⟩ := mem_sourceFiles_iff.1 h
  obtain ⟨content, hat⟩ := isFile_iff.1 hfile
  exact ⟨content, mem_of_at? (by simp [hne]) hat⟩

/-- A source file and the directory that it is found below have single names on the way. -/
theorem isSingle_of_mem_sourceFiles (h : names ∈ t.sourceFiles start suffixes leftOut) :
    start.all Path.isSingle = true ∧ names.all Path.isSingle = true := by
  obtain ⟨content, hentry⟩ := entry_of_mem_sourceFiles h
  simpa [List.all_append] using all_isSingle_of_mem hentry

/-! ## The order in which they are listed -/

/-- What an entry gives starts with its name. -/
theorem exists_of_mem_sourcesOf {below : String → List Location} {x : String × Entry}
    (h : names ∈ sourcesOf suffixes leftOut below x) : ∃ rest, names = x.1 :: rest := by
  obtain ⟨-, ⟨-, rest, -, rfl⟩ | ⟨-, -, rfl⟩⟩ := mem_sourcesOf_iff.1 h
  · exact ⟨rest, rfl⟩
  · exact ⟨[], rfl⟩

/-- An entry gives its source files in order if they come so from below. -/
theorem pairwise_sourcesOf {below : String → List Location} (x : String × Entry)
    (hbelow : (below x.1).Pairwise (· < ·)) :
    (sourcesOf suffixes leftOut below x).Pairwise (· < ·) := by
  obtain ⟨name, e⟩ := x
  rw [sourcesOf]
  split
  · exact List.Pairwise.nil
  · cases e with
    | link target => exact List.Pairwise.nil
    | directory => exact List.pairwise_map.2 (hbelow.imp List.cons_lt_cons_self.2)
    | file content =>
        dsimp only
        split
        · exact List.pairwise_singleton _ _
        · exact List.Pairwise.nil

theorem pairwise_sourcesWithin (n : Nat) (dir : Location) :
    (t.sourcesWithin suffixes leftOut n dir).Pairwise (· < ·) := by
  induction n generalizing dir with
  | zero => exact List.Pairwise.nil
  | succ n ih =>
      rw [sourcesWithin, List.pairwise_flatMap]
      constructor
      · intro x _
        exact pairwise_sourcesOf x (ih (dir ++ [x.1]))
      · -- what two entries give is told apart by the first names, which are theirs
        refine (pairwise_listing dir).imp ?_
        intro a b hab names hnames others hothers
        obtain ⟨rest, rfl⟩ := exists_of_mem_sourcesOf hnames
        obtain ⟨rest', rfl⟩ := exists_of_mem_sourcesOf hothers
        exact List.cons_lt_cons_iff.2 (.inl hab)

/-- **Source files are listed in the order of their names**, from the directory down. -/
theorem pairwise_sourceFiles : (t.sourceFiles start suffixes leftOut).Pairwise (· < ·) :=
  pairwise_sourcesWithin t.depth start

/-- **No source file is found twice.** -/
theorem nodup_sourceFiles : (t.sourceFiles start suffixes leftOut).Nodup :=
  pairwise_sourceFiles.imp ne_of_lt

/-- Where the same files stand, the source files are listed alike, whatever else is entered and in which
    order. -/
theorem sourceFiles_congr {t' : Tree} (hfiles : ∀ l, t'.isFile l = t.isFile l) :
    t'.sourceFiles start suffixes leftOut = t.sourceFiles start suffixes leftOut := by
  refine pairwise_sourceFiles.eq_of_mem_iff pairwise_sourceFiles ?_
  intro names
  rw [mem_sourceFiles_iff, mem_sourceFiles_iff, hfiles]

end PatchReview.Tree
