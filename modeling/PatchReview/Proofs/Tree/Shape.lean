import Mathlib.Data.List.Nodup
import PatchReview.Proofs.Tree.Discovery

/-!
# Trees of one shape

Two trees have one shape if they differ at most in what their files hold. Where a path leads depends on
the shape of a tree only: names are followed alike (`walk_congr`), locations are opened alike
(`follow_congr`), and paths lead to the same locations below a root (`locate_congr`).

A file that is given new content leaves the shape as it is (`sameShape_refill`).
-/

namespace PatchReview

/-- What may stand at one location of two trees of one shape: the same, or two files. -/
inductive SameKind : Option Entry → Option Entry → Prop where
  | same (e? : Option Entry) : SameKind e? e?
  | files (content content' : ByteArray) : SameKind (some (.file content)) (some (.file content'))

namespace SameKind

variable {e? e?' : Option Entry} (h : SameKind e? e?')

include h

theorem eq_link_iff (target : String) : e?' = some (.link target) ↔ e? = some (.link target) := by
  cases h <;> simp

theorem eq_directory_iff : e?' = some .directory ↔ e? = some .directory := by
  cases h <;> simp

theorem eq_none_iff : e?' = none ↔ e? = none := by
  cases h <;> simp

/-- Only files can differ. -/
theorem eq_of_ne_file (hfile : ∀ content, e? ≠ some (.file content)) : e?' = e? := by
  cases h with
  | same => rfl
  | files content content' => exact absurd rfl (hfile content)

end SameKind

namespace Tree

variable {t t' : Tree}

/-- Whether two trees differ at most in what their files hold. -/
def SameShape (t t' : Tree) : Prop := ∀ l, SameKind (t.at? l) (t'.at? l)

theorem mem_links_iff {l : Location} : l ∈ t.links ↔ ∃ target, t.at? l = some (.link target) := by
  rw [links, List.mem_filterMap]
  constructor
  · rintro ⟨⟨k, e⟩, hmem, he⟩
    cases e with
    | directory | file content => cases he
    | link target =>
        obtain rfl := Option.some.inj he
        exact ⟨target, at?_of_mem hmem⟩
  · rintro ⟨target, hat⟩
    have hne : l ≠ [] := by
      rintro rfl
      cases hat
    rw [at?, Entries.at?, if_neg hne] at hat
    obtain ⟨before, after, hentries, -⟩ := List.lookup_eq_some_iff.1 hat
    exact ⟨(l, .link target), by rw [hentries]; simp, rfl⟩

theorem nodup_links : t.links.Nodup := by
  have hdistinct : t.entries.Pairwise fun x y => x.1 ≠ y.1 := List.pairwise_map.1 t.distinct
  -- links at one location would be one entry
  refine hdistinct.filterMap _ ?_
  rintro ⟨l, e⟩ ⟨l', e'⟩ hne k hk k' hk' rfl
  cases e <;> cases e' <;> simp_all

section

variable (hshape : t.SameShape t')

include hshape

/-- Trees of one shape have the same links. -/
theorem links_perm : t'.links.Perm t.links := by
  refine (List.perm_ext_iff_of_nodup nodup_links nodup_links).2 ?_
  intro l
  simp only [mem_links_iff, (hshape l).eq_link_iff]

/-- In trees of one shape names are followed alike. -/
theorem walk_congr {links links' : List Location}
    (hlinks : links'.Perm links) (here : Location) (names : List String) :
    t'.walk links' here names = t.walk links here names := by
  -- along the walk in `t`: where that meets a link, so does the other, and both take it away
  fun_induction Tree.walk t links here names generalizing links' with
  | case1 links here => rw [walk]
  | case2 links here name rest hidle ih => rw [walk, if_pos hidle, ih hlinks]
  | case3 links here rest hidle ih => rw [walk, if_neg hidle, if_pos rfl, ih hlinks]
  | case4 links here name rest hidle hup hzero =>
      rw [walk, if_neg hidle, if_neg hup, if_pos hzero]
  | case5 links here name rest hidle hup hzero target hlink hin there hthere ihlink ihrest =>
      rw [walk, if_neg hidle, if_neg hup, if_neg hzero]
      simp only [((hshape _).eq_link_iff target).2 hlink, dif_pos (hlinks.mem_iff.2 hin),
        ihlink (hlinks.erase _), hthere, ihrest hlinks]
  | case6 links here name rest hidle hup hzero target hlink hin p hp ihlink =>
      rw [walk, if_neg hidle, if_neg hup, if_neg hzero]
      simp only [((hshape _).eq_link_iff target).2 hlink, dif_pos (hlinks.mem_iff.2 hin),
        ihlink (hlinks.erase _), hp]
  | case7 links here name rest hidle hup hzero target hlink hin hz ihlink =>
      rw [walk, if_neg hidle, if_neg hup, if_neg hzero]
      simp only [((hshape _).eq_link_iff target).2 hlink, dif_pos (hlinks.mem_iff.2 hin),
        ihlink (hlinks.erase _), hz]
  | case8 links here name rest hidle hup hzero target hlink hout =>
      rw [walk, if_neg hidle, if_neg hup, if_neg hzero]
      simp only [((hshape _).eq_link_iff target).2 hlink, dif_neg (mt hlinks.mem_iff.1 hout)]
  | case9 links here name rest hidle hup hzero hnone ih =>
      rw [walk, if_neg hidle, if_neg hup, if_neg hzero]
      split
      · rename_i target hlink
        exact (hnone target (((hshape _).eq_link_iff target).1 hlink)).elim
      · exact ih hlinks

theorem isDirectory_congr (l : Location) :
    t'.isDirectory l = t.isDirectory l := by
  rw [isDirectory, isDirectory, decide_eq_decide]
  exact (hshape l).eq_directory_iff

theorem isFile_congr (l : Location) : t'.isFile l = t.isFile l := by
  have hkind := hshape l
  rw [isFile, isFile]
  generalize t.at? l = e?, t'.at? l = e?' at hkind
  cases hkind <;> rfl

/-- In trees of one shape locations are opened alike. -/
theorem follow_congr {links links' : List Location}
    (hlinks : links'.Perm links) (here : Location) (names : List String) :
    t'.follow links' here names = t.follow links here names := by
  fun_induction Tree.follow t links here names generalizing links' with
  | case1 links here => rw [follow]
  | case2 links here name rest hdir hidle ih =>
      rw [follow, isDirectory_congr hshape, if_pos hdir, if_pos hidle, ih hlinks]
  | case3 links here rest hdir hidle ih =>
      rw [follow, isDirectory_congr hshape, if_pos hdir, if_neg hidle, if_pos rfl, ih hlinks]
  | case4 links here name rest hdir hidle hup target hlink hin there hthere ihlink ihrest =>
      rw [follow, isDirectory_congr hshape, if_pos hdir, if_neg hidle, if_neg hup]
      simp only [((hshape _).eq_link_iff target).2 hlink, dif_pos (hlinks.mem_iff.2 hin),
        ihlink (hlinks.erase _), hthere, ihrest hlinks]
  | case5 links here name rest hdir hidle hup target hlink hin e he ihlink =>
      rw [follow, isDirectory_congr hshape, if_pos hdir, if_neg hidle, if_neg hup]
      simp only [((hshape _).eq_link_iff target).2 hlink, dif_pos (hlinks.mem_iff.2 hin),
        ihlink (hlinks.erase _), he]
  | case6 links here name rest hdir hidle hup target hlink hout =>
      rw [follow, isDirectory_congr hshape, if_pos hdir, if_neg hidle, if_neg hup]
      simp only [((hshape _).eq_link_iff target).2 hlink, dif_neg (mt hlinks.mem_iff.1 hout)]
  | case7 links here name rest hdir hidle hup e hplain he ih =>
      rw [follow, isDirectory_congr hshape, if_pos hdir, if_neg hidle, if_neg hup]
      split
      · rename_i target hlink
        have hlink' := ((hshape _).eq_link_iff target).1 hlink
        exact (hplain target (Option.some.inj (he.symm.trans hlink'))).elim
      · exact ih hlinks
      · rename_i hnone
        have hnone' := (hshape _).eq_none_iff.1 hnone
        cases he.symm.trans hnone'
  | case8 links here name rest hdir hidle hup hnone =>
      rw [follow, isDirectory_congr hshape, if_pos hdir, if_neg hidle, if_neg hup]
      simp only [(hshape _).eq_none_iff.2 hnone]
  | case9 links here name rest hdir =>
      rw [follow, isDirectory_congr hshape, if_neg hdir]

/-- In trees of one shape a file is found by opening a location in both or in neither. -/
theorem opensFile_congr (l : Location) : t'.opensFile l = t.opensFile l := by
  rw [opensFile, opensFile, opened?, opened?, follow_congr hshape (links_perm hshape)]
  cases t.follow t.links [] l with
  | error e => rfl
  | ok place =>
      exact isFile_congr hshape place

/-- In trees of one shape paths lead to the same locations. -/
theorem locate_congr (root : Location) (path : String) :
    t'.locate root path = t.locate root path := by
  simp only [locate, endOf, walk_congr hshape (links_perm hshape),
    follow_congr hshape (links_perm hshape)]

end

/-! ## New content -/

theorem lookup_refilled_self {es : Entries} {l : Location} {content : ByteArray} (h : l ∈ es.keys) :
    (es.refilled l content).lookup l = some (.file content) := by
  induction es with
  | nil => cases h
  | cons first rest ih =>
      obtain ⟨k, e⟩ := first
      by_cases hk : k = l
      · simp [Entries.refilled, hk]
      · have hin : l ∈ Entries.keys rest := (List.mem_cons.1 h).resolve_left fun heq => hk heq.symm
        have hskip : (Entries.refilled l content ((k, e) :: rest)).lookup l
            = (Entries.refilled l content rest).lookup l := by
          simp [Entries.refilled, hk, List.lookup_cons, beq_eq_false_iff_ne.2 (Ne.symm hk)]
        rw [hskip, ih hin]

theorem at?_refill_self {l : Location} {content content' : ByteArray}
    (h : t.at? l = some (.file content)) : (t.refill l content').at? l = some (.file content') := by
  have hne : l ≠ [] := by
    rintro rfl
    cases h
  rw [refill, dif_pos (by rw [isFile, h]), at?, Entries.at?, if_neg hne]
  exact lookup_refilled_self (mem_keys_of_at? hne h)

theorem at?_refill_of_ne {l k : Location} {content : ByteArray} (hne : k ≠ l) :
    (t.refill l content).at? k = t.at? k := by
  rw [refill]
  split
  · rw [at?, at?, Entries.at?, Entries.at?, Entries.lookup_refilled_of_ne hne]
  · rfl

theorem sameShape_refill {l : Location} {content : ByteArray} (content' : ByteArray)
    (hfile : t.at? l = some (.file content)) : t.SameShape (t.refill l content') := by
  intro k
  by_cases hk : k = l
  · subst hk
    rw [hfile, at?_refill_self hfile]
    exact .files content content'
  · rw [at?_refill_of_ne hk]
    exact .same _

/-- The source files are found alike. -/
theorem sourceFiles_refill {l : Location} {content : ByteArray} (content' : ByteArray)
    (hfile : t.at? l = some (.file content)) (start : Location) (suffixes leftOut : List String) :
    (t.refill l content').sourceFiles start suffixes leftOut = t.sourceFiles start suffixes leftOut :=
  sourceFiles_congr (isFile_congr (sameShape_refill content' hfile))

/-! ## Writing where a file stands -/

/-- Nothing is entered where something stands. -/
theorem add_of_at? {l : Location} {e : Entry} (h : t.at? l = some e) (e' : Entry) : t.add l e' = t := by
  rw [add, dif_neg]
  rintro ⟨hfree, -⟩
  rw [h] at hfree
  cases hfree

/-- Nor are the directories that are there. -/
theorem addDirectory_of_isDirectory {l : Location} (h : t.isDirectory l = true) :
    t.addDirectory l = t := by
  have hstay : ∀ ns : List Nat,
      ns.foldl (fun t n => t.add (l.take (n + 1)) .directory) t = t := by
    intro ns
    induction ns with
    | nil => rfl
    | cons n rest ih =>
        have hfront : t.isDirectory (l.take (n + 1)) = true :=
          isDirectory_of_append (by rwa [List.take_append_drop])
        rw [isDirectory, decide_eq_true_eq] at hfront
        rw [List.foldl_cons, add_of_at? hfront, ih]
  exact hstay _

/-- **A file that is written where one stands has new content**, and nothing else changes. -/
theorem write_eq_refill {l : Location} {content : ByteArray} (content' : ByteArray)
    (hfile : t.at? l = some (.file content)) : t.write l content' = t.refill l content' := by
  have hne : l ≠ [] := by
    rintro rfl
    cases hfile
  have hat : t.at? (l.dropLast ++ [l.getLast hne]) = some (.file content) := by
    rw [List.dropLast_append_getLast]
    exact hfile
  have hparent := isDirectory_of_at? (List.cons_ne_nil (l.getLast hne) []) hat
  rw [write, addDirectory_of_isDirectory hparent, add_of_at? hfile]

end Tree

end PatchReview
