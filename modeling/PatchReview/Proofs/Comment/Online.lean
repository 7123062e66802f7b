import Mathlib
import PatchReview.Proofs.Comment.Relocation

/-!
# Verification is online

Comments are decided one after another, so what is decided of a beginning stays as it is whatever follows,
a dropped comment leaves no trace with those after it, and comments that were kept are kept again
(`verdict_online`). All files are read before anything is decided, but what is decided of a comment only
reads the lines of its own file (`decisions_congr`); that other files are on the shelf does not show.

It shows where one of them cannot be followed: then there is no answer at all, and what would have been
decided of the comments before is lost (`verdict_lostAnswer`).
-/

namespace PatchReview

open PatchReview.Number (Rounding)

/-! ## Lists of decisions -/

theorem keptOf_append (before after : List (Comment × List DropReason)) :
    keptOf (before ++ after) = keptOf before ++ keptOf after := by
  rw [keptOf, List.filter_append, List.map_append]
  rfl

theorem droppedOf_append (before after : List (Comment × List DropReason)) :
    droppedOf (before ++ after) = droppedOf before ++ droppedOf after := by
  rw [droppedOf, List.filter_append, List.map_append]
  rfl

theorem keptOf_map_nil (cs : List Comment) : keptOf (cs.map (·, [])) = cs := by
  simp [keptOf, List.filter_map, Function.comp_def]

theorem droppedOf_map_nil (cs : List Comment) : droppedOf (cs.map (·, [])) = [] := by
  simp [droppedOf, List.filter_map, Function.comp_def]

namespace Verifier

variable (v : Verifier) (r : Rounding)

/-! ## What is decided of one list and of another -/

/-- **What follows changes nothing of what is decided before.** -/
theorem decisions_append (shelf : Shelf) (kept cs ds : List Comment) :
    v.decisions r shelf kept (cs ++ ds)
      = v.decisions r shelf kept cs ++
          v.decisions r shelf (kept ++ keptOf (v.decisions r shelf kept cs)) ds := by
  induction cs generalizing kept with
  | nil => simp [decisions, keptOf]
  | cons c rest ih =>
      rw [List.cons_append, decisions, ih, decisions, List.cons_append]
      -- `c` is among the kept ones for the rest exactly if it is in `keptOf`
      cases hwhy : (v.reasons r shelf kept c).isEmpty <;> simp [keptOf, hwhy]

/-- What is decided of comments depends on the lines of their own files. -/
theorem decisions_congr {shelf shelf' : Shelf} (kept : List Comment) {cs : List Comment}
    (h : ∀ c ∈ cs, shelf.lines? c.path = shelf'.lines? c.path) :
    v.decisions r shelf kept cs = v.decisions r shelf' kept cs := by
  induction cs generalizing kept with
  | nil => rfl
  | cons c rest ih =>
      obtain ⟨hc, hrest⟩ := List.forall_mem_cons.1 h
      have hlocation : locationExists shelf c = locationExists shelf' c := by
        rw [locationExists, locationExists, hc]
      have hreasons : v.reasons r shelf kept c = v.reasons r shelf' kept c := by
        rw [reasons, reasons, plainReasons, plainReasons, hlocation]
      rw [decisions, decisions, hreasons, ih _ hrest]

/-- Where a comment is dropped, those before it were decided as they are by themselves, and those after
    it as if it had not been there. -/
theorem decisions_of_dropped {shelf : Shelf} {kept cs : List Comment}
    {before after : List (Comment × List DropReason)} {c : Comment} {why : List DropReason}
    (h : v.decisions r shelf kept cs = before ++ (c, why) :: after) (hwhy : why ≠ []) :
    v.decisions r shelf kept ((before ++ after).map (·.1)) = before ++ after := by
  have hcs : cs = before.map (·.1) ++ c :: after.map (·.1) := by
    rw [← v.map_fst_decisions r shelf kept cs, h, List.map_append, List.map_cons]
  have hlength : (v.decisions r shelf kept (before.map (·.1))).length = before.length := by
    rw [← List.length_map (·.1), map_fst_decisions, List.length_map]
  rw [hcs, decisions_append] at h
  obtain ⟨hbefore, hrest⟩ := List.append_inj h hlength
  rw [hbefore, decisions] at hrest
  obtain ⟨hc, hafter⟩ := List.cons.inj hrest
  have hdropped := (Prod.mk.inj hc).2
  -- `c` is dropped, so it is not among the kept ones for the rest
  rw [hdropped, if_neg (by simpa using hwhy)] at hafter
  rw [List.map_append, decisions_append, hbefore, hafter]

/-- **Comments that were kept are kept again.** -/
theorem decisions_keptOf (shelf : Shelf) (kept cs : List Comment) :
    v.decisions r shelf kept (keptOf (v.decisions r shelf kept cs))
      = (keptOf (v.decisions r shelf kept cs)).map (·, []) := by
  induction cs generalizing kept with
  | nil => rfl
  | cons c rest ih =>
      rw [decisions, keptOf, List.filter_cons]
      cases hwhy : (v.reasons r shelf kept c).isEmpty with
      | true =>
          -- `c` is kept, so it is asked for again with the same comments before it
          have hnone := List.isEmpty_iff.1 hwhy
          have hrest := ih (kept ++ [c])
          rw [keptOf] at hrest
          rw [if_pos rfl, if_pos rfl, List.map_cons, decisions, hnone, List.map_cons]
          exact congrArg (_ :: ·) hrest
      | false =>
          have hrest := ih kept
          rw [keptOf] at hrest
          exact hrest

/-! ## Verification of some of the comments -/

variable {v r} {t : Tree} {root : Location}

/-- The files of fewer comments are needed anyway. -/
theorem filesNeeded_subset {cs cs' : List Comment} (hsub : cs' ⊆ cs) :
    v.filesNeeded cs' ⊆ v.filesNeeded cs := by
  have hneeded := (v.forall_mem_filesNeeded_iff cs (· ∈ v.filesNeeded cs)).1 fun _ h => h
  exact (v.forall_mem_filesNeeded_iff cs' (· ∈ v.filesNeeded cs)).2
    ⟨fun c hc => hneeded.1 c (hsub hc), hneeded.2⟩

/-- The files of more comments are needed after those of the first. -/
theorem exists_filesNeeded_append (cs ds : List Comment) :
    ∃ more, v.filesNeeded (cs ++ ds) = v.filesNeeded cs ++ more := by
  simp only [filesNeeded, List.map_append]
  rw [← List.append_assoc, List.eraseDups_append]
  exact ⟨_, rfl⟩

theorem verdict_append_error {cs : List Comment} {fault : PathFault}
    (h : v.verdict r t root cs = .error fault) (ds : List Comment) :
    v.verdict r t root (cs ++ ds) = .error fault := by
  obtain ⟨more, hmore⟩ := exists_filesNeeded_append (v := v) cs ds
  have hshelf := verdict_eq_error_iff.1 h
  refine verdict_eq_error_iff.2 ?_
  rw [Tree.shelf] at hshelf ⊢
  rw [hmore, List.mapM_append, hshelf]
  rfl

/-- There is an answer exactly if the files that matter can be followed. -/
theorem verdict_isOk_iff (cs : List Comment) :
    (∃ d, v.verdict r t root cs = .ok d) ↔ ∀ path ∈ v.filesNeeded cs, t.IsFollowable root path := by
  rw [← t.shelf_isOk_iff root]
  constructor
  · rintro ⟨d, hd⟩
    obtain ⟨shelf, hshelf, -⟩ := verdict_eq_ok_iff.1 hd
    exact ⟨shelf, hshelf⟩
  · rintro ⟨shelf, hshelf⟩
    exact ⟨_, verdict_eq_ok_iff.2 ⟨shelf, hshelf, rfl⟩⟩

/-- Verification of more comments has an answer exactly if their files can be followed, too. -/
theorem verdict_append_isOk_iff {cs : List Comment} {d : Verdict}
    (hd : v.verdict r t root cs = .ok d) (ds : List Comment) :
    (∃ e, v.verdict r t root (cs ++ ds) = .ok e) ↔ ∀ c ∈ ds, t.IsFollowable root c.path := by
  have hneeded := (verdict_isOk_iff cs).1 ⟨d, hd⟩
  obtain ⟨hcs, hcandidates⟩ := (v.forall_mem_filesNeeded_iff cs _).1 hneeded
  rw [verdict_isOk_iff, v.forall_mem_filesNeeded_iff, List.forall_mem_append]
  constructor
  · intro h
    exact h.1.2
  · intro hds
    exact ⟨⟨hcs, hds⟩, hcandidates⟩

section

variable (hstill : v.options.placement = none ∨ v.options.relocate = false)

include hstill

/-- Where the files of comments can be read, verification of some of them decides on the same lines. -/
theorem exists_verdict_of_subset {cs cs' : List Comment} {shelf : Shelf}
    (hshelf : t.shelf root (v.filesNeeded cs) = .ok shelf) (hsub : cs' ⊆ cs) :
    ∃ e, v.verdict r t root cs' = .ok e ∧
      e.kept = keptOf (v.decisions r shelf [] cs') ∧
      e.dropped = droppedOf (v.decisions r shelf [] cs') := by
  obtain ⟨shelf', hshelf', hlines⟩ :=
    t.exists_shelf_of_subset root hshelf (filesNeeded_subset hsub)
  have hsame : v.decisions r shelf' [] cs' = v.decisions r shelf [] cs' := by
    refine v.decisions_congr r [] ?_
    intro c hc
    exact hlines c.path (v.path_mem_filesNeeded hc)
  refine ⟨v.verdictOn r shelf' cs', verdict_eq_ok_iff.2 ⟨shelf', hshelf', rfl⟩, ?_, ?_⟩
  · rw [(v.kept_verdictOn r hstill shelf' cs').1, hsame]
  · rw [v.dropped_verdictOn r shelf' cs', hsame]

/-- An answer is that of the decisions on one shelf, which serves any of its comments. -/
theorem exists_shelf_of_verdict {cs : List Comment} {d : Verdict}
    (hd : v.verdict r t root cs = .ok d) :
    ∃ shelf, t.shelf root (v.filesNeeded cs) = .ok shelf ∧
      d.kept = keptOf (v.decisions r shelf [] cs) ∧
      d.dropped = droppedOf (v.decisions r shelf [] cs) := by
  obtain ⟨shelf, hshelf, rfl⟩ := verdict_eq_ok_iff.1 hd
  exact ⟨shelf, hshelf, (v.kept_verdictOn r hstill shelf cs).1, v.dropped_verdictOn r shelf cs⟩

/-- The answer on a beginning is the beginning of the answer. -/
theorem isPrefix_of_verdict_append {cs ds : List Comment} {d e : Verdict}
    (hd : v.verdict r t root cs = .ok d) (he : v.verdict r t root (cs ++ ds) = .ok e) :
    d.kept <+: e.kept ∧ d.dropped <+: e.dropped := by
  obtain ⟨shelf, hshelf, hkept, hdropped⟩ := exists_shelf_of_verdict hstill he
  obtain ⟨d', hd', hkept', hdropped'⟩ :=
    exists_verdict_of_subset (r := r) hstill hshelf (List.subset_append_left cs ds)
  obtain rfl := Except.ok.inj (hd.symm.trans hd')
  rw [hkept, hdropped, hkept', hdropped', decisions_append, keptOf_append, droppedOf_append]
  exact ⟨List.prefix_append _ _, List.prefix_append _ _⟩

/-- A dropped comment can be left out. -/
theorem verdict_without_dropped {cs : List Comment} {shelf : Shelf}
    (hshelf : t.shelf root (v.filesNeeded cs) = .ok shelf)
    {before after : List (Comment × List DropReason)} {c : Comment} {why : List DropReason}
    (h : v.decisions r shelf [] cs = before ++ (c, why) :: after) (hwhy : why ≠ []) :
    ∃ e, v.verdict r t root ((before ++ after).map (·.1)) = .ok e ∧
      e.kept = keptOf (v.decisions r shelf [] cs) ∧ e.dropped = droppedOf (before ++ after) := by
  have hsub : (before ++ after).map (·.1) ⊆ cs := by
    rw [← v.map_fst_decisions r shelf [] cs, h, List.map_append, List.map_append, List.map_cons]
    exact (List.sublist_cons_self _ _).append_left _ |>.subset
  obtain ⟨e, he, hkept, hdropped⟩ := exists_verdict_of_subset (r := r) hstill hshelf hsub
  rw [v.decisions_of_dropped r h hwhy] at hkept hdropped
  refine ⟨e, he, ?_, hdropped⟩
  rw [hkept, h, keptOf_append, keptOf_append]
  simp [keptOf, hwhy]

/-- Kept comments are kept again. -/
theorem verdict_kept_again {cs : List Comment} {d : Verdict}
    (hd : v.verdict r t root cs = .ok d) :
    ∃ e, v.verdict r t root d.kept = .ok e ∧ e.kept = d.kept ∧ e.dropped = [] := by
  obtain ⟨shelf, hshelf, hkept, -⟩ := exists_shelf_of_verdict hstill hd
  have hsub : d.kept ⊆ cs := by
    rw [hkept]
    intro c hc
    obtain ⟨front, back, hsplit⟩ := List.append_of_mem hc
    exact (v.reasons_of_keptOf r shelf hsplit).1
  obtain ⟨e, he, hekept, hedropped⟩ := exists_verdict_of_subset (r := r) hstill hshelf hsub
  rw [hkept, decisions_keptOf] at hekept hedropped
  refine ⟨e, he, ?_, ?_⟩
  · rw [hekept, hkept, keptOf_map_nil]
  · rw [hedropped, droppedOf_map_nil]

/-- **Verification is online**, where nothing is relocated. What is decided of a beginning stays
    decided whatever follows, as long as the files of what follows can be followed; a comment that is
    dropped leaves no trace with the others; and comments that were kept are kept again. -/
theorem verdict_online (cs : List Comment) :
    (∀ fault, v.verdict r t root cs = .error fault →
        ∀ ds, v.verdict r t root (cs ++ ds) = .error fault) ∧
      ∀ d, v.verdict r t root cs = .ok d →
        (∀ ds, (∃ e, v.verdict r t root (cs ++ ds) = .ok e ∧ d.kept <+: e.kept ∧
            d.dropped <+: e.dropped) ↔ ∀ c ∈ ds, t.IsFollowable root c.path) ∧
        (∃ decided : List (Comment × List DropReason), decided.map (·.1) = cs ∧
          d.kept = keptOf decided ∧ d.dropped = droppedOf decided ∧
          ∀ before c why after, decided = before ++ (c, why) :: after → why ≠ [] →
            ∃ e, v.verdict r t root ((before ++ after).map (·.1)) = .ok e ∧ e.kept = d.kept ∧
              e.dropped = droppedOf (before ++ after)) ∧
        ∃ e, v.verdict r t root d.kept = .ok e ∧ e.kept = d.kept ∧ e.dropped = [] := by
  constructor
  · intro fault h ds
    exact verdict_append_error h ds
  intro d hd
  refine ⟨?_, ?_, verdict_kept_again hstill hd⟩
  · intro ds
    rw [← verdict_append_isOk_iff hd ds]
    constructor
    · rintro ⟨e, he, -⟩
      exact ⟨e, he⟩
    · rintro ⟨e, he⟩
      exact ⟨e, he, isPrefix_of_verdict_append hstill hd he⟩
  · obtain ⟨shelf, hshelf, hkept, hdropped⟩ := exists_shelf_of_verdict hstill hd
    refine ⟨v.decisions r shelf [] cs, v.map_fst_decisions r shelf [] cs, hkept, hdropped, ?_⟩
    intro before c why after hsplit hwhy
    rw [hkept]
    exact verdict_without_dropped hstill hshelf hsplit hwhy

end

/-- A verifier that looks only for comments that say what was said before. -/
def listener : Verifier := ⟨⟨[], 0, [], 1, none, false, []⟩, []⟩

/-- A comment, the same again, and one on something else. -/
def threeComments : List Comment :=
  [⟨"c", 1, .minor, "naming", "x", ""⟩, ⟨"c", 2, .minor, "naming", "x", ""⟩,
    ⟨"b", 1, .minor, "naming", "y", ""⟩]

theorem verdict_threeComments : listener.verdict .binary64 twoFiles [] threeComments
    = .ok (listener.verdictOn .binary64 [("c", some ["x", "y"]), ("b", some [""])] threeComments) :=
  verdict_eq_ok_iff.2 ⟨[("c", some ["x", "y"]), ("b", some [""])], by cbv, rfl⟩

theorem dropped_threeComments :
    (listener.verdictOn .binary64 [("c", some ["x", "y"]), ("b", some [""])] threeComments).dropped
      = [⟨⟨"c", 2, .minor, "naming", "x", ""⟩, [.duplicate]⟩] := by decide +kernel

/-- The comment that repeats another is dropped, and what is said of the others is said without it. -/
theorem verdict_online_threeComments :
    (listener.options.placement = none ∨ listener.options.relocate = false) ∧
      ∃ d, listener.verdict .binary64 twoFiles [] threeComments = .ok d ∧
        d.dropped = [⟨⟨"c", 2, .minor, "naming", "x", ""⟩, [.duplicate]⟩] ∧
        ∃ e, listener.verdict .binary64 twoFiles [] d.kept = .ok e ∧ e.kept = d.kept ∧
          e.dropped = [] := by
  have hstill : listener.options.placement = none ∨ listener.options.relocate = false := .inl rfl
  obtain ⟨-, -, hagain⟩ := (verdict_online hstill threeComments).2 _ verdict_threeComments
  exact ⟨hstill, _, verdict_threeComments, dropped_threeComments, hagain⟩

/-- One comment is kept; with a further one, whose path holds a zero character, there is no answer. -/
theorem verdict_lostAnswer :
    let c : Comment := ⟨"c", 1, .minor, "naming", "x", ""⟩
    let further : Comment := ⟨"a\x00b", 1, .minor, "naming", "y", ""⟩
    (∃ d, listener.verdict .binary64 twoFiles [] [c] = .ok d ∧ d.kept = [c]) ∧
      listener.verdict .binary64 twoFiles [] ([c] ++ [further]) = .error .zeroCharacter := by
  refine ⟨⟨_, verdict_eq_ok_iff.2 ⟨[("c", some ["x", "y"])], by cbv, rfl⟩, ?_⟩, ?_⟩
  · decide +kernel
  · exact verdict_eq_error_iff.2 (by cbv)

end Verifier

end PatchReview
