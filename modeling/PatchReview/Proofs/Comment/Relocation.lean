import Mathlib
import PatchReview.Proofs.Comment.Greedy
import PatchReview.Proofs.Comment.Placement
import PatchReview.Proofs.Path

/-!
# Relocation changes only locations

Verification that relocates answers as verification that does not (`unmoved`), but for the places of
the comments it keeps (`verdict_relocated`). Of those, each is moved whose best match is at another
place, with one record for each; the others stay as they came (`Relocated`). Wherever a kept comment
ends, there is a line of a file that can be read.
-/

namespace PatchReview

open PatchReview.Number (Rounding)

namespace VerifyOptions

/-- Options of placement within those of verification keep at least one match, too. -/
theorem maxMatches_pos_of_placement {j : Json} {place : Option PlacementOptions}
    (h : ofRecord.placement j = .ok place) : ∀ o ∈ place, 0 < o.maxMatches := by
  intro o ho
  by_cases hnull : j = .null
  · subst hnull
    obtain rfl : none = place := Record.Checked.ok.inj h
    exact nomatch ho
  · rw [ofRecord.placement] at h
    · obtain ⟨o', hread, hplace⟩ := Record.Checked.andThen_eq_ok_iff.1 h
      obtain rfl : some o' = place := Record.Checked.ok.inj hplace
      exact Option.some.inj ho ▸ PlacementOptions.maxMatches_pos_of_ofRecord hread
    · exact hnull

/-- Options of verification that can be read keep at least one match wherever comments are placed. -/
theorem maxMatches_pos_of_ofRecord {j : Json} {options : VerifyOptions}
    (h : ofRecord j = .ok options) : ∀ o ∈ options.placement, 0 < o.maxMatches := by
  obtain ⟨k, hfields⟩ := Record.exists_of_record h
  obtain ⟨_, _, h₆, -, rfl⟩ := Record.Checked.seq_eq_ok_iff.1 hfields
  obtain ⟨_, _, h₅, -, rfl⟩ := Record.Checked.seq_eq_ok_iff.1 h₆
  obtain ⟨_, place, h₄, hplace, rfl⟩ := Record.Checked.seq_eq_ok_iff.1 h₅
  obtain ⟨_, _, h₃, -, rfl⟩ := Record.Checked.seq_eq_ok_iff.1 h₄
  obtain ⟨_, _, h₂, -, rfl⟩ := Record.Checked.seq_eq_ok_iff.1 h₃
  obtain ⟨_, _, h₁, -, rfl⟩ := Record.Checked.seq_eq_ok_iff.1 h₂
  obtain ⟨_, -, rfl⟩ := Record.Checked.map_eq_ok_iff.1 h₁
  exact Record.of_withDefault (P := fun place => ∀ o ∈ place, 0 < o.maxMatches) hplace
    (fun o ho => nomatch ho) fun value place => maxMatches_pos_of_placement

end VerifyOptions

/-- Whether a comment stands at a line of a file that can be read below a root. -/
def Comment.HasLine (t : Tree) (root : Location) (c : Comment) : Prop :=
  ∃ ls, t.lines root c.path = .ok (some ls) ∧ 1 ≤ c.line ∧ c.line ≤ ls.length

/-- The files that can be read, with their lines, in the order in which they are named. -/
def Tree.readable (t : Tree) (root : Location) (paths : List String) : LoadedFiles :=
  paths.filterMap fun path => (t.lines root path).toOption.join.map (path, ·)

theorem Tree.mem_readable_iff {t : Tree} {root : Location} {paths : List String} {path : String}
    {lines : List String} :
    (path, lines) ∈ t.readable root paths ↔
      path ∈ paths ∧ t.lines root path = .ok (some lines) := by
  rw [readable, List.mem_filterMap]
  constructor
  · rintro ⟨path', hpath, hread⟩
    obtain ⟨lines', hlines, heq⟩ := Option.map_eq_some_iff.1 hread
    obtain ⟨rfl, rfl⟩ := Prod.mk.inj heq
    refine ⟨hpath, ?_⟩
    cases hanswer : t.lines root path' with
    | error fault => simp [hanswer, Except.toOption] at hlines
    | ok ls? =>
        rw [hanswer] at hlines
        exact congrArg _ (Option.join_eq_some_iff.1 hlines |> Option.some.inj)
  · rintro ⟨hpath, hlines⟩
    exact ⟨path, hpath, by rw [hlines]; rfl⟩

namespace Verifier

variable (v : Verifier) (r : Rounding) (t : Tree) (root : Location)

/-- What is loaded from a shelf is what can be read. -/
theorem loaded_of_shelf {paths : List String} {shelf : Shelf} (h : t.shelf root paths = .ok shelf) :
    loaded shelf = t.readable root paths := by
  induction paths generalizing shelf with
  | nil =>
      obtain rfl : [] = shelf := Except.ok.inj h
      rfl
  | cons path rest ih =>
      rw [Tree.shelf_cons] at h
      obtain ⟨ls?, hls, h⟩ := bind_eq_ok_iff.1 h
      obtain ⟨more, hmore, h⟩ := bind_eq_ok_iff.1 h
      obtain rfl : (path, ls?) :: more = shelf := Except.ok.inj h
      have hrest := ih hmore
      rw [loaded, Tree.readable] at hrest ⊢
      rw [List.filterMap_cons, List.filterMap_cons, hrest, hls]
      rfl

/-! ## What becomes of the kept comments -/

/-- What relocation makes of kept comments: each one stays, or is moved to its best match if that is
    another line, with a record of where it was found. -/
inductive Relocated (o : PlacementOptions) (files : LoadedFiles) :
    List Comment → List Moved → List Comment → Prop where
  | nil : Relocated o files [] [] []
  | stays {c : Comment} {kept : List Comment} {moved : List Moved} {final : List Comment}
      (hbest : ∀ m, c.IsBestMatch r o files m → m.file = c.path ∧ (m.line : Int) = c.line)
      (hrest : Relocated o files kept moved final) :
      Relocated o files (c :: kept) moved (c :: final)
  | moves {c : Comment} {m : LineMatch} {kept : List Comment} {moved : List Moved}
      {final : List Comment} (hbest : c.IsBestMatch r o files m)
      (hplace : m.file ≠ c.path ∨ (m.line : Int) ≠ c.line)
      (hrest : Relocated o files kept moved final) :
      Relocated o files (c :: kept) (⟨c.movedTo m.file m.line, ⟨c.file, c.line⟩, m.score⟩ :: moved)
        (c.movedTo m.file m.line :: final)

variable {r t root} {o : PlacementOptions} {files : LoadedFiles} {kept final : List Comment}
  {moved : List Moved}

/-- What is answered for a kept comment is that comment, wherever it stands. -/
theorem Relocated.forall₂ (h : Relocated r o files kept moved final) :
    List.Forall₂ (fun found c => ∃ file line, c = found.movedTo file line) kept final := by
  induction h with
  | nil => exact .nil
  | stays _ _ ih => exact .cons ⟨_, _, rfl⟩ ih
  | moves _ _ _ ih => exact .cons ⟨_, _, rfl⟩ ih

theorem Relocated.length_eq (h : Relocated r o files kept moved final) :
    final.length = kept.length :=
  h.forall₂.length_eq.symm

/-- A comment is moved only where its match is good enough. -/
theorem Relocated.minConfidence_le (h : Relocated r o files kept moved final) :
    ∀ m ∈ moved, o.minConfidence ≤ m.confidence := by
  induction h with
  | nil => exact fun m hm => nomatch hm
  | stays _ _ ih => exact ih
  | moves hbest _ _ ih => exact List.forall_mem_cons.2 ⟨hbest.2, ih⟩

/-- What holds of kept comments that stay and of best matches holds of all answered ones. -/
theorem Relocated.forall_mem {P : Comment → Prop} (h : Relocated r o files kept moved final)
    (hkept : ∀ c ∈ kept, P c)
    (hmoved : ∀ c ∈ kept, ∀ m, c.IsBestMatch r o files m → P (c.movedTo m.file m.line)) :
    ∀ c ∈ final, P c := by
  induction h with
  | nil => exact fun c hc => nomatch hc
  | stays _ _ ih =>
      obtain ⟨hc, hkept⟩ := List.forall_mem_cons.1 hkept
      exact List.forall_mem_cons.2 ⟨hc, ih hkept fun c hc => hmoved c (List.mem_cons_of_mem _ hc)⟩
  | moves hbest _ _ ih =>
      refine List.forall_mem_cons.2 ⟨hmoved _ List.mem_cons_self _ hbest, ?_⟩
      exact ih (List.forall_mem_cons.1 hkept).2 fun c hc => hmoved c (List.mem_cons_of_mem _ hc)

/-- A comment is moved to its best match if that is another line. -/
theorem relocation_eq_some_iff (hmost : 0 < o.maxMatches) {c : Comment} {record : Moved} :
    relocation r o files c = some record ↔
      ∃ m, c.IsBestMatch r o files m ∧ (m.file ≠ c.path ∨ (m.line : Int) ≠ c.line) ∧
        record = ⟨c.movedTo m.file m.line, ⟨c.file, c.line⟩, m.score⟩ := by
  rw [relocation, Option.filter_eq_some_iff, Comment.moved?, Option.map_eq_some_iff]
  simp only [Comment.suggested_eq_some_iff hmost, Bool.or_eq_true, decide_eq_true_eq]
  constructor
  · rintro ⟨⟨m, hbest, rfl⟩, hplace⟩
    exact ⟨m, hbest, hplace, rfl⟩
  · rintro ⟨m, hbest, hplace, rfl⟩
    exact ⟨⟨m, hbest, rfl⟩, hplace⟩

theorem relocation_eq_none_iff (hmost : 0 < o.maxMatches) {c : Comment} :
    relocation r o files c = none ↔
      ∀ m, c.IsBestMatch r o files m → m.file = c.path ∧ (m.line : Int) = c.line := by
  rw [Option.eq_none_iff_forall_ne_some]
  simp only [ne_eq, relocation_eq_some_iff hmost]
  constructor
  · -- a best match at another place would be a place to move to
    intro h m hbest
    by_contra hplace
    exact h _ ⟨m, hbest, Decidable.not_and_iff_or_not.1 hplace, rfl⟩
  · rintro h record ⟨m, hbest, hplace, -⟩
    obtain ⟨hfile, hline⟩ := h m hbest
    exact hplace.elim (absurd hfile) (absurd hline)

/-- The kept comments are relocated one by one. -/
theorem relocated_map (hmost : 0 < o.maxMatches) (kept : List Comment) :
    Relocated r o files kept
      ((kept.map fun c => (c, relocation r o files c)).filterMap (·.2))
      ((kept.map fun c => (c, relocation r o files c)).map fun p => (p.2.map (·.comment)).getD p.1) := by
  induction kept with
  | nil => exact .nil
  | cons c rest ih =>
      rw [List.map_cons, List.filterMap_cons, List.map_cons]
      -- both lists look at the same answer for `c`
      cases hmoved : relocation r o files c with
      | none => exact .stays ((relocation_eq_none_iff hmost).1 hmoved) ih
      | some record =>
          obtain ⟨m, hbest, hplace, rfl⟩ := (relocation_eq_some_iff hmost).1 hmoved
          exact .moves hbest hplace ih

/-! ## Verification with and without relocation -/

/-- The verifier that relocates nothing. -/
def unmoved : Verifier := { v with options := { v.options with relocate := false } }

theorem decisions_unmoved (shelf : Shelf) (kept cs : List Comment) :
    v.unmoved.decisions r shelf kept cs = v.decisions r shelf kept cs := by
  induction cs generalizing kept with
  | nil => rfl
  | cons c rest ih =>
      -- the reasons of `c` read every option but the one that differs
      rw [decisions, decisions, ih]
      rfl

theorem verdictOn_unmoved (hplace : v.options.placement = some o) (shelf : Shelf)
    (comments : List Comment) :
    v.unmoved.verdictOn r shelf comments
      = ⟨keptOf (v.decisions r shelf [] comments), droppedOf (v.decisions r shelf [] comments), [],
          comments.filterMap (·.misplaced? r o (loaded shelf))⟩ := by
  have hplace' : v.unmoved.options.placement = some o := hplace
  have hmove' : v.unmoved.options.relocate = false := rfl
  simp only [verdictOn, hplace', hmove', decisions_unmoved]
  rfl

theorem verdictOn_relocating (hplace : v.options.placement = some o)
    (hmove : v.options.relocate = true) (shelf : Shelf) (comments : List Comment) :
    v.verdictOn r shelf comments
      = ⟨((keptOf (v.decisions r shelf [] comments)).map fun c =>
            (c, relocation r o (loaded shelf) c)).map fun p => (p.2.map (·.comment)).getD p.1,
          droppedOf (v.decisions r shelf [] comments),
          ((keptOf (v.decisions r shelf [] comments)).map fun c =>
            (c, relocation r o (loaded shelf) c)).filterMap (·.2),
          comments.filterMap (·.misplaced? r o (loaded shelf))⟩ := by
  simp only [verdictOn, hplace, hmove]
  rfl

/-- The files that matter are named by their normal spellings. -/
theorem normalized_of_mem_filesNeeded {comments : List Comment} {path : String}
    (h : path ∈ v.filesNeeded comments) : Path.normalized path = path := by
  obtain ⟨file, -, rfl⟩ := List.mem_map.1 (List.mem_eraseDups.1 h)
  exact Path.normalized_normalized file

/-- Where a comment has its best match there is a line of a file that matters. -/
theorem stands_movedTo {c : Comment} {m : LineMatch} {comments : List Comment}
    (h : c.IsBestMatch r o (t.readable root (v.filesNeeded comments)) m) :
    (c.movedTo m.file m.line).HasLine t root ∧
      (c.movedTo m.file m.line).path ∈ v.filesNeeded comments := by
  obtain ⟨lines, hfile, hfirst, hlast⟩ := LoadedFiles.exists_file_of_mem_allLines h.1.mem
  obtain ⟨hneeded, hlines⟩ := Tree.mem_readable_iff.1 hfile
  have hpath : (c.movedTo m.file m.line).path = m.file := v.normalized_of_mem_filesNeeded hneeded
  have hline : (c.movedTo m.file m.line).line = m.line := rfl
  rw [hpath]
  refine ⟨⟨lines, by rw [hpath, hlines], ?_, ?_⟩, hneeded⟩
  · rw [hline]
    omega
  · rw [hline]
    omega

/-- The comments kept without relocation pass every check, with those kept before them at hand. -/
theorem not_fails_of_unmoved (hplace : v.options.placement = some o) {comments : List Comment}
    {before : Verdict} (h : v.unmoved.verdict r t root comments = .ok before)
    {front back : List Comment} {c : Comment} (hkept : before.kept = front ++ c :: back)
    (reason : DropReason) : ¬v.Fails r t root front c reason := by
  obtain ⟨shelf, hshelf, h⟩ := bind_eq_ok_iff.1 h
  obtain rfl : v.unmoved.verdictOn r shelf comments = before := Except.ok.inj h
  rw [v.verdictOn_unmoved hplace] at hkept
  obtain ⟨hin, hreasons⟩ := v.reasons_of_keptOf r shelf hkept
  have hneeded := (v.forall_mem_filesNeeded_iff comments (· ∈ v.filesNeeded comments)).1 fun _ h => h
  have hlines := Tree.lines_of_shelf t root hshelf (hneeded.1 c hin)
  exact not_fails_of_reasons v r t root hlines hreasons reason

/-- The comments that are kept without relocation are relocated with it. -/
theorem relocated_verdictOn (hplace : v.options.placement = some o) (hmost : 0 < o.maxMatches)
    (hmove : v.options.relocate = true) {comments : List Comment} {shelf : Shelf}
    (hshelf : t.shelf root (v.filesNeeded comments) = .ok shelf) :
    Relocated r o (t.readable root (v.filesNeeded comments))
      (v.unmoved.verdictOn r shelf comments).kept (v.verdictOn r shelf comments).moved
      (v.verdictOn r shelf comments).kept := by
  rw [v.verdictOn_unmoved hplace, v.verdictOn_relocating hplace hmove,
    ← loaded_of_shelf t root hshelf]
  exact relocated_map hmost _

/-- Wherever a kept comment ends, there is a line of a file that matters. -/
theorem stands_of_mem_kept (hmost : ∀ o ∈ v.options.placement, 0 < o.maxMatches)
    {comments : List Comment} {shelf : Shelf}
    (hshelf : t.shelf root (v.filesNeeded comments) = .ok shelf) :
    ∀ c ∈ (v.verdictOn r shelf comments).kept, c.HasLine t root ∧ c.path ∈ v.filesNeeded comments := by
  have hfound : ∀ c ∈ keptOf (v.decisions r shelf [] comments),
      c.HasLine t root ∧ c.path ∈ v.filesNeeded comments := by
    intro c hc
    obtain ⟨front, back, hkept⟩ := List.append_of_mem hc
    obtain ⟨hin, hreasons⟩ := v.reasons_of_keptOf r shelf hkept
    have hneeded := v.path_mem_filesNeeded hin
    have hlines := Tree.lines_of_shelf t root hshelf hneeded
    have hpasses := not_fails_of_reasons v r t root hlines hreasons .invalidLocation
    exact ⟨Classical.not_not.1 hpasses, hneeded⟩
  by_cases hstill : v.options.placement = none ∨ v.options.relocate = false
  · rw [(v.kept_verdictOn r hstill shelf comments).1]
    exact hfound
  · obtain ⟨hplace, hmove⟩ := not_or.1 hstill
    obtain ⟨o, hplace⟩ := Option.ne_none_iff_exists'.1 hplace
    have hrelocated := v.relocated_verdictOn (r := r) hplace (hmost o hplace)
      (Bool.eq_true_of_not_eq_false hmove) hshelf
    refine hrelocated.forall_mem ?_ fun c _ m hbest => v.stands_movedTo hbest
    rw [v.verdictOn_unmoved hplace]
    exact hfound

theorem forall_mem_placement (hplace : v.options.placement = some o) (hmost : 0 < o.maxMatches) :
    ∀ o' ∈ v.options.placement, 0 < o'.maxMatches := by
  rw [hplace]
  exact fun o' ho' => Option.some.inj ho' ▸ hmost

/-- **Relocation changes only locations.** Where verification without relocation has an answer, so has
    verification with it: the same comments are dropped and misplaced, each of the kept ones stays or
    is moved to its best match, and all of them stand at lines of files that can be read. -/
theorem verdict_relocated (hplace : v.options.placement = some o) (hmost : 0 < o.maxMatches)
    (hmove : v.options.relocate = true) (comments : List Comment) :
    (∀ fault, v.unmoved.verdict r t root comments = .error fault →
        v.verdict r t root comments = .error fault) ∧
      ∀ before, v.unmoved.verdict r t root comments = .ok before →
        ∃ after, v.verdict r t root comments = .ok after ∧
          after.dropped = before.dropped ∧ after.misplaced = before.misplaced ∧
          after.kept.length = before.kept.length ∧
          Relocated r o (t.readable root (v.filesNeeded comments)) before.kept after.moved after.kept ∧
          (∀ m ∈ after.moved, o.minConfidence ≤ m.confidence) ∧
          ∀ c ∈ after.kept, c.HasLine t root := by
  -- both read the same shelf, so they have an answer or not together
  constructor
  · intro fault hfault
    obtain hshelf | ⟨shelf, -, h⟩ := bind_eq_error_iff.1 hfault
    · exact bind_eq_error_iff.2 (.inl hshelf)
    · cases h
  · intro before hbefore
    obtain ⟨shelf, hshelf, h⟩ := bind_eq_ok_iff.1 hbefore
    obtain rfl : v.unmoved.verdictOn r shelf comments = before := Except.ok.inj h
    have hafter : v.verdict r t root comments = .ok (v.verdictOn r shelf comments) :=
      bind_eq_ok_iff.2 ⟨shelf, hshelf, rfl⟩
    have hrelocated := v.relocated_verdictOn (r := r) hplace hmost hmove hshelf
    have hstands := v.stands_of_mem_kept (r := r) (v.forall_mem_placement hplace hmost) hshelf
    refine ⟨_, hafter, ?_, ?_, hrelocated.length_eq, hrelocated, hrelocated.minConfidence_le,
      fun c hc => (hstands c hc).1⟩
    · rw [v.verdictOn_unmoved hplace, v.verdictOn_relocating hplace hmove]
    · rw [v.verdictOn_unmoved hplace, v.verdictOn_relocating hplace hmove]

/-- Two files, one of them with two lines. -/
def twoFiles : Tree := (Tree.empty.write ["b"] ⟨#[]⟩).write ["c"] "x\ny".toUTF8

/-- Their lines. -/
def twoShelf : Shelf := [("c", some ["x", "y"]), ("b", some [""])]

/-- A verifier that moves comments to lines that say the same. -/
def mover : Verifier := ⟨⟨[], 0, [], 1, some ⟨1, 1, false⟩, true, []⟩, []⟩

/-- One comment that stands where it belongs, and one that does not. -/
def twoComments : List Comment :=
  [⟨"c", 1, .minor, "naming", "x", ""⟩, ⟨"./b", 1, .minor, "naming", "y", ""⟩]

theorem shelf_twoFiles : twoFiles.shelf [] (mover.filesNeeded twoComments) = .ok twoShelf := by cbv

theorem verdict_twoFiles : mover.verdict .binary64 twoFiles [] twoComments
    = .ok (mover.verdictOn .binary64 twoShelf twoComments) :=
  bind_eq_ok_iff.2 ⟨twoShelf, shelf_twoFiles, rfl⟩

theorem verdict_twoFiles_unmoved : mover.unmoved.verdict .binary64 twoFiles [] twoComments
    = .ok (mover.unmoved.verdictOn .binary64 twoShelf twoComments) :=
  bind_eq_ok_iff.2 ⟨twoShelf, shelf_twoFiles, rfl⟩

theorem kept_twoFiles :
    (mover.unmoved.verdictOn .binary64 twoShelf twoComments).kept = twoComments := by decide +kernel

theorem moved_twoFiles : (mover.verdictOn .binary64 twoShelf twoComments).moved
    = [⟨⟨"c", 2, .minor, "naming", "y", ""⟩, ⟨"./b", 1⟩, 1⟩] := by decide +kernel

/-- Both comments are kept, and the second is moved next to the first. -/
theorem verdict_relocated_twoFiles :
    mover.options.placement = some ⟨1, 1, false⟩ ∧ (0 : Int) < 1 ∧ mover.options.relocate = true ∧
      ∃ before after, mover.unmoved.verdict .binary64 twoFiles [] twoComments = .ok before ∧
        mover.verdict .binary64 twoFiles [] twoComments = .ok after ∧ before.kept = twoComments ∧
        after.moved = [⟨⟨"c", 2, .minor, "naming", "y", ""⟩, ⟨"./b", 1⟩, 1⟩] ∧
        Relocated .binary64 ⟨1, 1, false⟩ (twoFiles.readable [] (mover.filesNeeded twoComments))
          before.kept after.moved after.kept ∧
        ∀ c ∈ after.kept, c.HasLine twoFiles [] := by
  obtain ⟨after, hverdict, -, -, -, hrelocated, -, hlines⟩ :=
    (verdict_relocated mover (o := ⟨1, 1, false⟩) rfl (by decide) rfl twoComments).2 _
      verdict_twoFiles_unmoved
  obtain rfl := Except.ok.inj (verdict_twoFiles.symm.trans hverdict)
  exact ⟨rfl, by decide, rfl, _, _, verdict_twoFiles_unmoved, verdict_twoFiles, kept_twoFiles,
    moved_twoFiles, hrelocated, hlines⟩

end Verifier

end PatchReview
