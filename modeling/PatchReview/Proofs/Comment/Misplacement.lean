import Mathlib
import PatchReview.Proofs.Comment.Relocation

/-!
# Which comments are reported as misplaced

Misplaced comments are looked for among all that are verified, whatever is decided of them: those that are
dropped are looked at as those that are kept, each where it was found. The report lists, in the order in
which they came, exactly the comments whose best match is in another file or too many lines away
(`verdict_misplaced`). So a comment can be dropped and reported all the same
(`verdict_misplaced_dropped`).
-/

namespace PatchReview

open PatchReview.Number (Rounding)

namespace Comment

variable {r : Rounding} {o : PlacementOptions} {files : LoadedFiles} {c : Comment}

/-- Whether the best match of a comment is in another file, or more than five lines away. -/
def BelongsElsewhere (r : Rounding) (o : PlacementOptions) (files : LoadedFiles) (c : Comment) : Prop :=
  ∃ m, c.IsBestMatch r o files m ∧ (m.file ≠ c.path ∨ 5 < ((m.line : Int) - c.line).natAbs)

/-- A report names the comment, where it was found, and a best match that is elsewhere. -/
structure IsReport (r : Rounding) (o : PlacementOptions) (files : LoadedFiles) (x : Misplaced) : Prop where
  found     : x.found = ⟨x.comment.file, x.comment.line⟩
  best      : x.comment.IsBestMatch r o files x.suggested
  elsewhere : x.suggested.file ≠ x.comment.path ∨
    5 < ((x.suggested.line : Int) - x.comment.line).natAbs

/-- A comment that is reported is reported as itself. -/
theorem isReport_of_misplaced? (hmost : 0 < o.maxMatches) {x : Misplaced}
    (h : c.misplaced? r o files = some x) : x.comment = c ∧ IsReport r o files x := by
  rw [misplaced?] at h
  cases hbest : (c.placement r o files).suggested with
  | none => simp [hbest] at h
  | some m =>
      simp only [hbest] at h
      split at h
      · cases h
      rename_i hplace
      obtain rfl := Option.some.inj h
      refine ⟨rfl, rfl, (suggested_eq_some_iff hmost).1 hbest, ?_⟩
      rw [Decidable.not_and_iff_or_not] at hplace
      exact hplace.imp id Nat.not_le.1

/-- A comment is reported exactly if it belongs elsewhere. -/
theorem isSome_misplaced?_iff (hmost : 0 < o.maxMatches) :
    (c.misplaced? r o files).isSome = true ↔ c.BelongsElsewhere r o files := by
  constructor
  · intro h
    obtain ⟨x, hx⟩ := Option.isSome_iff_exists.1 h
    obtain ⟨rfl, hreport⟩ := isReport_of_misplaced? hmost hx
    exact ⟨x.suggested, hreport.best, hreport.elsewhere⟩
  · rintro ⟨m, hbest, hplace⟩
    rw [misplaced?]
    simp only [(suggested_eq_some_iff hmost).2 hbest]
    rw [if_neg]
    · rfl
    · rintro ⟨hfile, hline⟩
      exact hplace.elim (absurd hfile) (Nat.not_lt.2 hline)

open Classical in
/-- **The comments that are reported are those that belong elsewhere**, in the order in which they came. -/
theorem map_comment_misplaced? (hmost : 0 < o.maxMatches) (cs : List Comment) :
    (cs.filterMap (·.misplaced? r o files)).map (·.comment)
      = cs.filter fun c => c.BelongsElsewhere r o files := by
  induction cs with
  | nil => rfl
  | cons c rest ih =>
      rw [List.filterMap_cons, List.filter_cons]
      cases hreport : c.misplaced? r o files with
      | none =>
          have hstays : ¬c.BelongsElsewhere r o files := by
            rw [← isSome_misplaced?_iff hmost, hreport]
            exact Bool.false_ne_true
          rw [if_neg (by simpa using hstays), ih]
      | some x =>
          have hmoves : c.BelongsElsewhere r o files := by
            rw [← isSome_misplaced?_iff hmost, hreport]
            rfl
          rw [if_pos (by simpa using hmoves), List.map_cons, ih, (isReport_of_misplaced? hmost hreport).1]

end Comment

namespace Verifier

variable {v : Verifier} {r : Rounding} {t : Tree} {root : Location} {o : PlacementOptions}

/-- What is dropped was among the comments. -/
theorem comment_mem_of_dropped {comments : List Comment} {d : Verdict}
    (h : v.verdict r t root comments = .ok d) : ∀ x ∈ d.dropped, x.comment ∈ comments := by
  obtain ⟨shelf, -, rfl⟩ := verdict_eq_ok_iff.1 h
  rw [dropped_verdictOn]
  intro x hx
  obtain ⟨decided, hdecided, rfl⟩ := List.mem_map.1 hx
  rw [← v.map_fst_decisions r shelf [] comments]
  exact List.mem_map_of_mem (List.mem_filter.1 hdecided).1

open Classical in
/-- **Misplaced comments are reported whether they are kept or dropped.** Where comments are placed and
    verification has an answer, the comments it reports are, in the order in which they came and as they
    came, exactly those whose best match is in another file or more than five lines away. In particular a
    comment that is dropped is reported exactly if that holds of it. -/
theorem verdict_misplaced (hplace : v.options.placement = some o) (hmost : 0 < o.maxMatches)
    {comments : List Comment} {d : Verdict} (h : v.verdict r t root comments = .ok d) :
    d.misplaced.map (·.comment)
        = comments.filter (fun c =>
            c.BelongsElsewhere r o (t.readable root (v.filesNeeded comments))) ∧
      (∀ x ∈ d.misplaced, Comment.IsReport r o (t.readable root (v.filesNeeded comments)) x) ∧
      ∀ x ∈ d.dropped, x.comment ∈ d.misplaced.map (·.comment) ↔
        x.comment.BelongsElsewhere r o (t.readable root (v.filesNeeded comments)) := by
  have hfrom := comment_mem_of_dropped h
  obtain ⟨shelf, hshelf, rfl⟩ := verdict_eq_ok_iff.1 h
  have hmisplaced : (v.verdictOn r shelf comments).misplaced
      = comments.filterMap (·.misplaced? r o (t.readable root (v.filesNeeded comments))) := by
    rw [misplaced_verdictOn, hplace, ← loaded_of_shelf t root hshelf]
    rfl
  rw [hmisplaced, Comment.map_comment_misplaced? hmost]
  refine ⟨rfl, ?_, ?_⟩
  · intro x hx
    obtain ⟨c, -, hc⟩ := List.mem_filterMap.1 hx
    exact (Comment.isReport_of_misplaced? hmost hc).2
  · intro x hx
    rw [List.mem_filter, decide_eq_true_eq]
    exact and_iff_right (hfrom x hx)

/-- A verifier that wants suggestions and moves nothing. -/
def reporter : Verifier := ⟨⟨[], 1, [], 1, some ⟨1, 1, false⟩, false, []⟩, []⟩

/-- A comment in `b` that speaks of the second line of `c`, one that stands where it belongs, and the first
    one again, without a suggestion. -/
def strayComments : List Comment :=
  [⟨"b", 1, .minor, "naming", "y", "Rename it."⟩, ⟨"c", 1, .minor, "naming", "x", "Rename it."⟩,
    ⟨"./b", 1, .minor, "naming", "y", ""⟩]

theorem verdict_strayComments : reporter.verdict .binary64 twoFiles [] strayComments
    = .ok (reporter.verdictOn .binary64 [("b", some [""]), ("c", some ["x", "y"])] strayComments) :=
  verdict_eq_ok_iff.2 ⟨[("b", some [""]), ("c", some ["x", "y"])], by cbv, rfl⟩

theorem verdictOn_strayComments :
    reporter.verdictOn .binary64 [("b", some [""]), ("c", some ["x", "y"])] strayComments
      = ⟨strayComments.take 2, [⟨⟨"./b", 1, .minor, "naming", "y", ""⟩, [.weakSuggestion, .duplicate]⟩], [],
          [⟨⟨"b", 1, .minor, "naming", "y", "Rename it."⟩, ⟨"b", 1⟩, ⟨"c", 2, "y", 1⟩, []⟩,
            ⟨⟨"./b", 1, .minor, "naming", "y", ""⟩, ⟨"./b", 1⟩, ⟨"c", 2, "y", 1⟩, []⟩]⟩ := by
  decide +kernel

open Classical in
/-- The first comment is kept and reported, and the last is reported though it is dropped. -/
theorem verdict_misplaced_strayComments :
    reporter.options.placement = some ⟨1, 1, false⟩ ∧ (0 : Int) < 1 ∧
      ∃ d, reporter.verdict .binary64 twoFiles [] strayComments = .ok d ∧ d.kept = strayComments.take 2 ∧
        d.misplaced.map (·.comment) = [⟨"b", 1, .minor, "naming", "y", "Rename it."⟩,
          ⟨"./b", 1, .minor, "naming", "y", ""⟩] ∧
        d.misplaced.map (·.comment)
          = strayComments.filter (fun c => c.BelongsElsewhere .binary64 ⟨1, 1, false⟩
              (twoFiles.readable [] (reporter.filesNeeded strayComments))) ∧
        ∀ x ∈ d.dropped, x.comment ∈ d.misplaced.map (·.comment) ↔
          x.comment.BelongsElsewhere .binary64 ⟨1, 1, false⟩
            (twoFiles.readable [] (reporter.filesNeeded strayComments)) := by
  obtain ⟨hreported, -, hdropped⟩ :=
    verdict_misplaced (o := ⟨1, 1, false⟩) rfl (by decide) verdict_strayComments
  refine ⟨rfl, by decide, _, verdict_strayComments, ?_, ?_, hreported, hdropped⟩
  · rw [verdictOn_strayComments]
  · rw [verdictOn_strayComments]
    rfl

/-- Not every comment that is reported is kept: one that says nothing of substance is dropped, and
    reported as well. -/
theorem verdict_misplaced_dropped :
    let c : Comment := ⟨"b", 1, .minor, "naming", "y", ""⟩
    ∃ d, reporter.verdict .binary64 twoFiles [] [⟨"c", 1, .minor, "naming", "x", "Rename it."⟩, c] = .ok d ∧
      d.dropped = [⟨c, [.weakSuggestion]⟩] ∧ c ∉ d.kept ∧ d.misplaced.map (·.comment) = [c] := by
  refine ⟨_, verdict_eq_ok_iff.2 ⟨[("c", some ["x", "y"]), ("b", some [""])], by cbv, rfl⟩, ?_⟩
  decide +kernel

end Verifier

end PatchReview
