import PatchReview.Proofs.Chunk.Packing
import PatchReview.Proofs.Comment.Filtering
import PatchReview.Proofs.Comment.Intake
import PatchReview.Proofs.Comment.Online
import PatchReview.Proofs.Diff.WellFormed
import PatchReview.Proofs.Graph.Containment
import PatchReview.Proofs.Graph.Hotspots
import PatchReview.Review

/-!
# What a review says

A review joins the parts of the system, and what is proved of each part holds in it together. With
settings within their limits, as all are that were read (`Settings.isValid_of_read`), a review is given
exactly if the patch is read, the repository can be surveyed, the remarks on changed files are texts, and
the paths that matter can be followed (`exists_ofTexts_iff`).

A review that is given accounts for all it was asked (`accounts_of_ofTexts`): every hunk is in one chunk,
every comment on a changed file is kept or is dropped for a reason, and a kept comment ends at a line of
a changed file, wherever it was moved.
-/

namespace PatchReview

/-! ## Settings -/

/-- Whether settings lie within their limits. -/
structure Settings.IsValid (s : Settings) : Prop where
  chunkBudget     : 0 < s.chunkBudget
  relevanceBudget : 0 < s.relevanceBudget
  hotspotLimit    : 0 < s.hotspotLimit
  workers         : 0 < s.workers
  minSuggestion   : 0 ≤ s.minSuggestion
  duplicateWindow : 0 ≤ s.duplicateWindow
  minConfidence   : 0 < s.minConfidence ∧ s.minConfidence ≤ 1
  maxMatches      : 0 < s.maxMatches

/-- **Settings that are read lie within their limits**, wherever they were set. -/
theorem Settings.isValid_of_read {members : List (String × Json)} {environment : List (String × String)}
    {fileText : Option String} {s : Settings} (h : read members environment fileText = .ok s) :
    s.IsValid := by
  have habove {name : String} {usual n : Int} {j : Json} (husual : 0 < usual)
      (h : Record.withDefault name (Record.integerAbove 0) usual j = .ok n) : 0 < n :=
    Record.of_withDefault h husual fun _ _ => Record.lt_of_integerAbove
  have hatLeast {name : String} {usual n : Int} {j : Json} (husual : 0 ≤ usual)
      (h : Record.withDefault name (Record.integerAtLeast 0) usual j = .ok n) : 0 ≤ n :=
    Record.of_withDefault h husual fun _ _ => Record.le_of_integerAtLeast
  obtain ⟨_, _, h₉, hmatches, rfl⟩ := Record.Checked.seq_eq_ok_iff.1 h
  obtain ⟨_, _, h₈, hconfidence, rfl⟩ := Record.Checked.seq_eq_ok_iff.1 h₉
  obtain ⟨_, _, h₇, -, rfl⟩ := Record.Checked.seq_eq_ok_iff.1 h₈
  obtain ⟨_, _, h₆, -, rfl⟩ := Record.Checked.seq_eq_ok_iff.1 h₇
  obtain ⟨_, _, h₅, hwindow, rfl⟩ := Record.Checked.seq_eq_ok_iff.1 h₆
  obtain ⟨_, _, h₄, hsuggestion, rfl⟩ := Record.Checked.seq_eq_ok_iff.1 h₅
  obtain ⟨_, _, h₃, hworkers, rfl⟩ := Record.Checked.seq_eq_ok_iff.1 h₄
  obtain ⟨_, _, h₂, hlimit, rfl⟩ := Record.Checked.seq_eq_ok_iff.1 h₃
  obtain ⟨_, _, h₁, hrelevance, rfl⟩ := Record.Checked.seq_eq_ok_iff.1 h₂
  obtain ⟨_, hchunk, rfl⟩ := Record.Checked.map_eq_ok_iff.1 h₁
  exact {
    chunkBudget := habove (by decide) hchunk
    relevanceBudget := habove (by decide) hrelevance
    hotspotLimit := habove (by decide) hlimit
    workers := habove (by decide) hworkers
    minSuggestion := hatLeast (by decide) hsuggestion
    duplicateWindow := hatLeast (by decide) hwindow
    minConfidence := Record.of_withDefault (P := fun q : Rat => 0 < q ∧ q ≤ 1) hconfidence
      (by decide +kernel) fun _ _ hshare => ⟨Record.pos_of_share hshare, Record.le_one_of_share hshare⟩
    maxMatches := habove (by decide) hmatches }

/-- Valid settings give options that a survey accepts. -/
theorem Settings.IsValid.checked {s : Settings} (hs : s.IsValid) : s.survey.checked = .ok s.survey := by
  have hbudget : 0 < s.survey.relevanceBudget := hs.relevanceBudget
  have hlimit : 0 < s.survey.hotspotLimit := hs.hotspotLimit
  have hworkers : 0 < s.survey.workers := hs.workers
  rw [SurveyOptions.checked, requirePositive_of_pos hbudget, requirePositive_of_pos hlimit,
    requirePositive_of_pos hworkers]
  rfl

/-- The suggestions that say nothing are expressions that can be read. -/
theorem exists_ofOptions_ofSettings (s : Settings) (definitions : List (String × List String))
    (candidates : List String) : ∃ generic,
      Verifier.ofOptions (.ofSettings s definitions candidates)
        = .ok ⟨.ofSettings s definitions candidates, generic⟩ := by
  have hreads : (genericSuggestions.mapM fun text =>
      (Regex.read text).mapError (BadExpression.mk text)).isOk = true := by decide +kernel
  cases hgeneric : genericSuggestions.mapM fun text =>
      (Regex.read text).mapError (BadExpression.mk text) with
  | error e =>
      rw [hgeneric] at hreads
      exact nomatch hreads
  | ok generic => exact ⟨generic, bind_eq_ok_iff.2 ⟨generic, hgeneric, rfl⟩⟩

theorem Verifier.options_of_ofOptions {o : VerifyOptions} {v : Verifier} (h : ofOptions o = .ok v) :
    v.options = o := by
  obtain ⟨generic, -, h⟩ := bind_eq_ok_iff.1 h
  exact Except.ok.inj h ▸ rfl

/-- Under valid settings at least one match is kept wherever comments are placed. -/
theorem Settings.IsValid.maxMatches_pos {s : Settings} (hs : s.IsValid)
    {definitions : List (String × List String)} {candidates : List String} :
    ∀ o ∈ (VerifyOptions.ofSettings s definitions candidates).placement, 0 < o.maxMatches := by
  intro o ho
  obtain ⟨-, rfl⟩ : s.fuzzy = true ∧ ⟨s.minConfidence, s.maxMatches, true⟩ = o := by
    simpa [VerifyOptions.ofSettings] using ho
  exact hs.maxMatches

/-! ## Comments -/

namespace Verifier

variable {v : Verifier} {r : Number.Rounding} {t : Tree} {root : Location}

/-- Every comment is kept, as it came or moved, or is dropped for a reason. -/
theorem exists_found_of_verdict {comments : List Comment} {d : Verdict}
    (h : v.verdict r t root comments = .ok d) :
    ∃ found, List.Forall₂ (v.Answers d.moved) found d.kept ∧
      (found ++ d.dropped.map (·.comment)).Perm comments ∧ ∀ x ∈ d.dropped, x.reasons ≠ [] := by
  obtain ⟨shelf, -, rfl⟩ := verdict_eq_ok_iff.1 h
  refine ⟨_, v.answers_verdictOn r shelf comments, ?_, ?_⟩
  · rw [v.dropped_verdictOn r shelf comments]
    have hsplit := (List.filter_append_perm (·.2.isEmpty) (v.decisions r shelf [] comments)).map (·.1)
    rw [List.map_append, v.map_fst_decisions] at hsplit
    simpa only [keptOf, droppedOf, List.map_map, Function.comp_def] using hsplit
  · intro x hx
    rw [v.dropped_verdictOn r shelf comments] at hx
    obtain ⟨⟨c, why⟩, hd, rfl⟩ := List.mem_map.1 hx
    simpa using (List.mem_filter.1 hd).2

end Verifier

/-! ## Reviews -/

namespace Review

variable {r : Number.Rounding} {s : Settings} {t : Tree} {root : Location} {patch comments : String}
  {d : Diff} {cs : List Comment} {review : Review}

/-- Whether comments are those that a text holds on the files of a diff, with texts as remarks. -/
def IsAbout (cs : List Comment) (d : Diff) (comments : String) : Prop :=
  List.Forall₂ (fun found c => found.worded? = some c)
    (Comment.inFiles d.paths (Comment.ofText comments)) cs

theorem worded_eq_ok_iff {found : CommentOf Json.Literal} {c : Comment} :
    worded found = .ok c ↔ found.worded? = some c := by
  rw [worded]
  cases found.worded? <;> simp

/-- A comment keeps its file where its remarks are texts. -/
theorem file_of_worded {found : CommentOf Json.Literal} {c : Comment} (h : found.worded? = some c) :
    c.file = found.file := by
  simp only [CommentOf.worded?, Option.bind_eq_bind, Option.bind_eq_some_iff, Option.pure_def,
    Option.some.injEq] at h
  obtain ⟨_, -, _, -, _, -, rfl⟩ := h
  rfl

theorem IsAbout.map_file (h : IsAbout cs d comments) :
    cs.map (·.file) = (Comment.inFiles d.paths (Comment.ofText comments)).map (·.file) :=
  map_eq_of_forall₂ h fun _ _ => file_of_worded

theorem IsAbout.file_mem (h : IsAbout cs d comments) : ∀ c ∈ cs, c.file ∈ d.paths := by
  have hfiles : ∀ file ∈ cs.map (·.file), file ∈ d.paths := by
    rw [h.map_file]
    exact List.forall_mem_map.2 fun found hfound => (Comment.mem_inFiles_iff.1 hfound).2
  exact fun c hc => hfiles _ (List.mem_map_of_mem hc)

theorem exists_isAbout_iff : (∃ cs, IsAbout cs d comments) ↔
    ∀ found ∈ Comment.inFiles d.paths (Comment.ofText comments), found.worded?.isSome = true := by
  simp only [IsAbout, Option.isSome_iff_exists]
  induction Comment.inFiles d.paths (Comment.ofText comments) with
  | nil => exact ⟨fun _ => nofun, fun _ => ⟨[], .nil⟩⟩
  | cons found rest ih =>
      rw [List.forall_mem_cons, ← ih]
      constructor
      · rintro ⟨_, hc | ⟨hc, hrest⟩⟩
        exact ⟨⟨_, hc⟩, _, hrest⟩
      · rintro ⟨⟨c, hc⟩, cs, hrest⟩
        exact ⟨c :: cs, .cons hc hrest⟩

/-- Whether a review is made of a diff, a survey, a verifier, and the comments that it verifies. -/
structure IsMadeOf (review : Review) (r : Number.Rounding) (s : Settings) (t : Tree) (root : Location)
    (d : Diff) (survey : Survey) (v : Verifier) (cs : List Comment) : Prop where
  chunks   : Chunk.ofDiff s.chunkBudget d = .ok review.chunks
  taken    : Survey.ofTree s.survey t root d.paths = .ok survey
  relevant : review.relevant = survey.relevant.map fun (file, ds) =>
    (file, Definition.summaries Definition.usualCount false ds)
  hotspots : review.hotspots = survey.hotspots
  verifier : Verifier.ofOptions (.ofSettings s survey.names d.paths) = .ok v
  verdict  : v.verdict r t root cs = .ok review.verdict

/-- **A review is made of what its parts give.** -/
theorem ofTexts_eq_ok_iff (hs : s.IsValid) :
    ofTexts r s t root patch comments = .ok review ↔
      ∃ d survey v cs, Diff.read patch = .ok d ∧ IsAbout cs d comments ∧
        review.IsMadeOf r s t root d survey v cs := by
  simp only [ofTexts, bind_eq_ok_iff, mapError_eq_ok_iff, mapM_eq_ok_iff, hs.checked, worded_eq_ok_iff,
    pure, Except.pure, Except.ok.injEq]
  constructor
  · rintro ⟨d, hread, chunks, hchunks, _, rfl, survey, htaken, v, hv, cs, hcs, verdict, hverdict, rfl⟩
    exact ⟨d, survey, v, cs, hread, hcs, hchunks, htaken, rfl, rfl, hv, hverdict⟩
  · rintro ⟨d, survey, v, cs, hread, hcs, hmade⟩
    refine ⟨d, hread, _, hmade.chunks, _, rfl, survey, hmade.taken, v, hmade.verifier, cs, hcs, _,
      hmade.verdict, ?_⟩
    rw [← hmade.relevant, ← hmade.hotspots]

/-- The comments on the files of a diff are verified exactly if their paths can be followed, with those
    of the diff where comments are placed. -/
theorem exists_verdict_iff {v : Verifier} {definitions : List (String × List String)}
    (hcs : IsAbout cs d comments) (hoptions : v.options = .ofSettings s definitions d.paths) :
    (∃ verdict, v.verdict r t root cs = .ok verdict) ↔
      (∀ found ∈ Comment.inFiles d.paths (Comment.ofText comments), t.IsFollowable root found.path) ∧
        (s.fuzzy = true → ∀ file ∈ d.paths, t.IsFollowable root (Path.normalized file)) := by
  have hpaths : cs.map (·.path) = (Comment.inFiles d.paths (Comment.ofText comments)).map (·.path) :=
    map_eq_of_forall₂ hcs fun _ _ hworded => congrArg Path.normalized (file_of_worded hworded)
  have hplaces : v.options.placement.isSome = s.fuzzy := by
    rw [hoptions, VerifyOptions.ofSettings]
    cases s.fuzzy <;> rfl
  rw [Verifier.verdict_isOk_iff, v.forall_mem_filesNeeded_iff, hplaces, hoptions]
  rw [← List.forall_mem_map (f := fun c : Comment => c.path), hpaths, List.forall_mem_map]
  rfl

/-- **A review is given exactly if** the patch is read, the repository can be surveyed, the remarks on
    changed files are texts, and the paths of these comments can be followed, with those of all changed
    files where comments are placed. -/
theorem exists_ofTexts_iff (hs : s.IsValid) :
    (∃ review, ofTexts r s t root patch comments = .ok review) ↔
      Survey.IsSurveyable t root s.survey.leftOut ∧ ∃ d, Diff.read patch = .ok d ∧
        (∀ found ∈ Comment.inFiles d.paths (Comment.ofText comments),
          found.worded?.isSome = true ∧ t.IsFollowable root found.path) ∧
        (s.fuzzy = true → ∀ file ∈ d.paths, t.IsFollowable root (Path.normalized file)) := by
  simp only [ofTexts_eq_ok_iff hs]
  constructor
  · rintro ⟨review, d, survey, v, cs, hread, hcs, hmade⟩
    have hoptions := Verifier.options_of_ofOptions hmade.verifier
    obtain ⟨hpaths, hcandidates⟩ := (exists_verdict_iff hcs hoptions).1 ⟨_, hmade.verdict⟩
    refine ⟨(Survey.exists_ofTree_iff hs.relevanceBudget _).1 ⟨survey, hmade.taken⟩, d, hread, ?_,
      hcandidates⟩
    exact fun found hfound => ⟨exists_isAbout_iff.1 ⟨cs, hcs⟩ found hfound, hpaths found hfound⟩
  · rintro ⟨hsurveyable, d, hread, hfound, hcandidates⟩
    obtain ⟨survey, htaken⟩ := (Survey.exists_ofTree_iff hs.relevanceBudget d.paths).2 hsurveyable
    obtain ⟨generic, hverifier⟩ := exists_ofOptions_ofSettings s survey.names d.paths
    obtain ⟨cs, hcs⟩ := exists_isAbout_iff.2 fun found hf => (hfound found hf).1
    obtain ⟨verdict, hverdict⟩ := (exists_verdict_iff hcs (Verifier.options_of_ofOptions hverifier)).2
      ⟨fun found hf => (hfound found hf).2, hcandidates⟩
    exact ⟨⟨_, _, _, verdict⟩, d, survey, _, cs, hread, hcs,
      (Chunk.ofDiff_eq_ok_iff _).2 ⟨hs.chunkBudget, rfl⟩, htaken, rfl, rfl, hverifier, hverdict⟩

/-- Whether a review accounts for a diff and the comments on its files, given a survey. -/
structure Accounts (review : Review) (s : Settings) (t : Tree) (root : Location) (d : Diff)
    (survey : Survey) (cs : List Comment) : Prop where
  /-- The hunks of each change are packed into chunks within the budget. -/
  chunks : ∃ packs, List.Forall₂ (Chunk.IsPacking s.chunkBudget) d.files packs ∧
    review.chunks = packs.flatten
  /-- What readers need is listed for the nodes that are changed, in the order of nodes. -/
  relevant : review.relevant.map (·.1) = survey.graph.nodes.filter (d.paths.contains ·)
  /-- The hotspots are the first of the ranking. -/
  hotspots : ∃ ranking, survey.graph.IsRanking ranking ∧
    review.hotspots = ranking.take s.hotspotLimit.toNat
  /-- Every comment is kept, as it came or moved, or is dropped. -/
  answered : ∃ found, (found ++ review.verdict.dropped.map (·.comment)).Perm cs ∧
    List.Forall₂ (fun c c' => c' = c ∨
      ∃ m ∈ review.verdict.moved, m.comment = c' ∧ m.found = ⟨c.file, c.line⟩) found review.verdict.kept
  /-- Nothing is dropped without a reason. -/
  dropped : ∀ x ∈ review.verdict.dropped, x.reasons ≠ []
  /-- A kept comment ends at a line of a changed file. -/
  kept : ∀ c ∈ review.verdict.kept, c.HasLine t root ∧ c.IsListed d.paths

/-- **A review that is given accounts for all it was asked.** -/
theorem accounts_of_ofTexts (hs : s.IsValid) (h : ofTexts r s t root patch comments = .ok review) :
    ∃ d survey cs, Diff.read patch = .ok d ∧ d.IsWellFormed ∧
      Survey.ofTree s.survey t root d.paths = .ok survey ∧ IsAbout cs d comments ∧
      review.Accounts s t root d survey cs := by
  obtain ⟨d, survey, v, cs, hread, hcs, hmade⟩ := (ofTexts_eq_ok_iff hs).1 h
  refine ⟨d, survey, cs, hread, Diff.isWellFormed_of_read hread, hmade.taken, hcs, ?_⟩
  obtain ⟨found, hanswers, hperm, hdropped⟩ := Verifier.exists_found_of_verdict hmade.verdict
  have hoptions := Verifier.options_of_ofOptions hmade.verifier
  obtain ⟨-, hchunks⟩ := (Chunk.ofDiff_eq_ok_iff _).1 hmade.chunks
  refine ⟨⟨_, ?_, hchunks⟩, ?_, ⟨_, survey.graph.isRanking_mergeSort, ?_⟩, ⟨found, hperm, ?_⟩, hdropped, ?_⟩
  · exact List.forall₂_map_right_iff.2 (List.forall₂_same.2 fun f _ => Chunk.isPacking_ofFile _ f)
  · rw [hmade.relevant, List.map_map]
    exact Survey.keys_relevant_eq hmade.taken
  · rw [hmade.hotspots, Survey.hotspots_eq hmade.taken]
    exact Graph.hotspots_eq_take _ hs.hotspotLimit
  · exact hanswers.imp fun c c' hc => hc.imp_right fun hmoved => hmoved.2.2
  · -- the files that matter are changed: those of the comments, and the candidates
    have hchanged : ∀ path ∈ v.filesNeeded cs, path ∈ d.paths.map Path.normalized := by
      refine (v.forall_mem_filesNeeded_iff cs _).2 ⟨?_, fun _ file hfile => ?_⟩
      · exact fun c hc => List.mem_map_of_mem (hcs.file_mem c hc)
      · rw [hoptions] at hfile
        exact List.mem_map_of_mem hfile
    have hmost : ∀ o ∈ v.options.placement, 0 < o.maxMatches := by
      rw [hoptions]
      exact hs.maxMatches_pos
    obtain ⟨shelf, hshelf, hverdict⟩ := Verifier.verdict_eq_ok_iff.1 hmade.verdict
    rw [← hverdict]
    exact fun c hc => (v.stands_of_mem_kept hmost hshelf c hc).imp_right (hchanged _)

end Review

end PatchReview
