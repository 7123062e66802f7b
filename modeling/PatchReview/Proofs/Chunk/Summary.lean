import PatchReview.Diff.Reader
import PatchReview.Proofs.Chunk.Packing
import PatchReview.Proofs.Except

/-!
# What a prompt shows of a diff

A diff is packed by entries, but a chunk names its file by path, and its summary takes the hunks from
the first entry with that path. So the summaries of all chunks show every hunk of the diff, once and in
order, exactly if every entry shows the same as the first entry with its path does at the same
positions (`summaries_show_iff`). Where no path has two entries this always holds
(`isShown_of_nodup`); a file that is deleted and added again in another type has two, and of the second
nothing is shown (`summaries_typeChange`).
-/

namespace PatchReview

/-- Whether a summary shows a hunk: its lines, how many are added, and the first eight of those with
    their first 240 characters. -/
structure HunkSummary.Shows (s : HunkSummary) (h : Hunk) : Prop where
  first   : s.first = h.first
  last    : s.last = h.last
  count   : s.addedCount = h.added.length
  preview : List.Forall₂
    (fun shown line =>
      shown.number = line.number ∧ shown.content.toList = line.content.toList.take 240)
    s.preview (h.added.take 8)

/-- The summary of a hunk is the only one that shows it. -/
theorem HunkSummary.shows_iff {s : HunkSummary} {h : Hunk} : s.Shows h ↔ s = h.summary := by
  have hline : ∀ shown line : AddedLine,
      (shown.number = line.number ∧ shown.content.toList = line.content.toList.take 240) ↔
        shown = ⟨line.number, String.ofList (line.content.toList.take 240)⟩ := by
    rintro ⟨number, content⟩ line
    rw [AddedLine.mk.injEq, ← String.toList_inj, String.toList_ofList]
  have hpreview : ∀ preview : List AddedLine,
      List.Forall₂
          (fun shown line =>
            shown.number = line.number ∧ shown.content.toList = line.content.toList.take 240)
          preview (h.added.take 8) ↔
        preview = h.summary.preview := by
    intro preview
    simp only [hline, ← List.forall₂_map_right_iff, List.forall₂_eq_eq_eq]
    rfl
  obtain ⟨first, last, addedCount, preview⟩ := s
  constructor
  · rintro ⟨rfl, rfl, rfl, hlines⟩
    rw [(hpreview preview).1 hlines]
    rfl
  · rintro ⟨⟩
    exact ⟨rfl, rfl, rfl, (hpreview _).2 rfl⟩

namespace Chunk

variable (budget : Int) (d : Diff)

/-! ## The summaries of a file's chunks -/

/-- The hunks at the first positions are the first hunks, if there are as many. -/
theorem mapM_hunkAt_range_iff {hunks found : List Hunk} {n : Nat} :
    ((List.range n).map fun i : Nat => (i : Int)).mapM (hunkAt hunks) = .ok found ↔
      found.length = n ∧ found <+: hunks := by
  rw [mapM_eq_ok_iff, List.forall₂_map_left_iff, List.forall₂_iff_get, List.prefix_iff_getElem?]
  simp only [hunkAt_eq_ok_iff, List.get_eq_getElem, List.getElem_range, List.length_range]
  constructor
  · rintro ⟨rfl, hat⟩
    exact ⟨rfl, fun i hi => hat i hi hi⟩
  · rintro ⟨rfl, hat⟩
    exact ⟨rfl, fun i _ hi => hat i hi⟩

/-- The summaries of chunks, one after another. -/
def shown (chunks : List Chunk) : Except NoSuchHunk (List HunkSummary) := do
  let summaries ← chunks.mapM (summary d)
  return summaries.flatMap (·.hunks)

theorem shown_append (before after : List Chunk) :
    shown d (before ++ after) = do
      let first ← shown d before
      let rest ← shown d after
      return first ++ rest := by
  simp [shown, List.mapM_append]

/-- Chunks of one file show the hunks at their positions in the first entry with its path. -/
theorem shown_eq {path : String} {g : FileChange} (hg : d.file? path = some g) {chunks : List Chunk}
    (hown : ∀ c ∈ chunks, c.file = path) :
    shown d chunks = do
      let hunks ← (chunks.flatMap (·.indices)).mapM (hunkAt g.hunks)
      return hunks.map Hunk.summary := by
  induction chunks with
  | nil => rfl
  | cons c rest ih =>
      obtain ⟨rfl, hrest⟩ := List.forall_mem_cons.1 hown
      have hfirst : shown d [c] = do
          let hunks ← c.indices.mapM (hunkAt g.hunks)
          return hunks.map Hunk.summary := by
        simp [shown, summary, hg]
      rw [← List.singleton_append, shown_append, hfirst, ih hrest, List.flatMap_append,
        List.mapM_append]
      simp

/-- The chunks of a file show as many hunks as it has, from the first entry with its path. -/
theorem shown_ofFile_iff {f g : FileChange} (hg : d.file? f.path = some g)
    {summaries : List HunkSummary} :
    shown d (ofFile budget f) = .ok summaries ↔
      summaries.length = f.hunks.length ∧ summaries <+: g.hunks.map Hunk.summary := by
  have hpacked := isPacking_ofFile budget f
  rw [shown_eq d hg hpacked.own, hpacked.whole, bind_eq_ok_iff, List.prefix_map_iff]
  simp only [mapM_hunkAt_range_iff]
  constructor
  · rintro ⟨hunks, ⟨hlength, hunksPrefix⟩, h⟩
    obtain rfl : hunks.map Hunk.summary = summaries := Except.ok.inj h
    exact ⟨by rw [List.length_map, hlength], hunks, hunksPrefix, rfl⟩
  · rintro ⟨hlength, hunks, hunksPrefix, rfl⟩
    exact ⟨hunks, ⟨by rw [← hlength, List.length_map], hunksPrefix⟩, rfl⟩

/-! ## The summaries of all chunks -/

/-- Whether an entry shows the same as the first entry with its path does at the same positions. -/
def IsShown (f : FileChange) : Prop :=
  ∃ g, d.file? f.path = some g ∧ f.hunks.map Hunk.summary <+: g.hunks.map Hunk.summary

/-- The entries of a diff have a first entry with their path. -/
theorem exists_file? {f : FileChange} (hf : f ∈ d.files) : ∃ g, d.file? f.path = some g := by
  have hfound : (d.file? f.path).isSome = true :=
    List.find?_isSome.2 ⟨f, hf, decide_eq_true rfl⟩
  exact Option.isSome_iff_exists.1 hfound

/-- Where no path has two entries, every entry is the first with its path. -/
theorem isShown_of_nodup (hpaths : (d.files.map (·.path)).Nodup) {f : FileChange}
    (hf : f ∈ d.files) : IsShown d f := by
  obtain ⟨g, hg⟩ := exists_file? d hf
  have hpath : g.path = f.path := by simpa using List.find?_some hg
  obtain rfl : g = f :=
    List.inj_on_of_nodup_map hpaths (List.mem_of_find?_eq_some hg) hf hpath
  exact ⟨g, hg, List.prefix_refl _⟩

/-- The chunks of entries show the hunks of the entries exactly if each of these is shown. -/
theorem shown_flatten_iff {files : List FileChange} (hfiles : ∀ f ∈ files, f ∈ d.files) :
    shown d (files.map (ofFile budget)).flatten
        = .ok ((files.flatMap (·.hunks)).map Hunk.summary) ↔
      ∀ f ∈ files, IsShown d f := by
  induction files with
  | nil => exact ⟨fun _ _ h => (nomatch h), fun _ => rfl⟩
  | cons f rest ih =>
      obtain ⟨hf, hrest⟩ := List.forall_mem_cons.1 hfiles
      obtain ⟨g, hg⟩ := exists_file? d hf
      have hown : IsShown d f ↔ f.hunks.map Hunk.summary <+: g.hunks.map Hunk.summary := by
        simp [IsShown, hg]
      rw [List.forall_mem_cons, hown, ← ih hrest, List.map_cons, List.flatten_cons, shown_append,
        bind_eq_ok_iff, List.flatMap_cons, List.map_append]
      simp only [bind_eq_ok_iff, shown_ofFile_iff budget d hg]
      constructor
      · -- the entry's part is as long as its hunks, so the parts are equal one by one
        rintro ⟨first, ⟨hlength, hfirst⟩, more, hmore, hall⟩
        obtain ⟨rfl, rfl⟩ := List.append_inj (Except.ok.inj hall) (by rw [hlength, List.length_map])
        exact ⟨hfirst, hmore⟩
      · rintro ⟨hfirst, hmore⟩
        exact ⟨_, ⟨List.length_map _, hfirst⟩, _, hmore, rfl⟩

/-- **The summaries of all chunks show every hunk of a diff**, once and in order, exactly if the budget
    is positive and every entry is shown. -/
theorem summaries_show_iff :
    (∃ chunks summaries, ofDiff budget d = .ok chunks ∧ chunks.mapM (summary d) = .ok summaries ∧
        List.Forall₂ HunkSummary.Shows (summaries.flatMap (·.hunks)) (d.files.flatMap (·.hunks))) ↔
      0 < budget ∧ ∀ f ∈ d.files, IsShown d f := by
  have hshows : ∀ summaries : List HunkSummary,
      List.Forall₂ HunkSummary.Shows summaries (d.files.flatMap (·.hunks)) ↔
        summaries = (d.files.flatMap (·.hunks)).map Hunk.summary := by
    intro summaries
    have hrel : HunkSummary.Shows = fun s h => s = h.summary := by
      funext s h
      exact propext HunkSummary.shows_iff
    rw [hrel, ← List.forall₂_map_right_iff, List.forall₂_eq_eq_eq]
  have hshown := shown_flatten_iff budget d (fun f hf => hf)
  simp only [hshows, ofDiff_eq_ok_iff]
  constructor
  · rintro ⟨chunks, summaries, ⟨hbudget, rfl⟩, hsummaries, hall⟩
    refine ⟨hbudget, hshown.1 (bind_eq_ok_iff.2 ⟨summaries, hsummaries, ?_⟩)⟩
    exact congrArg _ hall
  · rintro ⟨hbudget, hfiles⟩
    obtain ⟨summaries, hsummaries, hall⟩ := bind_eq_ok_iff.1 (hshown.2 hfiles)
    exact ⟨_, summaries, ⟨hbudget, rfl⟩, hsummaries, Except.ok.inj hall⟩

/-- A file that is deleted and added again as a link. -/
def typeChange : Diff :=
  ⟨[⟨"x", some "x", .deleted, [⟨"x", 0, 0, []⟩]⟩, ⟨"x", none, .added, [⟨"x", 1, 1, [⟨1, "new"⟩]⟩]⟩],
    ⟨1, 1, 2⟩⟩

/-- It can be read off a text. Both of its chunks show the deletion, and nothing shows the line that is
    added. -/
theorem summaries_typeChange :
    Diff.read ("diff --git a/x b/x\ndeleted file mode 100644\n--- a/x\n+++ /dev/null\n" ++
          "@@ -1 +0,0 @@\n-old\n" ++
          "diff --git a/x b/x\nnew file mode 120000\n--- /dev/null\n+++ b/x\n" ++
          "@@ -0,0 +1 @@\n+new\n")
        = .ok typeChange ∧
      ofDiff 1200 typeChange = .ok [⟨"x", [0], 80⟩, ⟨"x", [0], 80⟩] ∧
      [⟨"x", [0], 80⟩, ⟨"x", [0], 80⟩].mapM (summary typeChange)
        = .ok [⟨"x", [⟨0, 0, 0, []⟩]⟩, ⟨"x", [⟨0, 0, 0, []⟩]⟩] ∧
      ¬List.Forall₂ HunkSummary.Shows [⟨0, 0, 0, []⟩, ⟨0, 0, 0, []⟩]
        (typeChange.files.flatMap (·.hunks)) := by
  refine ⟨by decide +kernel, by decide, by decide, fun hall => ?_⟩
  rcases hall with _ | ⟨-, _ | ⟨hsecond, -⟩⟩
  have hfirst : (0 : Int) = 1 := hsecond.first
  exact absurd hfirst (by decide)

end Chunk

end PatchReview
