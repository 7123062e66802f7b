import Mathlib
import PatchReview.Proofs.Comment.Spelling

/-!
# Comments in listed files

Comments are filtered to the files of a list by the exact spelling of the files, where verification looks
at a file by its normal spelling only. So a comment that stands in a listed file is lost if it spells the
file otherwise, and what is kept depends on spellings as soon as any comment stands in a listed file
(`inFiles_respelled_iff`). Where the listed files and those of the comments are written normally, as they
are in diffs, the filter keeps exactly the comments in listed files (`inFiles_of_normalized`).
-/

namespace PatchReview

open CommentOf (IsRespelled)

variable {Remark : Type} {files : List String} {cs : List (CommentOf Remark)}

/-- Whether a comment stands in a file of a list, however that is spelled. -/
def CommentOf.IsListed (files : List String) (c : CommentOf Remark) : Prop :=
  c.path ∈ files.map Path.normalized

theorem CommentOf.isListed_of_mem {c : CommentOf Remark} (h : c.file ∈ files) : c.IsListed files :=
  List.mem_map_of_mem h

namespace Comment

theorem mem_inFiles_iff {c : CommentOf Remark} : c ∈ inFiles files cs ↔ c ∈ cs ∧ c.file ∈ files := by
  rw [inFiles, List.mem_filter, List.contains_eq_mem, decide_eq_true_eq]

/-- **The comments that are kept are those in listed files**, if each of these spells its file as listed. -/
theorem inFiles_eq_filter_iff :
    inFiles files cs = cs.filter (fun c => (files.map Path.normalized).contains c.path) ↔
      ∀ c ∈ cs, c.IsListed files → c.file ∈ files := by
  constructor
  · intro heq c hc hlisted
    have hkept : c ∈ inFiles files cs := by
      rw [heq, List.mem_filter, List.contains_eq_mem, decide_eq_true_eq]
      exact ⟨hc, hlisted⟩
    exact (mem_inFiles_iff.1 hkept).2
  · intro h
    refine List.filter_congr fun c hc => ?_
    rw [List.contains_eq_mem, List.contains_eq_mem, decide_eq_decide]
    exact ⟨CommentOf.isListed_of_mem, h c hc⟩

/-- Where all files are written normally, the comments that are kept are those in listed files. -/
theorem inFiles_of_normalized (hfiles : ∀ file ∈ files, Path.normalized file = file)
    (hcs : ∀ c ∈ cs, Path.normalized c.file = c.file) :
    inFiles files cs = cs.filter fun c => (files.map Path.normalized).contains c.path := by
  refine inFiles_eq_filter_iff.2 fun c hc hlisted => ?_
  obtain ⟨file, hfile, hpath⟩ := List.mem_map.1 hlisted
  rw [hfiles file hfile] at hpath
  rwa [← hcs c hc, show Path.normalized c.file = file from hpath.symm]

/-! ## Other spellings -/

/-- Whether two filters keep comments at the same positions. -/
def KeptAlike (files : List String) (cs : List (CommentOf Remark)) (files' : List String)
    (cs' : List (CommentOf Remark)) : Prop :=
  List.Forall₂ (fun c c' => c' ∈ inFiles files' cs' ↔ c ∈ inFiles files cs) cs cs'

/-- A comment can spell its file in a way that no file of a list is spelled. -/
theorem exists_unlisted (files : List String) (c : CommentOf Remark) :
    ∃ c', c.IsRespelled c' ∧ c'.file ∉ files := by
  obtain ⟨n, hn⟩ : ∃ n, ∀ file ∈ files, file.length ≤ n := by
    induction files with
    | nil => exact ⟨0, fun file hfile => nomatch hfile⟩
    | cons first rest ih =>
        obtain ⟨n, hn⟩ := ih
        refine ⟨max first.length n, List.forall_mem_cons.2 ⟨Nat.le_max_left _ _, fun file hfile => ?_⟩⟩
        exact Nat.le_trans (hn file hfile) (Nat.le_max_right _ _)
  obtain ⟨file, hspelling, hlong⟩ := Path.exists_long_spelling c.file n
  exact ⟨{ c with file := file }, ⟨file, hspelling, rfl⟩,
    fun hmem => absurd (hn _ hmem) (Nat.not_le.2 hlong)⟩

/-- A comment that is kept can be lost by another spelling of its file. -/
theorem not_keptAlike_of_mem {c : CommentOf Remark} (hc : c ∈ cs) (hfile : c.file ∈ files) :
    ¬∀ files' cs', List.Forall₂ Path.IsSpelling files files' → List.Forall₂ IsRespelled cs cs' →
      KeptAlike files cs files' cs' := by
  intro h
  choose respell hrespelled hunlisted using exists_unlisted files
  have hfiles : List.Forall₂ Path.IsSpelling files files := List.forall₂_same.2 fun _ _ => rfl
  have hcs : List.Forall₂ IsRespelled cs (cs.map respell) :=
    List.forall₂_map_right_iff.2 (List.forall₂_same.2 fun c _ => hrespelled c)
  have hkept := List.forall₂_same.1 (List.forall₂_map_right_iff.1 (h files _ hfiles hcs)) c hc
  exact hunlisted c (mem_inFiles_iff.1 (hkept.2 (mem_inFiles_iff.2 ⟨hc, hfile⟩))).2

/-- A comment that is lost can be kept by another spelling of the file that it stands in. -/
theorem not_keptAlike_of_not_mem {c : CommentOf Remark} (hc : c ∈ cs) (hlisted : c.IsListed files)
    (hfile : c.file ∉ files) :
    ¬∀ files' cs', List.Forall₂ Path.IsSpelling files files' → List.Forall₂ IsRespelled cs cs' →
      KeptAlike files cs files' cs' := by
  intro h
  obtain ⟨listed, hin, hpath⟩ := List.mem_map.1 hlisted
  let respell (file : String) : String := if Path.normalized file = c.path then c.file else file
  have hfiles : List.Forall₂ Path.IsSpelling files (files.map respell) := by
    refine List.forall₂_map_right_iff.2 (List.forall₂_same.2 fun file _ => ?_)
    by_cases hsame : Path.normalized file = c.path
    · show Path.normalized (if Path.normalized file = c.path then c.file else file) = _
      rw [if_pos hsame, hsame]
      rfl
    · show Path.normalized (if Path.normalized file = c.path then c.file else file) = _
      rw [if_neg hsame]
  have hcs : List.Forall₂ IsRespelled cs cs :=
    List.forall₂_same.2 fun c _ => ⟨c.file, rfl, rfl⟩
  have hkept := List.forall₂_same.1 (h _ cs hfiles hcs) c hc
  have hnow : c.file ∈ files.map respell :=
    List.mem_map.2 ⟨listed, hin, if_pos hpath⟩
  exact hfile (mem_inFiles_iff.1 (hkept.1 (mem_inFiles_iff.2 ⟨hc, hnow⟩))).2

/-- **What is kept depends on spellings as soon as anything could be kept.** The filter keeps the comments
    in listed files exactly if each of these spells its file as listed. It keeps comments at the same
    positions under every other spelling of the listed files and of those of the comments exactly if no
    comment stands in a listed file. -/
theorem inFiles_respelled_iff (files : List String) (cs : List (CommentOf Remark)) :
    (inFiles files cs = cs.filter (fun c => (files.map Path.normalized).contains c.path) ↔
        ∀ c ∈ cs, c.IsListed files → c.file ∈ files) ∧
      ((∀ files' cs', List.Forall₂ Path.IsSpelling files files' → List.Forall₂ IsRespelled cs cs' →
          KeptAlike files cs files' cs') ↔
        ∀ c ∈ cs, ¬c.IsListed files) := by
  refine ⟨inFiles_eq_filter_iff, ?_, ?_⟩
  · intro h c hc hlisted
    by_cases hfile : c.file ∈ files
    · exact not_keptAlike_of_mem hc hfile h
    · exact not_keptAlike_of_not_mem hc hlisted hfile h
  · intro h files' cs' hfiles hcs
    have hnone : ∀ c, c ∉ inFiles files cs := by
      intro c hkept
      obtain ⟨hc, hfile⟩ := mem_inFiles_iff.1 hkept
      exact h c hc (CommentOf.isListed_of_mem hfile)
    have hnone' : ∀ c', c' ∉ inFiles files' cs' := by
      intro c' hkept
      obtain ⟨hc', hfile⟩ := mem_inFiles_iff.1 hkept
      have hpaths := map_eq_of_forall₂ hcs fun _ _ hc => hc.path_eq
      have hin : c'.path ∈ cs.map (·.path) := hpaths ▸ List.mem_map_of_mem hc'
      obtain ⟨c, hc, hpath⟩ := List.mem_map.1 hin
      refine h c hc ?_
      rw [CommentOf.IsListed, hpath, ← map_eq_of_forall₂ hfiles fun _ _ hf => hf]
      exact CommentOf.isListed_of_mem hfile
    exact hcs.imp fun c c' _ => iff_of_false (hnone' c') (hnone c)

/-- A comment in a listed file is lost if it spells the file otherwise, though verification takes both
    spellings for the same file. -/
theorem inFiles_otherSpelling :
    let c : Comment := ⟨"a.ts", 1, .minor, "naming", "Unclear.", "Rename it."⟩
    let c' : Comment := ⟨"./a.ts", 1, .minor, "naming", "Unclear.", "Rename it."⟩
    c.IsRespelled c' ∧ c'.IsListed ["a.ts"] ∧ inFiles ["a.ts"] [c] = [c] ∧ inFiles ["a.ts"] [c'] = [] :=
  ⟨⟨"./a.ts", (by decide : Path.normalized "./a.ts" = Path.normalized "a.ts"), rfl⟩,
    (by decide : Path.normalized "./a.ts" ∈ ["a.ts"].map Path.normalized), by decide, by decide⟩

end Comment

end PatchReview
