import Mathlib
import PatchReview.Comment.Session
import PatchReview.Proofs.Comment.Relocation
import PatchReview.Proofs.Distinct

/-!
# A verifier in use answers as a new one

What a verifier remembers between calls is what its options say of files (`NameMemory.IsFaithful`), and
what it remembers during a call is what the tree has then (`LineCounts.IsFaithful`). Each lookup keeps
that, so every call is answered by the options and the tree alone (`verify_eq`), with the answer that is
given where all files are read first. A run of calls, with files written and removed between them, is
answered call by call as by a verifier that was just built (`run_fresh`).
-/

namespace PatchReview

open PatchReview.Number (Rounding)

/-! ## What is remembered -/

/-- Whether all that is remembered of files is so: each has that many lines, or none where it cannot be
    read. -/
def LineCounts.IsFaithful (t : Tree) (root : Location) (counts : LineCounts) : Prop :=
  ∀ path count, counts.lookup path = some count →
    ∃ ls?, t.lines root path = .ok ls? ∧ count = ls?.map (·.length)

/-- Whether all that is remembered of files is what a verifier knows of them. -/
def NameMemory.IsFaithful (v : Verifier) (memory : NameMemory) : Prop :=
  ∀ path names, memory.lookup path = some names → names = v.knownNames path

/-- One more thing is remembered, and all of it is so. -/
theorem forall_lookup_cons {α : Type} {P : String → α → Prop} {entries : List (String × α)}
    (h : ∀ path a, entries.lookup path = some a → P path a) {path : String} {a : α} (ha : P path a) :
    ∀ path' a', ((path, a) :: entries).lookup path' = some a' → P path' a' := by
  intro path' a' hlookup
  rw [List.lookup_cons] at hlookup
  by_cases hsame : path' = path
  · rw [hsame, beq_self_eq_true] at hlookup
    obtain rfl := Option.some.inj hlookup
    exact hsame ▸ ha
  · rw [beq_eq_false_iff_ne.2 hsame] at hlookup
    exact h path' a' hlookup

namespace LineCounts

variable {t : Tree} {root : Location} {counts : LineCounts}

theorem isFaithful_nil : IsFaithful t root [] := by
  intro path count h
  cases h

/-- A file that can be followed has its lines counted, whatever was counted before. -/
theorem count_of_lines (h : counts.IsFaithful t root) {path : String} {ls? : Option (List String)}
    (hlines : t.lines root path = .ok ls?) :
    ∃ counts', counts.count t root path = .ok (ls?.map (·.length), counts') ∧
      IsFaithful t root counts' := by
  rw [count]
  cases hlookup : counts.lookup path with
  | some found =>
      obtain ⟨ls?', hlines', rfl⟩ := h path found hlookup
      obtain rfl := Except.ok.inj (hlines.symm.trans hlines')
      exact ⟨counts, rfl, h⟩
  | none =>
      rw [hlines]
      exact ⟨_, rfl, forall_lookup_cons h ⟨ls?, hlines, rfl⟩⟩

/-- One that cannot be followed is not counted. -/
theorem count_of_fault (h : counts.IsFaithful t root) {path : String} {fault : PathFault}
    (hlines : t.lines root path = .error fault) : counts.count t root path = .error fault := by
  rw [count]
  cases hlookup : counts.lookup path with
  | some found =>
      obtain ⟨ls?, hlines', -⟩ := h path found hlookup
      rw [hlines] at hlines'
      cases hlines'
  | none =>
      rw [hlines]
      rfl

end LineCounts

namespace Verifier

variable (r : Rounding) (v : Verifier) (t : Tree) (root : Location)

theorem isFaithful_nil : NameMemory.IsFaithful v [] := by
  intro path names h
  cases h

variable {v} in
/-- What is known of a file is found, and no more is remembered than that. -/
theorem lookUp_eq {memory : NameMemory} (h : memory.IsFaithful v) (path : String) :
    (v.lookUp memory path).1 = v.knownNames path ∧ NameMemory.IsFaithful v (v.lookUp memory path).2 := by
  rw [lookUp]
  cases hlookup : memory.lookup path with
  | some names => exact ⟨h path names hlookup, h⟩
  | none => exact ⟨rfl, forall_lookup_cons h rfl⟩

/-! ## One call -/

/-- The reasons found with what is remembered are those found on a shelf. -/
theorem reasonsGiven_eq (shelf : Shelf) (kept : List Comment) (c : Comment) :
    v.reasonsGiven r ((shelf.lines? c.path).map (·.length)) (v.knownNames c.path) kept c
      = v.reasons r shelf kept c := by
  rw [reasonsGiven, reasons, plainReasons, locationExists, mentionsKnown]
  cases shelf.lines? c.path <;> rfl

/-- One more comment is decided by what is found of its file. -/
theorem decideAll_cons {counts counts' : LineCounts} {count : Option Nat} {c : Comment}
    (h : counts.count t root c.path = .ok (count, counts')) (memory : NameMemory)
    (kept rest : List Comment) :
    v.decideAll r t root counts memory kept (c :: rest)
      = ((v.decideAll r t root counts' (v.lookUp memory c.path).2
            (if (v.reasonsGiven r count (v.lookUp memory c.path).1 kept c).isEmpty then kept ++ [c]
              else kept) rest).1.map
            ((c, v.reasonsGiven r count (v.lookUp memory c.path).1 kept c) :: ·),
          (v.decideAll r t root counts' (v.lookUp memory c.path).2
            (if (v.reasonsGiven r count (v.lookUp memory c.path).1 kept c).isEmpty then kept ++ [c]
              else kept) rest).2) := by
  rw [decideAll, h]

variable {v} in
/-- What is remembered stays faithful, wherever the comments lead. -/
theorem isFaithful_decideAll (cs : List Comment) {memory : NameMemory} (h : memory.IsFaithful v)
    (counts : LineCounts) (kept : List Comment) :
    NameMemory.IsFaithful v (v.decideAll r t root counts memory kept cs).2 := by
  induction cs generalizing memory counts kept with
  | nil => exact h
  | cons c rest ih =>
      cases hcount : counts.count t root c.path with
      | error fault =>
          rw [decideAll, hcount]
          exact h
      | ok found =>
          rw [decideAll_cons r v t root hcount]
          exact ih (lookUp_eq h c.path).2 _ _

variable {v t root} in
/-- **Comments are decided by the options and the files.** -/
theorem decideAll_of_shelf {shelf : Shelf} {cs : List Comment}
    (hshelf : ∀ c ∈ cs, t.lines root c.path = .ok (shelf.lines? c.path)) {counts : LineCounts}
    (hcounts : counts.IsFaithful t root) {memory : NameMemory} (hmemory : memory.IsFaithful v)
    (kept : List Comment) :
    (v.decideAll r t root counts memory kept cs).1 = .ok (v.decisions r shelf kept cs) := by
  induction cs generalizing counts memory kept with
  | nil => rfl
  | cons c rest ih =>
      obtain ⟨hc, hrest⟩ := List.forall_mem_cons.1 hshelf
      obtain ⟨counts', hcount, hcounts'⟩ := LineCounts.count_of_lines hcounts hc
      obtain ⟨hnames, hmemory'⟩ := lookUp_eq hmemory c.path
      rw [decideAll_cons r v t root hcount, hnames, reasonsGiven_eq, ih hrest hcounts' hmemory']
      rfl

variable {v t root} in
/-- Where one of their files cannot be followed, the first such ends it. -/
theorem decideAll_of_fault {cs : List Comment} {fault : PathFault}
    (hfault : (cs.map (·.path)).findSome? (t.fault? root) = some fault) {counts : LineCounts}
    (hcounts : counts.IsFaithful t root) (memory : NameMemory) (kept : List Comment) :
    (v.decideAll r t root counts memory kept cs).1 = .error fault := by
  induction cs generalizing counts memory kept with
  | nil => cases hfault
  | cons c rest ih =>
      rw [List.map_cons, List.findSome?_cons, Tree.fault?] at hfault
      cases hlines : t.lines root c.path with
      | error first =>
          rw [hlines] at hfault
          rw [decideAll, LineCounts.count_of_fault hcounts hlines]
          exact congrArg Except.error (Option.some.inj hfault)
      | ok ls? =>
          rw [hlines] at hfault
          obtain ⟨counts', hcount, hcounts'⟩ := LineCounts.count_of_lines hcounts hlines
          rw [decideAll_cons r v t root hcount, ih hfault hcounts']
          rfl

/-! ### Loading -/

/-- Where one file more is loaded, the others are still to come. -/
theorem new_of_load {files : LoadedFiles} {path : String} {rest : List String} (lines : List String)
    (hout : path ∉ rest) (hnew : ∀ other ∈ rest, files.any (·.1 == other) = false) :
    ∀ other ∈ rest, (files ++ [(path, lines)]).any (·.1 == other) = false := by
  intro other hother
  have hne : path ≠ other := fun heq => hout (heq ▸ hother)
  simpa [hne] using hnew other hother

variable {t root} in
/-- What is loaded of files that are named once is what a shelf of them has. -/
theorem load_of_shelf {paths : List String} (hnormal : ∀ path ∈ paths, Path.normalized path = path)
    (hnodup : paths.Nodup) {shelf : Shelf} (hshelf : t.shelf root paths = .ok shelf)
    {files : LoadedFiles} (hnew : ∀ path ∈ paths, files.any (·.1 == path) = false) :
    LoadedFiles.load t root files paths = (files ++ loaded shelf, none) := by
  induction paths generalizing shelf files with
  | nil =>
      obtain rfl : [] = shelf := Except.ok.inj hshelf
      rw [LoadedFiles.load]
      simp [loaded]
  | cons path rest ih =>
      obtain ⟨hpath, hrest⟩ := List.forall_mem_cons.1 hnormal
      obtain ⟨hout, hnodup⟩ := List.nodup_cons.1 hnodup
      obtain ⟨hfirst, hnew⟩ := List.forall_mem_cons.1 hnew
      rw [Tree.shelf_cons] at hshelf
      obtain ⟨ls?, hlines, hshelf⟩ := bind_eq_ok_iff.1 hshelf
      obtain ⟨more, hmore, hshelf⟩ := bind_eq_ok_iff.1 hshelf
      obtain rfl : (path, ls?) :: more = shelf := Except.ok.inj hshelf
      rw [LoadedFiles.load]
      simp only [hpath, hfirst, hlines]
      cases ls? with
      | none => exact ih hrest hnodup hmore hnew
      | some lines =>
          simpa [loaded] using ih hrest hnodup hmore (new_of_load lines hout hnew)

variable {t root} in
/-- Where a shelf cannot be filled the files cannot be loaded, for the same reason. -/
theorem load_of_fault {paths : List String} (hnormal : ∀ path ∈ paths, Path.normalized path = path)
    (hnodup : paths.Nodup) {fault : PathFault}
    (hfault : paths.findSome? (t.fault? root) = some fault)
    {files : LoadedFiles} (hnew : ∀ path ∈ paths, files.any (·.1 == path) = false) :
    (LoadedFiles.load t root files paths).2 = some fault := by
  induction paths generalizing files with
  | nil => cases hfault
  | cons path rest ih =>
      obtain ⟨hpath, hrest⟩ := List.forall_mem_cons.1 hnormal
      obtain ⟨hout, hnodup⟩ := List.nodup_cons.1 hnodup
      obtain ⟨hfirst, hnew⟩ := List.forall_mem_cons.1 hnew
      rw [List.findSome?_cons, Tree.fault?] at hfault
      rw [LoadedFiles.load]
      simp only [hpath, hfirst]
      cases hlines : t.lines root path with
      | error first =>
          rw [hlines] at hfault
          exact hfault
      | ok ls? =>
          rw [hlines] at hfault
          cases ls? with
          | none => exact ih hrest hnodup hfault hnew
          | some lines => exact ih hrest hnodup hfault (new_of_load lines hout hnew)

variable {v t root} in
theorem loadNeeded_of_shelf {comments : List Comment} {shelf : Shelf}
    (hshelf : t.shelf root (v.filesNeeded comments) = .ok shelf) :
    v.loadNeeded t root comments = (if v.options.placement.isSome then loaded shelf else [], none) := by
  rw [loadNeeded]
  by_cases hplace : v.options.placement.isSome = true
  · rw [if_pos hplace, if_pos hplace, load_of_shelf (fun _ => v.normalized_of_mem_filesNeeded)
      (nodup_eraseDups _) hshelf (fun _ _ => rfl), List.nil_append]
  · rw [if_neg hplace, if_neg hplace]

variable {v t root} in
theorem loadNeeded_of_fault {comments : List Comment} {fault : PathFault}
    (hplace : v.options.placement.isSome = true)
    (hfault : (v.filesNeeded comments).findSome? (t.fault? root) = some fault) :
    (v.loadNeeded t root comments).2 = some fault := by
  rw [loadNeeded, if_pos hplace]
  exact load_of_fault (fun _ => v.normalized_of_mem_filesNeeded) (nodup_eraseDups _) hfault
    (fun _ _ => rfl)

/-- Files that are not loaded have no part in the verdict. -/
theorem verdictOf_decisions (shelf : Shelf) (comments : List Comment) :
    v.verdictOf r (if v.options.placement.isSome then loaded shelf else []) comments
      (v.decisions r shelf [] comments) = v.verdictOn r shelf comments := by
  rw [verdictOf, verdictOn]
  cases v.options.placement <;> rfl

/-- Where comments are not placed only their own files are needed. -/
theorem findSome?_filesNeeded {α : Type} (hplace : ¬v.options.placement.isSome = true)
    (find : String → Option α) (comments : List Comment) :
    (v.filesNeeded comments).findSome? find = (comments.map (·.path)).findSome? find := by
  rw [filesNeeded, if_neg hplace, findSome?_eraseDups, List.nil_append, List.map_map]
  rfl

end Verifier

namespace Session

variable (r : Rounding) (root : Location)

/-- A call leaves the options as they are, and what is remembered faithful. -/
theorem isFaithful_verify {s : Session} (h : s.memory.IsFaithful s.verifier) (t : Tree)
    (comments : List Comment) :
    (s.verify r t root comments).2.verifier = s.verifier ∧
      (s.verify r t root comments).2.memory.IsFaithful s.verifier := by
  rw [verify]
  split
  · exact ⟨rfl, h⟩
  · exact ⟨rfl, Verifier.isFaithful_decideAll r t root comments h [] []⟩

variable {t : Tree} in
/-- Where the files cannot be loaded, that is the answer. -/
theorem verify_of_fault {s : Session} {comments : List Comment} {fault : PathFault}
    (h : (s.verifier.loadNeeded t root comments).2 = some fault) :
    (s.verify r t root comments).1 = .error fault := by
  rw [verify]
  split
  · rename_i files first heq
    rw [heq] at h
    exact congrArg Except.error (Option.some.inj h)
  · rename_i files heq
    rw [heq] at h
    cases h

/-- **A call is answered by the options and the tree**, whatever is remembered, as long as it is
    faithful. The answer, or the fault where there is none, is that of reading all files first. -/
theorem verify_eq {s : Session} (h : s.memory.IsFaithful s.verifier) (t : Tree)
    (comments : List Comment) :
    (s.verify r t root comments).1 = s.verifier.verdict r t root comments := by
  cases hshelf : t.shelf root (s.verifier.filesNeeded comments) with
  | ok shelf =>
      have hlines : ∀ c ∈ comments, t.lines root c.path = .ok (shelf.lines? c.path) := by
        intro c hc
        exact Tree.lines_of_shelf t root hshelf (s.verifier.path_mem_filesNeeded hc)
      rw [verify, Verifier.loadNeeded_of_shelf hshelf, Verifier.verdict_eq_ok_iff.2 ⟨shelf, hshelf, rfl⟩]
      simp only [Verifier.decideAll_of_shelf r hlines LineCounts.isFaithful_nil h]
      exact congrArg Except.ok (Verifier.verdictOf_decisions r s.verifier shelf comments)
  | error fault =>
      have hfault := (Tree.shelf_eq_error_iff t root _ fault).1 hshelf
      rw [Verifier.verdict_eq_error_iff.2 hshelf]
      -- the files are loaded first where comments are placed, and else met comment by comment
      by_cases hplace : s.verifier.options.placement.isSome = true
      · exact verify_of_fault r root (Verifier.loadNeeded_of_fault hplace hfault)
      · rw [Verifier.findSome?_filesNeeded _ hplace] at hfault
        rw [verify, Verifier.loadNeeded, if_neg hplace]
        simp only [Verifier.decideAll_of_fault r hfault LineCounts.isFaithful_nil]
        rfl

/-! ## Runs -/

/-- The calls among some events, each with the tree as it stands then. -/
def calls (t : Tree) : List Event → List (Tree × List Comment)
  | [] => []
  | .write l content :: rest => calls (t.write l content) rest
  | .remove l :: rest => calls (t.remove l) rest
  | .call comments :: rest => (t, comments) :: calls t rest

/-- A run is answered call by call by the options and the tree. -/
theorem run_eq {s : Session} (h : s.memory.IsFaithful s.verifier) (t : Tree) (events : List Event) :
    s.run r root t events
      = (calls t events).map fun call => s.verifier.verdict r call.1 root call.2 := by
  -- the invariant is that what is remembered is faithful; only calls touch it
  induction events generalizing t s with
  | nil => rfl
  | cons event rest ih =>
      cases event with
      | write l content => exact ih h (t.write l content)
      | remove l => exact ih h (t.remove l)
      | call comments =>
          obtain ⟨hverifier, hmemory⟩ := isFaithful_verify r root h t comments
          rw [← hverifier] at hmemory
          have hrun : s.run r root t (.call comments :: rest)
              = (s.verify r t root comments).1 :: (s.verify r t root comments).2.run r root t rest := rfl
          rw [hrun, verify_eq r root h, ih hmemory, hverifier]
          rfl

/-- **A verifier in use answers as a new one**: in every run, with whatever is written and removed
    between the calls, each call is answered as a verifier answers it that was just built and sees the
    tree as it stands then. -/
theorem run_fresh (v : Verifier) (t : Tree) (events : List Event) :
    (fresh v).run r root t events
      = (calls t events).map fun call => ((fresh v).verify r call.1 root call.2).1 := by
  have hfaithful : (fresh v).memory.IsFaithful (fresh v).verifier := Verifier.isFaithful_nil v
  rw [run_eq r root hfaithful]
  refine List.map_congr_left fun call _ => ?_
  rw [verify_eq r root hfaithful]

end Session

end PatchReview
