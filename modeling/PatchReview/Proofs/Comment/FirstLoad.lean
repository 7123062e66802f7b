import Mathlib
import PatchReview.Proofs.Comment.Loading
import PatchReview.Proofs.Distinct
import PatchReview.Proofs.Tree.Lines
import PatchReview.Tree.Event

/-!
# Files as they were first loaded

What is loaded after some calls are the first successful loads of the files that were named
(`IsFirstLoads`): each file once, under its normal path, in the order of these loads and with the lines that
it had then. A file that cannot be read changes nothing, and is loaded by a later call when it can be.

A call goes through its files one by one and ends at the first that is not loaded and cannot be followed.
So what is loaded are the first loads of the files that were reached, in every run; and they are the first
loads of all files that were named exactly if no call ends in front of a file that could be read and was
not loaded yet (`loadedBy_firstLoads_iff`).
-/

namespace PatchReview.LoadedFiles

/-- A file that is named in a call, under its normal path, with the tree and the root of the call. -/
structure Attempt where
  tree : Tree
  root : Location
  path : String

/-- The lines of the file, if it can be read. -/
def Attempt.lines? (a : Attempt) : Option (List String) := (a.tree.lines a.root a.path).toOption.join

/-- Its lines, if it is the file of a path and can be read. -/
def Attempt.linesOf? (path : String) (a : Attempt) : Option (List String) :=
  if a.path = path then a.lines? else none

/-- The files that a call names, one after another. -/
def Call.attempts (c : Call) : List Attempt :=
  c.files.map fun file => ⟨c.tree, c.root, Path.normalized file⟩

/-- The files that some calls name. -/
def attempts (calls : List Call) : List Attempt := calls.flatMap (·.attempts)

/-- Whether a file is loaded. -/
def holds (loaded : LoadedFiles) (path : String) : Bool := loaded.any (·.1 == path)

/-- The files that a call comes to: those before the first that is not loaded and cannot be followed. -/
def Call.reached (loaded : LoadedFiles) (c : Call) : List Attempt :=
  c.attempts.takeWhile fun a => loaded.holds a.path || (a.tree.fault? a.root a.path).isNone

/-- The files that calls come to, one after another. -/
def reachedFrom (loaded : LoadedFiles) : List Call → List Attempt
  | [] => []
  | c :: rest => c.reached loaded ++ reachedFrom (load c.tree c.root loaded c.files).1 rest

/-- Whether files are loaded as they were at the first successful loads among some attempts: in the order
    of these loads, each once and with the lines that it had then. -/
structure IsFirstLoads (as : List Attempt) (loaded : LoadedFiles) : Prop where
  order : loaded.map (·.1) = ((as.filter (·.lines?.isSome)).map (·.path)).eraseDups
  first : ∀ f ∈ loaded, as.findSome? (·.linesOf? f.1) = some f.2

/-! ## One attempt after another -/

/-- Loads the file of one attempt, unless it is loaded or cannot be read. -/
def add (loaded : LoadedFiles) (a : Attempt) : LoadedFiles :=
  if loaded.holds a.path then loaded else loaded ++ (a.lines?.map fun ls => (a.path, ls)).toList

variable {loaded : LoadedFiles} {as : List Attempt} {a : Attempt}

theorem holds_iff {path : String} : loaded.holds path = true ↔ path ∈ loaded.map (·.1) := by
  simp [holds]

theorem add_of_lines? {ls : List String} (hnew : loaded.holds a.path = false)
    (h : a.lines? = some ls) : add loaded a = loaded ++ [(a.path, ls)] := by
  rw [add, hnew, h]
  rfl

/-- A file that cannot be read changes nothing. -/
theorem add_of_none (h : a.lines? = none) : add loaded a = loaded := by
  rw [add, h]
  by_cases hold : loaded.holds a.path = true
  · rw [if_pos hold]
  · rw [if_neg hold]
    exact List.append_nil loaded

/-- Nor does one that is loaded already. -/
theorem add_of_holds (h : loaded.holds a.path = true) : add loaded a = loaded := by
  rw [add, if_pos h]

theorem isFirstLoads_nil : IsFirstLoads [] [] := ⟨rfl, List.forall_mem_nil _⟩

/-- No file is loaded twice. -/
theorem IsFirstLoads.nodup (h : IsFirstLoads as loaded) : (loaded.map (·.1)).Nodup := by
  rw [h.order]
  exact nodup_eraseDups _

/-- A file is loaded exactly if one of the attempts succeeded, whatever the others found. -/
theorem IsFirstLoads.holds_iff (h : IsFirstLoads as loaded) {path : String} :
    loaded.holds path = true ↔ ∃ b ∈ as, b.lines?.isSome = true ∧ b.path = path := by
  rw [LoadedFiles.holds_iff, h.order, List.mem_eraseDups, List.mem_map]
  simp only [List.mem_filter, and_assoc]

/-- An attempt of a file that is loaded, or that cannot be read, loads nothing. -/
theorem IsFirstLoads.concat_of_idle (h : IsFirstLoads as loaded)
    (hidle : a.lines?.isSome = true → loaded.holds a.path = true) :
    IsFirstLoads (as ++ [a]) loaded := by
  refine ⟨?_, ?_⟩
  · rw [List.filter_append, List.map_append]
    cases hsome : a.lines?.isSome with
    | false =>
        rw [List.filter_cons_of_neg (by simp [hsome]), List.filter_nil, List.map_nil, List.append_nil]
        exact h.order
    | true =>
        have hin := hidle hsome
        rw [LoadedFiles.holds_iff, h.order, List.mem_eraseDups] at hin
        rw [List.filter_cons_of_pos (by simpa using hsome), List.filter_nil, List.map_singleton,
          eraseDups_concat, if_pos hin]
        exact h.order
  · intro f hf
    rw [List.findSome?_append, h.first f hf]
    rfl

/-- The first attempt of a file that can be read loads it. -/
theorem IsFirstLoads.concat_of_new (h : IsFirstLoads as loaded) (hnew : loaded.holds a.path = false)
    {ls : List String} (hlines : a.lines? = some ls) :
    IsFirstLoads (as ++ [a]) (loaded ++ [(a.path, ls)]) := by
  refine ⟨?_, List.forall_mem_append.2 ⟨?_, List.forall_mem_singleton.2 ?_⟩⟩
  · have hout : a.path ∉ (as.filter (·.lines?.isSome)).map (·.path) := by
      rw [← List.mem_eraseDups, ← h.order, ← LoadedFiles.holds_iff, hnew]
      exact Bool.false_ne_true
    rw [List.map_append, List.map_singleton, List.filter_append,
      List.filter_cons_of_pos (by simp [hlines]), List.filter_nil, List.map_append, List.map_singleton,
      eraseDups_concat, if_neg hout, h.order]
  · intro f hf
    rw [List.findSome?_append, h.first f hf]
    rfl
  · -- none of the attempts before this one loaded the file
    have hnone : as.findSome? (·.linesOf? a.path) = none := by
      rw [List.findSome?_eq_none_iff]
      intro b hb
      rw [Attempt.linesOf?, ite_eq_right_iff]
      intro hpath
      cases hsome : b.lines? with
      | none => rfl
      | some found =>
          have hin := h.holds_iff.2 ⟨b, hb, by rw [hsome]; rfl, hpath⟩
          rw [hnew] at hin
          cases hin
    rw [List.findSome?_append, hnone]
    simp [Attempt.linesOf?, hlines]

/-- **One attempt more keeps what is loaded the first loads.** -/
theorem IsFirstLoads.add (h : IsFirstLoads as loaded) (a : Attempt) :
    IsFirstLoads (as ++ [a]) (add loaded a) := by
  cases hold : loaded.holds a.path with
  | true =>
      rw [add_of_holds hold]
      exact h.concat_of_idle fun _ => hold
  | false =>
      cases hlines : a.lines? with
      | none =>
          rw [add_of_none hlines]
          exact h.concat_of_idle fun hsome => absurd hsome (by simp [hlines])
      | some ls =>
          rw [add_of_lines? hold hlines]
          exact h.concat_of_new hold hlines

theorem IsFirstLoads.foldl_add (h : IsFirstLoads as loaded) (more : List Attempt) :
    IsFirstLoads (as ++ more) (more.foldl LoadedFiles.add loaded) := by
  induction more generalizing as loaded with
  | nil => rwa [List.append_nil]
  | cons a rest ih =>
      rw [List.append_cons]
      exact ih (h.add a)

/-! ## One call after another -/

theorem mem_attempts_of_mem_reached {call : Call} (h : a ∈ call.reached loaded) : a ∈ call.attempts :=
  (List.takeWhile_sublist _).mem h

/-- A file that could be followed does not end a call, so it does not matter whether it is loaded. -/
theorem reached_append (t : Tree) (root : Location) (files : List String) {path : String}
    {ls : List String} (hlines : t.lines root path = .ok (some ls)) :
    Call.reached (loaded ++ [(path, ls)]) ⟨t, root, files⟩ = Call.reached loaded ⟨t, root, files⟩ := by
  have hfollowed : t.fault? root path = none := by
    rw [Tree.fault?, hlines]
  rw [Call.reached, Call.reached, Call.attempts, List.takeWhile_map, List.takeWhile_map]
  congr 2
  funext file
  by_cases hsame : Path.normalized file = path
  · simp [hsame, hfollowed]
  · have hother : (path == Path.normalized file) = false := beq_eq_false_iff_ne.2 (Ne.symm hsame)
    simp [holds, hother]

/-- **A call loads the files that it comes to**, one after another. -/
theorem load_eq_foldl (t : Tree) (root : Location) (loaded : LoadedFiles) (files : List String) :
    (load t root loaded files).1 = (Call.reached loaded ⟨t, root, files⟩).foldl add loaded := by
  induction files generalizing loaded with
  | nil => rfl
  | cons file rest ih =>
      have hattempts : Call.attempts ⟨t, root, file :: rest⟩
          = ⟨t, root, Path.normalized file⟩ :: Call.attempts ⟨t, root, rest⟩ := rfl
      rw [load, Call.reached, hattempts, List.takeWhile_cons]
      cases hold : loaded.holds (Path.normalized file) with
      | true =>
          have hany : loaded.any (·.1 == Path.normalized file) = true := hold
          rw [if_pos hany, Bool.true_or, if_pos rfl, List.foldl_cons, add_of_holds hold]
          exact ih loaded
      | false =>
          have hany : ¬loaded.any (·.1 == Path.normalized file) = true :=
            fun h => Bool.false_ne_true (hold.symm.trans h)
          rw [if_neg hany]
          cases hlines : t.lines root (Path.normalized file) with
          | error fault => simp [Tree.fault?, hlines]
          | ok lines? =>
              rw [Tree.fault?, hlines, Bool.false_or, Option.isNone_none, if_pos rfl, List.foldl_cons]
              cases lines? with
              | none =>
                  rw [add_of_none (by simp [Attempt.lines?, hlines, Except.toOption])]
                  exact ih loaded
              | some ls =>
                  have hread : Attempt.lines? ⟨t, root, Path.normalized file⟩ = some ls := by
                    simp [Attempt.lines?, hlines, Except.toOption]
                  rw [add_of_lines? hold hread]
                  exact (ih _).trans (by rw [reached_append t root rest hlines]; rfl)

theorem holds_foldl_add_iff {path : String} :
    holds (as.foldl add loaded) path = true ↔
      loaded.holds path = true ∨ ∃ a ∈ as, a.lines?.isSome = true ∧ a.path = path := by
  induction as generalizing loaded with
  | nil => simp
  | cons a rest ih =>
      have hadd : holds (add loaded a) path = true ↔
          loaded.holds path = true ∨ a.lines?.isSome = true ∧ a.path = path := by
        cases hold : loaded.holds a.path with
        | true =>
            rw [add_of_holds hold]
            refine ⟨.inl, ?_⟩
            rintro (h | ⟨-, rfl⟩)
            · exact h
            · exact hold
        | false =>
            cases hlines : a.lines? with
            | none => simp [add_of_none hlines]
            | some ls => simp [add_of_lines? hold hlines, holds]
      rw [List.foldl_cons, ih, hadd, List.exists_mem_cons_iff, or_assoc]

/-- The calls that load files among some events, each with the tree as it stands then. -/
def callsOf (t : Tree) (events : List (Tree.Event (Location × List String))) : List Call :=
  (t.asked events).map fun q => ⟨q.1, q.2.1, q.2.2⟩

theorem loadedBy_concat (calls : List Call) (call : Call) :
    loadedBy (calls ++ [call]) = (load call.tree call.root (loadedBy calls) call.files).1 := by
  rw [loadedBy, List.foldl_append]
  rfl

/-- **What is loaded are the first loads of the files that were come to.** -/
theorem isFirstLoads_reachedFrom (calls : List Call) :
    IsFirstLoads (reachedFrom [] calls) (loadedBy calls) := by
  have hrun : ∀ as loaded, IsFirstLoads as loaded →
      IsFirstLoads (as ++ reachedFrom loaded calls)
        (calls.foldl (fun loaded call => (load call.tree call.root loaded call.files).1) loaded) := by
    induction calls with
    | nil =>
        intro as loaded h
        rwa [reachedFrom, List.append_nil]
    | cons call rest ih =>
        intro as loaded h
        rw [reachedFrom, ← List.append_assoc, List.foldl_cons]
        refine ih _ _ ?_
        rw [load_eq_foldl]
        exact h.foldl_add _
  exact hrun [] [] isFirstLoads_nil

/-- Whether a call passes no file over that could be read: each is loaded before, or the call comes to
    it. -/
def Call.IsComplete (loaded : LoadedFiles) (c : Call) : Prop :=
  ∀ a ∈ c.attempts, a.lines?.isSome = true → loaded.holds a.path = true ∨ a ∈ c.reached loaded

theorem foldl_add_of_idle (h : ∀ a ∈ as, add loaded a = loaded) : as.foldl add loaded = loaded := by
  induction as with
  | nil => rfl
  | cons a rest ih =>
      obtain ⟨ha, hrest⟩ := List.forall_mem_cons.1 h
      rw [List.foldl_cons, ha]
      exact ih hrest

/-- A call that passes no file over loads what it would if it went on to its last file. -/
theorem load_of_isComplete {call : Call} (h : call.IsComplete loaded) :
    (load call.tree call.root loaded call.files).1 = call.attempts.foldl add loaded := by
  obtain ⟨passed, hpassed⟩ : ∃ passed, call.reached loaded ++ passed = call.attempts :=
    List.takeWhile_prefix _
  rw [load_eq_foldl, ← hpassed, List.foldl_append]
  refine (foldl_add_of_idle fun a ha => ?_).symm
  have hin : a ∈ call.attempts := hpassed ▸ List.mem_append_right _ ha
  cases hsome : a.lines?.isSome with
  | false => exact add_of_none (by simpa using hsome)
  | true =>
      refine add_of_holds (holds_foldl_add_iff.2 ?_)
      rcases h a hin hsome with hold | hreached
      · exact .inl hold
      · exact .inr ⟨a, hreached, hsome, rfl⟩

theorem attempts_concat (calls : List Call) (call : Call) :
    attempts (calls ++ [call]) = attempts calls ++ call.attempts := by
  rw [attempts, List.flatMap_append, List.flatMap_singleton]
  rfl

/-- If all calls so far passed no file over, what is loaded are the first loads of all that were named. -/
theorem isFirstLoads_attempts {calls : List Call}
    (h : ∀ before call after, calls = before ++ call :: after → call.IsComplete (loadedBy before)) :
    IsFirstLoads (attempts calls) (loadedBy calls) := by
  induction calls using List.reverseRecOn with
  | nil => exact isFirstLoads_nil
  | append_singleton calls call ih =>
      have hcalls : IsFirstLoads (attempts calls) (loadedBy calls) := by
        refine ih fun before first after hsplit => h before first (after ++ [call]) ?_
        rw [hsplit, List.append_assoc, List.cons_append]
      rw [loadedBy_concat, attempts_concat, load_of_isComplete (h calls call [] rfl)]
      exact hcalls.foldl_add _

/-- A call that passes a file over does not load it. -/
theorem isComplete_of_isFirstLoads {before : List Call} {call : Call}
    (h : IsFirstLoads (attempts (before ++ [call])) (loadedBy (before ++ [call]))) :
    call.IsComplete (loadedBy before) := by
  intro a ha hsome
  have hheld := h.holds_iff.2
    ⟨a, by rw [attempts_concat]; exact List.mem_append_right _ ha, hsome, rfl⟩
  rw [loadedBy_concat, load_eq_foldl, holds_foldl_add_iff] at hheld
  refine hheld.imp_right ?_
  rintro ⟨b, hb, -, hpath⟩
  -- a call has one tree and one root, so the attempt that loaded the file is this one
  obtain ⟨file, -, rfl⟩ := List.mem_map.1 ha
  obtain ⟨file', -, rfl⟩ := List.mem_map.1 (mem_attempts_of_mem_reached hb)
  simp only at hpath
  rwa [← hpath]

/-- **Files are loaded once, under normal paths, in the order of their first loads and with the lines that
    they had then**, of all files that the calls of a run come to; a file that cannot be read changes
    nothing. These are the first loads of all files that were named, after every call of a run, exactly if
    no call passes a file over that could be read. -/
theorem loadedBy_firstLoads_iff (t : Tree) (events : List (Tree.Event (Location × List String))) :
    ((loadedBy (callsOf t events)).map (·.1)).Nodup ∧
      (∀ f ∈ loadedBy (callsOf t events), Path.normalized f.1 = f.1) ∧
      IsFirstLoads (reachedFrom [] (callsOf t events)) (loadedBy (callsOf t events)) ∧
      (∀ t' root loaded file, Attempt.lines? ⟨t', root, Path.normalized file⟩ = none →
        (load t' root loaded [file]).1 = loaded) ∧
      ((∀ before after, callsOf t events = before ++ after →
          IsFirstLoads (attempts before) (loadedBy before)) ↔
        ∀ before call after, callsOf t events = before ++ call :: after →
          call.IsComplete (loadedBy before)) := by
  have hfirst := isFirstLoads_reachedFrom (callsOf t events)
  refine ⟨hfirst.nodup, normalized_of_mem_loadedBy _, hfirst, ?_, ?_, ?_⟩
  · intro t' root loaded file hnone
    rw [load_eq_foldl]
    refine foldl_add_of_idle fun a ha => ?_
    obtain ⟨file', hfile, rfl⟩ := List.mem_map.1 (mem_attempts_of_mem_reached ha)
    rw [List.mem_singleton.1 hfile]
    exact add_of_none hnone
  · intro hall before call after hsplit
    refine isComplete_of_isFirstLoads (hall (before ++ [call]) after ?_)
    rw [hsplit, List.append_assoc, List.singleton_append]
  · intro hcomplete before after hsplit
    refine isFirstLoads_attempts fun first call rest hbefore => hcomplete first call (rest ++ after) ?_
    rw [hsplit, hbefore, List.append_assoc, List.cons_append]

/-- A repository without a file, in which one is written after it was looked for in vain. -/
def lateFile : List (Tree.Event (Location × List String)) :=
  [.ask (["repo"], ["a.ts"]), .write ["repo", "a.ts"] ⟨#[]⟩, .ask (["repo"], ["b\x00", "a.ts"])]

/-- **A name with a zero character ends the call**, so the file behind it is not loaded although it can
    be read by now. -/
theorem loadedBy_passedOver :
    (∃ a ∈ attempts (callsOf .empty lateFile), a.path = "a.ts" ∧ a.lines? = some [""]) ∧
      loadedBy (callsOf .empty lateFile) = [] ∧
      ¬IsFirstLoads (attempts (callsOf .empty lateFile)) (loadedBy (callsOf .empty lateFile)) := by
  have hread : ∃ a ∈ attempts (callsOf .empty lateFile), a.path = "a.ts" ∧ a.lines? = some [""] := by
    refine ⟨⟨Tree.empty.write ["repo", "a.ts"] ⟨#[]⟩, ["repo"], Path.normalized "a.ts"⟩, ?_, by cbv,
      by cbv⟩
    exact List.mem_flatMap.2 ⟨⟨_, ["repo"], ["b\x00", "a.ts"]⟩, .tail _ (.head _), .tail _ (.head _)⟩
  have hloaded : loadedBy (callsOf .empty lateFile) = [] := by cbv
  refine ⟨hread, hloaded, ?_⟩
  intro h
  obtain ⟨a, ha, -, hlines⟩ := hread
  have hheld := h.holds_iff.2 ⟨a, ha, by rw [hlines]; rfl, rfl⟩
  rw [hloaded] at hheld
  cases hheld

end PatchReview.LoadedFiles
