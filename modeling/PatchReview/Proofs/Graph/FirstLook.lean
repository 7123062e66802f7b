import Mathlib
import PatchReview.Proofs.Graph.Resolver
import PatchReview.Tree.Event

/-!
# A resolver answers by its first looks

A resolver in use is asked where imports lead while files come and go. For each answer it looks at the
candidates one after another up to the one that it answers (`Answered.looked`), and whether a file stood at
a location is settled by the first question for which it was looked at (`standing`). So each answer is that
of a resolver without a memory to which this is said (`run_firstLooks`): the first of nine locations at
which a file stood.

The invariant is that what is remembered is what was found at the first looks (`Remembers`). As long as
nothing changes at the locations that were looked at, each answer is that of a new resolver.
-/

namespace PatchReview.Resolver

/-- An import whose target is asked for: the file that has it, and how it is written. -/
structure Query where
  importer  : Path
  specifier : String
deriving DecidableEq, Repr

/-- A question with the tree as it stood then and the answer. -/
structure Answered where
  tree   : Tree
  query  : Query
  answer : Option Location

/-- The answers of a resolver to questions, one after another. -/
def run (root : Location) (probes : Probes) : List (Tree × Query) → List Answered
  | [] => []
  | (t, q) :: rest =>
    let (answer, probes) := resolve t root probes q.importer q.specifier
    ⟨t, q, answer⟩ :: run root probes rest

/-! ## A resolver without a memory -/

/-- The locations that an import may mean, by where its text leads. -/
def meanings (base : Location) : List Location :=
  [base, withSuffix base ".ts", withSuffix base ".tsx", withSuffix base ".js", withSuffix base ".jsx",
    base ++ ["index.ts"], base ++ ["index.tsx"], base ++ ["index.js"], base ++ ["index.jsx"]]

/-- What a resolver without a memory answers if it is told where files stand: the first of the locations
    that are meant at which one does. -/
def answerBy (isFile : Location → Bool) (root : Location) (q : Query) : Option Location :=
  (base? root q.importer q.specifier).bind fun base => (meanings base).find? isFile

/-- The locations that were looked at for an answer. -/
def Answered.looked (root : Location) (a : Answered) : List Location :=
  match base? root a.query.importer a.query.specifier with
  | some base => upTo a.answer (candidates base)
  | none => []

/-- Whether a file stood at a location when it was first looked at for one of some answers; where it was
    not looked at, whether one stands there now. -/
def standing (root : Location) (past : List Answered) (t : Tree) (l : Location) : Bool :=
  match past.find? fun a => (a.looked root).contains l with
  | some a => a.tree.opensFile l
  | none => t.opensFile l

variable {t : Tree} {root : Location} {probes : Probes} {past : List Answered}

/-- The candidates are the locations that are meant, but for the top, which is no file. -/
theorem find?_candidates {isFile : Location → Bool} (htop : isFile [] = false)
    (hempty : isFile [""] = false) (base : Location) :
    (candidates base).find? isFile = (meanings base).find? isFile := by
  by_cases hne : base = []
  · subst hne
    show ([""] :: (meanings []).tail).find? isFile = ([] :: (meanings []).tail).find? isFile
    rw [List.find?_cons, List.find?_cons, htop, hempty]
  · rw [candidates_of_ne_nil hne]
    rfl

/-- The top is no file at any time. -/
theorem standing_top (root : Location) (past : List Answered) (t : Tree) :
    standing root past t [] = false ∧ standing root past t [""] = false := by
  rw [standing, standing]
  constructor
  · cases past.find? fun a => (a.looked root).contains [] with
    | some a => exact Tree.opensFile_directory rfl
    | none => exact Tree.opensFile_directory rfl
  · cases past.find? fun a => (a.looked root).contains [""] with
    | some a => exact Tree.opensFile_emptyName
    | none => exact Tree.opensFile_emptyName

/-! ## What is remembered -/

/-- Whether what is remembered is what was found at the first looks for some answers. -/
def Remembers (root : Location) (past : List Answered) (probes : Probes) : Prop :=
  ∀ l, probes.lookup l
    = (past.find? fun a => (a.looked root).contains l).map fun a => a.tree.opensFile l

theorem remembers_nil (root : Location) : Remembers root [] [] := fun _ => rfl

/-- What is taken for a file is what was one at the first look. -/
theorem Remembers.seen_eq (h : Remembers root past probes) (t : Tree) :
    seen t probes = standing root past t := by
  funext l
  rw [seen, standing, h l]
  cases past.find? fun a => (a.looked root).contains l with
  | some a => rfl
  | none => rfl

/-- So a question is answered by what stood at the first looks. -/
theorem Remembers.resolve_fst (h : Remembers root past probes) (t : Tree) (q : Query) :
    (resolve t root probes q.importer q.specifier).1 = answerBy (standing root past t) root q := by
  obtain ⟨htop, hempty⟩ := standing_top root past t
  rw [Resolver.resolve_fst, h.seen_eq, answerBy]
  cases base? root q.importer q.specifier with
  | none => rfl
  | some base => exact find?_candidates htop hempty base

/-- The looks for an answer are remembered after those before it. -/
theorem Remembers.concat (h : Remembers root past probes) (t : Tree) (q : Query) :
    Remembers root (past ++ [⟨t, q, (resolve t root probes q.importer q.specifier).1⟩])
      (resolve t root probes q.importer q.specifier).2 := by
  intro l
  rw [List.find?_append, Option.map_or, ← h l, resolve]
  cases hbase : base? root q.importer q.specifier with
  | none => simp [Answered.looked, hbase]
  | some base =>
      show (firstFile t probes (candidates base)).2.lookup l = _
      rw [lookup_firstFile]
      congr 1
      by_cases hl : l ∈ upTo (firstFile t probes (candidates base)).1 (candidates base)
      · simp [Answered.looked, hbase, hl]
      · simp [Answered.looked, hbase, hl]

/-- Every answer of a run is given by the first looks before it. -/
theorem answer_of_run (h : Remembers root past probes) {questions : List (Tree × Query)}
    {before after : List Answered} {a : Answered}
    (hrun : run root probes questions = before ++ a :: after) :
    a.answer = answerBy (standing root (past ++ before) a.tree) root a.query := by
  induction questions generalizing past probes before with
  | nil => simp [run] at hrun
  | cons question rest ih =>
      obtain ⟨t, q⟩ := question
      rw [run] at hrun
      cases before with
      | nil =>
          obtain ⟨rfl, -⟩ := List.cons.inj hrun
          rw [List.append_nil]
          exact h.resolve_fst t q
      | cons first before =>
          obtain ⟨rfl, hrest⟩ := List.cons.inj hrun
          rw [List.append_cons]
          exact ih (h.concat t q) hrest

/-- Where nothing has changed since the first looks, what stood then stands now. -/
theorem standing_eq {t : Tree}
    (h : ∀ a ∈ past, ∀ l ∈ a.looked root, a.tree.opensFile l = t.opensFile l) :
    standing root past t = t.opensFile := by
  funext l
  rw [standing]
  cases hfind : past.find? fun a => (a.looked root).contains l with
  | none => rfl
  | some a => exact h a (List.mem_of_find?_eq_some hfind) l (by simpa using List.find?_some hfind)

/-- **A resolver in use answers by its first looks**: in every run, with whatever is written and removed
    between the questions, each answer is the first of the locations that are meant at which a file stood
    when it was first looked at. Where nothing has changed since at the locations that were looked at,
    it is the answer of a new resolver; and that is the first of the locations at which a file stands. -/
theorem run_firstLooks (root : Location) (t : Tree) (events : List (Tree.Event Query)) :
    (∀ before a after, run root [] (t.asked events) = before ++ a :: after →
      a.answer = answerBy (standing root before a.tree) root a.query ∧
      ((∀ b ∈ before, ∀ l ∈ b.looked root, b.tree.opensFile l = a.tree.opensFile l) →
        a.answer = (resolve a.tree root [] a.query.importer a.query.specifier).1)) ∧
    ∀ t' q, (resolve t' root [] q.importer q.specifier).1 = answerBy t'.opensFile root q := by
  have hfresh : ∀ t' q, (resolve t' root [] q.importer q.specifier).1
      = answerBy t'.opensFile root q := by
    intro t' q
    rw [(remembers_nil root).resolve_fst t' q]
    rfl
  refine ⟨?_, hfresh⟩
  intro before a after hrun
  have hanswer := answer_of_run (remembers_nil root) hrun
  rw [List.nil_append] at hanswer
  refine ⟨hanswer, ?_⟩
  intro hsame
  rw [hanswer, standing_eq hsame, hfresh]

/-- A repository with one file. -/
def oneScript : Tree := Tree.empty.write ["repo", "a.ts"] ⟨#[]⟩

/-- An import of a file that is not there yet. -/
def wanted : Query := ⟨.ofLocation ["repo", "a.ts"], "./b"⟩

/-- The file is looked for in vain, written, and asked for again: the answer stays, although a new
    resolver finds the file. -/
theorem run_firstLooks_lateFile :
    run ["repo"] [] (oneScript.asked [.ask wanted, .write ["repo", "b.ts"] ⟨#[]⟩, .ask wanted])
        = [⟨oneScript, wanted, none⟩] ++ ⟨oneScript.write ["repo", "b.ts"] ⟨#[]⟩, wanted, none⟩ :: [] ∧
      answerBy (standing ["repo"] [⟨oneScript, wanted, none⟩] (oneScript.write ["repo", "b.ts"] ⟨#[]⟩))
        ["repo"] wanted = none ∧
      (resolve (oneScript.write ["repo", "b.ts"] ⟨#[]⟩) ["repo"] [] wanted.importer wanted.specifier).1
        = some ["repo", "b.ts"] := by
  have hfirst : (resolve oneScript ["repo"] [] wanted.importer wanted.specifier).1 = none := by cbv
  have hagain : (resolve (oneScript.write ["repo", "b.ts"] ⟨#[]⟩) ["repo"]
      (resolve oneScript ["repo"] [] wanted.importer wanted.specifier).2
      wanted.importer wanted.specifier).1 = none := by cbv
  have hrun : run ["repo"] []
      (oneScript.asked [.ask wanted, .write ["repo", "b.ts"] ⟨#[]⟩, .ask wanted])
        = [⟨oneScript, wanted, none⟩] ++
          ⟨oneScript.write ["repo", "b.ts"] ⟨#[]⟩, wanted, none⟩ :: [] := by
    simp only [Tree.asked, run, hfirst, hagain]
    rfl
  have hanswer := ((run_firstLooks ["repo"] oneScript
    [.ask wanted, .write ["repo", "b.ts"] ⟨#[]⟩, .ask wanted]).1 _ _ _ hrun).1
  exact ⟨hrun, hanswer.symm, by cbv⟩

end PatchReview.Resolver
