import PatchReview.Comment.Verification

/-!
# Verifiers in use

A verifier answers one call after another, and between the calls files come and go. As long as it is in
use it remembers which names it found to be known of a file. How many lines a file has it remembers for
one call only, and so it does the files that it loads to place comments. A call that ends with a fault
leaves what was remembered before.
-/

namespace PatchReview

open PatchReview.Number (Rounding)

/-- The names that were found to be known of files, by path. -/
abbrev NameMemory := List (String × List String)

/-- The number of lines that files had when they were first read; one that cannot be read has none. -/
abbrev LineCounts := List (String × Option Nat)

/-- The number of lines of a file, which is read unless it was before. -/
def LineCounts.count (t : Tree) (root : Location) (counts : LineCounts) (path : String) :
    Except PathFault (Option Nat × LineCounts) :=
  match counts.lookup path with
  | some count => .ok (count, counts)
  | none => do
    let count := (← t.lines root path).map (·.length)
    return (count, (path, count) :: counts)

namespace Verifier

variable (r : Rounding) (v : Verifier)

/-- The names that are known of a file, which are looked for unless they were before. -/
def lookUp (memory : NameMemory) (path : String) : List String × NameMemory :=
  match memory.lookup path with
  | some names => (names, memory)
  | none => (v.knownNames path, (path, v.knownNames path) :: memory)

/-- Why a comment is dropped, given the number of lines of its file, the names known of it and the
    comments kept before; nothing if it is kept. -/
def reasonsGiven (count : Option Nat) (names : List String) (kept : List Comment) (c : Comment) :
    List DropReason :=
  let plain :=
    (if count.any fun n => 1 ≤ c.line && c.line ≤ n then [] else [.invalidLocation]) ++
    (if v.suggestsSomething c then [] else [.weakSuggestion]) ++
    (if names.isEmpty || names.any (mentions (c.rationale ++ "\n" ++ c.suggestion)) then []
      else [.noKnownSymbols]) ++
    (if kept.any (v.repeats r c) then [.duplicate] else [])
  match plain with
  | [] => if v.options.placement.isSome && kept.any (resembles r c) then [.fuzzyDuplicate] else []
  | found => found

/-- Decides comments one after another, given what is remembered and those kept before the first. The
    names that are remembered stay, also where a file's path leads nowhere. -/
def decideAll (t : Tree) (root : Location) (counts : LineCounts) (memory : NameMemory)
    (kept : List Comment) :
    List Comment → Except PathFault (List (Comment × List DropReason)) × NameMemory
  | [] => (.ok [], memory)
  | c :: rest =>
    match counts.count t root c.path with
    | .error fault => (.error fault, memory)
    | .ok (count, counts) =>
      let (names, memory) := v.lookUp memory c.path
      let why := v.reasonsGiven r count names kept c
      let (decided, memory) :=
        decideAll t root counts memory (if why.isEmpty then kept ++ [c] else kept) rest
      (decided.map ((c, why) :: ·), memory)

/-- The verdict on comments that are decided, with the files that are loaded to place them. -/
def verdictOf (files : LoadedFiles) (comments : List Comment)
    (decided : List (Comment × List DropReason)) : Verdict :=
  let kept := (decided.filter (·.2.isEmpty)).map (·.1)
  let dropped := (decided.filter (!·.2.isEmpty)).map fun d => (⟨d.1, d.2⟩ : Dropped)
  match v.options.placement with
  | none => ⟨kept, dropped, [], []⟩
  | some o =>
    let misplaced := comments.filterMap (·.misplaced? r o files)
    if v.options.relocate then
      let placed := kept.map fun c => (c, relocation r o files c)
      ⟨placed.map fun p => (p.2.map (·.comment)).getD p.1, dropped, placed.filterMap (·.2), misplaced⟩
    else ⟨kept, dropped, [], misplaced⟩

/-- Loads the files that comments may be placed in, where comments are placed. -/
def loadNeeded (t : Tree) (root : Location) (comments : List Comment) :
    LoadedFiles × Option PathFault :=
  if v.options.placement.isSome then LoadedFiles.load t root [] (v.filesNeeded comments) else ([], none)

end Verifier

/-- A verifier in use, with what it remembers. -/
structure Session where
  verifier : Verifier
  memory   : NameMemory := []
deriving DecidableEq, Repr

namespace Session

/-- A verifier that is new: it remembers nothing. -/
def fresh (v : Verifier) : Session := { verifier := v }

/-- A new verifier with some options. -/
def ofOptions (o : VerifyOptions) : Except BadExpression Session := do
  return fresh (← Verifier.ofOptions o)

variable (r : Rounding)

/-- Answers a call, and remembers what was found. -/
def verify (s : Session) (t : Tree) (root : Location) (comments : List Comment) :
    Except PathFault Verdict × Session :=
  match s.verifier.loadNeeded t root comments with
  | (_, some fault) => (.error fault, s)
  | (files, none) =>
    let (decided, memory) := s.verifier.decideAll r t root [] s.memory [] comments
    (decided.map (s.verifier.verdictOf r files comments), { s with memory := memory })

end Session

/-- What may happen while a verifier is in use. -/
inductive Event where
  | write (l : Location) (content : ByteArray)
  | remove (l : Location)
  | call (comments : List Comment)
deriving DecidableEq

namespace Session

variable (r : Rounding)

/-- The answers of a verifier to the calls among some events. -/
def run (root : Location) (t : Tree) (s : Session) : List Event → List (Except PathFault Verdict)
  | [] => []
  | .write l content :: rest => run root (t.write l content) s rest
  | .remove l :: rest => run root (t.remove l) s rest
  | .call comments :: rest =>
    let (answer, s) := s.verify r t root comments
    answer :: run root t s rest

end Session

end PatchReview
