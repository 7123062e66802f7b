import PatchReview.Diff.Basic
import PatchReview.Text.Blank
import PatchReview.Text.Digits
import PatchReview.Text.Lines

/-!
# Reading diffs

A diff is read line by line. An entry for a file is opened by a `diff --git` line or by a line `--- `
and gathers what its header lines say; it is closed by the next one, or by the end. A hunk header
promises a number of lines on either side, and until they are used up lines are read as the hunk's
body. A line `--- ` right before a line `+++ ` always opens an entry, even inside a body.

Lines that fit nowhere are passed over, and an entry without a usable path is left out. A hunk header
with a number of too many digits is the one thing that is refused, and the whole diff with it.
-/

namespace PatchReview.Diff

open PatchReview.Text

/-- The path that stands for a file that is not there. -/
def nowhere : String := "/dev/null"

/-! ## Header lines -/

/-- What follows the given beginning, if the line begins so. -/
def afterPrefix? (beginning : String) (line : List Char) : Option (List Char) :=
  let b := beginning.toList
  if b.isPrefixOf line then some (line.drop b.length) else none

/-- Whether the line begins so. -/
def begins (beginning : String) (line : List Char) : Bool := beginning.toList.isPrefixOf line

/-- The characters without the quotes around them. -/
def unquote (cs : List Char) : List Char :=
  if 2 ≤ cs.length ∧ cs.head? = some '\x22' ∧ cs.getLast? = some '\x22' then cs.tail.dropLast else cs

/-- The path in a header: what follows a tab is no part of it, and neither are quotes around it or
    the side it stands on. -/
def headerPath (raw : List Char) : String :=
  let cs := unquote (strip (raw.takeWhile (· ≠ '\t')))
  if String.ofList cs = nowhere then nowhere
  else
    match cs with
    | 'a' :: '/' :: rest => String.ofList rest
    | 'b' :: '/' :: rest => String.ofList rest
    | cs => String.ofList cs

/-- Whether a second path with its side stands here. -/
def isSecondPath (cs : List Char) : Bool :=
  match cs with
  | '\x22' :: 'b' :: '/' :: _ :: _ => true
  | 'b' :: '/' :: _ :: _ => true
  | _ => false

/-- The end of the first path, which takes at least one character, and the second path. The first
    path is as short as can be; a quote that closes it belongs to it. -/
def splitPaths (first : List Char) : List Char → Option (List Char × List Char)
  | [] => none
  | c :: rest =>
    let first := c :: first
    let second? := fun (cs : List Char) =>
      match cs with
      | ' ' :: second => if isSecondPath second then some second else none
      | _ => none
    match rest with
    | '\x22' :: more =>
      match second? more with
      | some second => some (('\x22' :: first).reverse, second)
      | none => splitPaths first rest
    | _ =>
      match second? rest with
      | some second => some (first.reverse, second)
      | none => splitPaths first rest

/-- The two paths after `diff --git `. -/
def gitPaths? (cs : List Char) : Option (String × String) :=
  let start := match cs with
    | '\x22' :: 'a' :: '/' :: rest => some (['/', 'a', '\x22'], rest)
    | 'a' :: '/' :: rest => some (['/', 'a'], rest)
    | _ => none
  match start with
  | none => none
  | some (first, rest) =>
    (splitPaths first rest).map fun (a, b) => (headerPath a, headerPath b)

/-- Decimal digits of any script, and what follows. -/
def readDigits (cs : List Char) : Option (List Char × List Char) :=
  let ds := cs.takeWhile isDecimal
  if ds.isEmpty then none else some (ds, cs.dropWhile isDecimal)

/-- What a hunk header says of one side, in digits: its first line, and its number of lines unless that is
    left out. -/
structure Range where
  first : List Char
  count : Option (List Char)
deriving DecidableEq, Repr

/-- Reads what is said of one side. -/
def readRange (cs : List Char) : Option (Range × List Char) :=
  match readDigits cs with
  | none => none
  | some (first, ',' :: rest) =>
    match readDigits rest with
    | some (count, rest) => some (⟨first, some count⟩, rest)
    | none => none
  | some (first, rest) => some (⟨first, none⟩, rest)

/-- A hunk header: what it says of either side. -/
structure Ranges where
  old : Range
  new : Range
deriving DecidableEq, Repr

/-- Reads a hunk header. -/
def readRanges (line : List Char) : Option Ranges := do
  let rest ← afterPrefix? "@@ -" line
  let (old, rest) ← readRange rest
  let rest ← afterPrefix? " +" rest
  let (new, rest) ← readRange rest
  if begins " @@" rest then return ⟨old, new⟩ else none

/-- The number of lines of a side, which is one where it is left out. -/
def Range.size (r : Range) : Except Overlong Nat :=
  match r.count with
  | some ds => numberOf ds
  | none => .ok 1

/-- What a hunk header promises: how many old lines follow, the first new line, and how many new
    lines follow. -/
structure Promise where
  oldCount : Nat
  newStart : Nat
  newCount : Nat
deriving DecidableEq, Repr

/-- What is promised, if the numbers can be taken. The first old line is not asked for. -/
def Ranges.promise (r : Ranges) : Except Overlong Promise := do
  let oldCount ← r.old.size
  let newStart ← numberOf r.new.first
  let newCount ← r.new.size
  return ⟨oldCount, newStart, newCount⟩

/-! ## Entries -/

/-- A hunk while it is read. -/
structure Stretch where
  first : Nat
  last  : Nat
  added : List AddedLine
deriving DecidableEq, Repr

/-- The entry of a file while it is read: what its header says, and its hunks. -/
structure Entry where
  oldPath   : Option String := none
  newPath   : Option String := none
  isNew     : Bool := false
  isDeleted : Bool := false
  hunks     : List Stretch := []
deriving DecidableEq, Repr

/-- The path, unless it stands for nothing. -/
def realPath (path : Option String) : Option String := if path = some nowhere then none else path

/-- The first of two paths that is not empty. -/
def firstPath (a b : Option String) : Option String :=
  match a.filter (· ≠ "") with
  | some p => some p
  | none => b.filter (· ≠ "")

/-- The change that an entry describes, if it has a usable path. -/
def Entry.change (e : Entry) : Option FileChange :=
  let isNew := e.isNew || e.oldPath = some nowhere
  let isDeleted := e.isDeleted || e.newPath = some nowhere
  let old := realPath e.oldPath
  let new := realPath e.newPath
  let path := if isDeleted then firstPath old new else firstPath new old
  let status : ChangeStatus :=
    if isDeleted then .deleted
    else if isNew then .added
    else
      match old.filter (· ≠ ""), new.filter (· ≠ "") with
      | some a, some b => if a = b then .modified else .renamed
      | _, _ => .modified
  path.map fun p => ⟨p, old, status, e.hunks.map fun h => ⟨p, h.first, h.last, h.added⟩⟩

/-! ## The reader -/

/-- The body of the hunk that is being read: the next line's number, and how many lines of either
    side are still promised. -/
structure Body where
  hunk    : Stretch
  next    : Nat
  oldLeft : Int
  newLeft : Int
deriving DecidableEq, Repr

/-- What is known after some lines of a diff. -/
structure Progress where
  /-- The changes of the entries that are closed. -/
  done    : List FileChange := []
  /-- The open entry, without the hunk that is being read. -/
  entry   : Option Entry := none
  /-- The last hunk of the open entry, as long as lines may still belong to it. -/
  body    : Option Body := none
  added   : Nat := 0
  deleted : Nat := 0
deriving DecidableEq, Repr

namespace Progress

/-- The hunk that is being read becomes one of the entry's. -/
def settle (s : Progress) : Progress :=
  match s.body with
  | none => s
  | some b =>
    { s with
      body := none
      entry := s.entry.map fun e => { e with hunks := e.hunks ++ [b.hunk] } }

/-- The open entry is closed. -/
def close (s : Progress) : Progress :=
  let s := s.settle
  { s with
    entry := none
    done := s.done ++ ((s.entry.bind Entry.change).toList) }

/-- The open entry is closed and another one opened. -/
def reopen (e : Entry) (s : Progress) : Progress := { s.close with entry := some e }

/-- Changes what the header of the open entry says. -/
def amend (change : Entry → Entry) (s : Progress) : Progress :=
  { s with entry := s.entry.map change }

/-- Whether the open entry has a hunk. -/
def hasHunk (s : Progress) : Bool :=
  s.body.isSome || s.entry.any fun e => !e.hunks.isEmpty

/-- Opens the hunk of a header. -/
def start (s : Progress) (promise : Promise) : Progress :=
  { s.settle with
    body := some ⟨⟨promise.newStart, promise.newStart, []⟩, promise.newStart, promise.oldCount,
      promise.newCount⟩ }

/-- Gives up what a hunk header promised. -/
def giveUp (s : Progress) : Progress :=
  { s with body := s.body.map fun b => { b with oldLeft := 0, newLeft := 0 } }

end Progress

/-- The body with one more added line. -/
def Body.addLine (content : List Char) (b : Body) : Body :=
  { b with
    hunk := { b.hunk with
      last := max b.hunk.last b.next
      added := b.hunk.added ++ [⟨b.next, String.ofList content⟩] }
    next := b.next + 1
    newLeft := b.newLeft - 1 }

/-- The body with one more line that is the same on both sides. -/
def Body.keepLine (b : Body) : Body :=
  { hunk := { b.hunk with last := max b.hunk.last b.next }
    next := b.next + 1
    oldLeft := b.oldLeft - 1
    newLeft := b.newLeft - 1 }

/-- Whether lines are still promised. -/
def Body.isOpen (b : Body) : Bool := 0 < b.oldLeft || 0 < b.newLeft

/-- Reads a line of a hunk's body, if it is one. -/
def readBody (b : Body) (line : List Char) (s : Progress) : Option Progress :=
  match line with
  | '\\' :: _ => some s
  | '+' :: content => some { s with body := some (b.addLine content), added := s.added + 1 }
  | '-' :: _ =>
    some { s with body := some { b with oldLeft := b.oldLeft - 1 }, deleted := s.deleted + 1 }
  | ' ' :: _ => some { s with body := some b.keepLine }
  | [] => some { s with body := some b.keepLine }
  | _ => none

/-- Reads a line outside a hunk's body. -/
def readHeader (line : List Char) (s : Progress) : Except Overlong Progress :=
  match afterPrefix? "diff --git " line with
  | some rest =>
    match gitPaths? rest with
    | some (old, new) => .ok (s.reopen { oldPath := some old, newPath := some new })
    | none => .ok (s.reopen {})
  | none =>
  match afterPrefix? "--- " line with
  | some rest =>
    let s := if s.entry.isNone || s.hasHunk then s.reopen {} else s
    .ok (s.amend fun e => { e with oldPath := some (headerPath rest) })
  | none =>
  match afterPrefix? "+++ " line with
  | some rest =>
    let s := if s.entry.isNone then { s with entry := some {} } else s
    .ok (s.amend fun e => { e with newPath := some (headerPath rest) })
  | none =>
  if begins "new file mode" line then .ok (s.amend fun e => { e with isNew := true })
  else if begins "deleted file mode" line then .ok (s.amend fun e => { e with isDeleted := true })
  else
  match afterPrefix? "rename from " line with
  | some rest => .ok (s.amend fun e => { e with oldPath := some (String.ofList (strip rest)) })
  | none =>
  match afterPrefix? "rename to " line with
  | some rest => .ok (s.amend fun e => { e with newPath := some (String.ofList (strip rest)) })
  | none =>
  if begins "@@" line then
    match readRanges line with
    | some ranges => if s.entry.isSome then ranges.promise.map s.start else .ok s.settle
    | none => .ok s.settle
  else .ok s

/-- Whether two lines in a row are the two path lines of an entry. -/
def opensEntry (line : List Char) (following : Option (List Char)) : Bool :=
  begins "--- " line && following.any (begins "+++ ")

/-- Reads one line, the one after it in view. -/
def readLine (s : Progress) (line : List Char) (following : Option (List Char)) :
    Except Overlong Progress :=
  match s.body with
  | none => readHeader line s
  | some b =>
    if b.isOpen && !opensEntry line following then
      match readBody b line s with
      | some s => .ok s
      | none => readHeader line s.giveUp
    else if b.isOpen then readHeader line s.giveUp
    else readHeader line s

/-- Reads the lines one after another. -/
def readLines (s : Progress) : List (List Char) → Except Overlong Progress
  | [] => .ok s
  | line :: rest => do readLines (← readLine s line rest.head?) rest

/-- What a reader with that progress answers at the end. -/
def Progress.result (s : Progress) : Diff :=
  let s := s.close
  ⟨s.done, ⟨s.added, s.deleted, s.done.length⟩⟩

/-- The diff that a text is. -/
def read (text : String) : Except Overlong Diff := (readLines {} (lines text.toList)).map Progress.result

end PatchReview.Diff
