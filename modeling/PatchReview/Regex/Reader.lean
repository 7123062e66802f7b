import PatchReview.Json.Reader
import PatchReview.Regex.Basic
import PatchReview.Text.Digits
import PatchReview.Text.Name
import PatchReview.Text.Quoted

/-!
# Reading regular expressions

The text of an expression is cut into pieces, single characters and characters after a backslash, and
read with one piece of foresight. Case is ignored unless a part of the expression says otherwise.
-/

namespace PatchReview.Regex

/-- What is wrong with the text of an expression. -/
inductive Fault where
  | escapeAtEnd
  | badEscape (escape : String)
  | incompleteEscape (escape : String)
  | octalTooLarge (escape : String)
  | badRange (first last : String)
  | openSet
  | openGroup
  | openComment
  | unexpectedEnd
  | strayClosing
  | nothingToRepeat
  | multipleRepeat
  | leastAboveMost
  | unknownExtension (text : String)
  | badGroupName (name : String)
  | missingGroupName
  | unclosedName (closing : Char)
  | repeatedName (name : String) (number old : Nat)
  | unknownName (name : String)
  | openReference
  | referenceBehind
  | unknownGroup (number : Nat)
  | groupZero
  | manyBranches
  | variableWidth
  | lateFlags
  | unknownFlag
  | missingFlag
  | missingAfterFlag
  | missingColon
  | bytesFlag
  | typeFlagOff
  | flagOnAndOff
  | typeFlagsTogether
  | typesTogether
  | tooManyRepeats
  | overlong (e : Text.Overlong)
deriving DecidableEq, Repr

/-- What is wrong, in words. -/
def Fault.message : Fault → String
  | .escapeAtEnd => "bad escape (end of pattern)"
  | .badEscape e => "bad escape " ++ e
  | .incompleteEscape e => "incomplete escape " ++ e
  | .octalTooLarge e => "octal escape value " ++ e ++ " outside of range 0-0o377"
  | .badRange a b => "bad character range " ++ a ++ "-" ++ b
  | .openSet => "unterminated character set"
  | .openGroup => "missing ), unterminated subpattern"
  | .openComment => "missing ), unterminated comment"
  | .unexpectedEnd => "unexpected end of pattern"
  | .strayClosing => "unbalanced parenthesis"
  | .nothingToRepeat => "nothing to repeat"
  | .multipleRepeat => "multiple repeat"
  | .leastAboveMost => "min repeat greater than max repeat"
  | .unknownExtension e => "unknown extension ?" ++ e
  | .badGroupName n => "bad character in group name " ++ Text.quoted n
  | .missingGroupName => "missing group name"
  | .unclosedName c => "missing " ++ String.singleton c ++ ", unterminated name"
  | .repeatedName n number old =>
    "redefinition of group name " ++ Text.quoted n ++ " as group " ++ toString number ++
      "; was group " ++ toString old
  | .unknownName n => "unknown group name " ++ Text.quoted n
  | .openReference => "cannot refer to an open group"
  | .referenceBehind => "cannot refer to group defined in the same lookbehind subpattern"
  | .groupZero => "bad group number"
  | .manyBranches => "conditional backref with more than two branches"
  | .unknownGroup n => "invalid group reference " ++ toString n
  | .variableWidth => "look-behind requires fixed-width pattern"
  | .lateFlags => "global flags not at the start of the expression"
  | .unknownFlag => "unknown flag"
  | .missingFlag => "missing flag"
  | .missingAfterFlag => "missing -, : or )"
  | .missingColon => "missing :"
  | .bytesFlag => "bad inline flags: cannot use 'L' flag with a str pattern"
  | .typeFlagOff => "bad inline flags: cannot turn off flags 'a', 'u' and 'L'"
  | .flagOnAndOff => "bad inline flags: flag turned on and off"
  | .typeFlagsTogether => "bad inline flags: flags 'a', 'u' and 'L' are incompatible"
  | .typesTogether => "ASCII and UNICODE flags are incompatible"
  | .tooManyRepeats => "the repetition number is too large"
  | .overlong e => e.message

/-- What is wrong with an expression, and at which character. -/
structure ReadError where
  fault : Fault
  place : Option Nat
deriving DecidableEq, Repr

/-- What is wrong with the text, in words; in a text of several lines, also where in the lines. -/
def ReadError.message (text : String) (e : ReadError) : String :=
  match e.place with
  | none => e.fault.message
  | some place =>
    let before := text.toList.take place
    let line := before.count '\n' + 1
    let column := (before.reverse.takeWhile (· ≠ '\n')).length + 1
    let inLines :=
      if text.toList.contains '\n' then
        " (line " ++ toString line ++ ", column " ++ toString column ++ ")"
      else ""
    e.fault.message ++ " at position " ++ toString place ++ inLines

/-- A piece of an expression. -/
inductive Piece where
  | plain (c : Char)
  | escaped (c : Char)
  /-- A backslash with nothing after it. -/
  | cut
deriving DecidableEq, Repr

/-- The text of a piece. -/
def Piece.text : Piece → String
  | .plain c => String.singleton c
  | .escaped c => String.ofList ['\\', c]
  | .cut => "\\"

/-- The pieces of a text with their positions. -/
def piecesFrom (place : Nat) : List Char → List (Nat × Piece)
  | [] => []
  | ['\\'] => [(place, .cut)]
  | '\\' :: c :: rest => (place, .escaped c) :: piecesFrom (place + 2) rest
  | c :: rest => (place, .plain c) :: piecesFrom (place + 1) rest

/-- How characters are read and compared. -/
structure Mode where
  fold      : Bool
  manyLines : Bool
  dotAll    : Bool
  spaced    : Bool
  reach     : Reach
deriving DecidableEq, Repr

/-- What remains to be read, and the groups met so far. -/
structure Reading where
  pieces : List (Nat × Piece)
  size   : Nat
  groups : Nat
  opened : List Nat
  names  : List (String × Nat)
  widths : List (Nat × Nat × Option Nat)
  /-- Whether something to look back at has no fixed width. -/
  loose  : Bool
  /-- The number of groups met before the part to look back at that is being read. -/
  behind : Option Nat
  /-- The groups that a choice asks for, with where it does. -/
  asked  : List (Nat × Nat)
  /-- The kinds of characters that were set for the whole expression. -/
  types  : List Reach

/-- Reading that may fail. -/
abbrev Read (α : Type) := StateT Reading (Except ReadError) α

/-- The position of the next piece. -/
def place : Read Nat := do
  let s ← get
  return (s.pieces.head?.map (·.1)).getD s.size

/-- Fails at a number of characters before the next piece. -/
def fail {α : Type} (fault : Fault) (back : Nat) : Read α := do
  throw ⟨fault, some ((← place) - back)⟩

/-- The next piece, which stays. -/
def peek : Read (Option Piece) := return (← get).pieces.head?.map (·.2)

/-- Takes the next piece. The one after it has to be whole. -/
def take : Read (Option Piece) := do
  let s ← get
  match s.pieces with
  | [] => return none
  | (_, p) :: rest =>
    match rest with
    | (at_, .cut) :: _ => throw ⟨.escapeAtEnd, some at_⟩
    | _ =>
      set { s with pieces := rest }
      return some p

/-- Takes the next piece if it is that character. -/
def takeIf (c : Char) : Read Bool := do
  if (← peek) = some (.plain c) then
    let _ ← take
    return true
  else return false

/-- Takes up to so many characters that pass a test. -/
def takeWhile (test : Char → Bool) : (count : Nat) → Read (List Char)
  | 0 => return []
  | count + 1 => do
    match ← peek with
    | some (.plain c) =>
      if test c then
        let _ ← take
        return c :: (← takeWhile test count)
      else return []
    | _ => return []

/-- Whether a character is a digit below eight. -/
def isOctal (c : Char) : Bool := '0' ≤ c && c ≤ '7'

/-- Whether a character is a hexadecimal digit. -/
def isHex (c : Char) : Bool := (Json.hexValue? c).isSome

/-- The number that digits of a base write. -/
def valueIn (base : Nat) (ds : List Char) : Nat :=
  ds.foldl (fun n c => n * base + (Json.hexValue? c).getD 0) 0

/-- The characters that letters after a backslash stand for. -/
def controlEscapes : List (Char × Nat) :=
  [('a', 7), ('f', 12), ('n', 10), ('r', 13), ('t', 9), ('v', 11), ('\\', 92)]

/-- The sets that letters after a backslash stand for. -/
def setEscapes : List (Char × ClassItem) :=
  [('d', .digit true), ('D', .digit false), ('s', .blank true), ('S', .blank false),
   ('w', .word true), ('W', .word false)]

/-- The conditions that letters after a backslash stand for. -/
def boundaryEscapes (reach : Reach) : List (Char × Boundary) :=
  [('A', .textStart), ('b', .wordEdge reach true), ('B', .wordEdge reach false), ('Z', .textEnd)]

/-- A character by its hexadecimal digits. -/
def hexEscape (c : Char) (count : Nat) : Read Nat := do
  let ds ← takeWhile isHex count
  if ds.length = count then return valueIn 16 ds
  else fail (.incompleteEscape (String.ofList ('\\' :: c :: ds))) (2 + ds.length)

/-- Fails with an escape that means nothing. -/
def badEscape {α : Type} (c : Char) : Read α := fail (.badEscape (String.ofList ['\\', c])) 2

/-- A character by the digits below eight of an escape. -/
def octalEscape (ds : List Char) : Read Nat := do
  let value := valueIn 8 ds
  if value ≤ 255 then return value
  else fail (.octalTooLarge (String.ofList ('\\' :: ds))) (ds.length + 1)

/-- The escapes that mean one character everywhere. -/
def charEscape? (c : Char) : Option (Read Nat) :=
  match controlEscapes.lookup c with
  | some n => some (return n)
  | none =>
    match c with
    | 'x' => some (hexEscape c 2)
    | 'u' => some (hexEscape c 4)
    | 'U' => some (hexEscape c 8)
    | _ => none

/-- An escape within a set. -/
def setEscape (c : Char) : Read ClassItem := do
  if c = 'b' then return .range 8 8
  else
    match setEscapes.lookup c, charEscape? c with
    | some item, _ => return item
    | none, some read =>
      let n ← read
      return .range n n
    | none, none =>
      if isOctal c then
        let n ← octalEscape (c :: (← takeWhile isOctal 2))
        return .range n n
      else if c.isAlphanum then badEscape c
      else return .range c.toNat c.toNat

/-- An item of a set that a piece begins. -/
def setItem : Piece → Read ClassItem
  | .escaped c => setEscape c
  | .plain c => return .range c.toNat c.toNat
  | .cut => fail .escapeAtEnd 0

/-- The items of a set up to its end; `start` is where it began. -/
def readSet (start : Nat) : (fuel : Nat) → List ClassItem → Read (List ClassItem)
  | 0, items => return items
  | fuel + 1, items => do
    let unclosed {α : Type} : Read α := throw ⟨.openSet, some start⟩
    match ← take with
    | none => unclosed
    | some first =>
      if first = .plain ']' ∧ !items.isEmpty then return items
      else
        let low ← setItem first
        if ← takeIf '-' then
          match ← take with
          | none => unclosed
          | some (.plain ']') => return items ++ [low, .range 45 45]
          | some last =>
            let high ← setItem last
            let bad {α : Type} : Read α :=
              fail (.badRange first.text last.text) (first.text.length + 1 + last.text.length)
            match low, high with
            | .range a _, .range b _ =>
              if b < a then bad else readSet start fuel (items ++ [.range a b])
            | _, _ => bad
        else readSet start fuel (items ++ [low])

/-- What a piece of an expression gives, as far as repetition is concerned. -/
inductive PartKind where
  | plain
  | boundary
  | repetition
deriving DecidableEq, Repr

/-- A part of a sequence. -/
abbrev Part := PartKind × Regex

/-- The parts one after another. -/
def sequence : List Part → Regex
  | [] => .empty
  | [p] => p.2
  | p :: rest => .both p.2 (sequence rest)

/-- Refuses a group that, where a part to look back at is read, is not complete or stands in that
    part. -/
def requireBefore (number : Nat) : Read Unit := do
  let s ← get
  match s.behind with
  | none => return
  | some before =>
    if s.groups < number || s.opened.contains number then fail .openReference 0
    else if before < number then fail .referenceBehind 0

/-- A reference to a group that is complete, by a number written in so many characters. -/
def reference (m : Mode) (number size : Nat) : Read Part := do
  if (← get).opened.contains number then fail .openReference size
  else
    requireBefore number
    return (.plain, .again number m.fold m.reach)

/-- An escape outside of sets. -/
def escape (m : Mode) (c : Char) : Read Part := do
  let char := fun (n : Nat) => ((.plain, .one (.single n m.fold m.reach)) : Part)
  match (boundaryEscapes m.reach).lookup c, setEscapes.lookup c, charEscape? c with
  | some b, _, _ => return (.boundary, .boundary b)
  | _, some item, _ => return (.plain, .one ⟨false, [item], false, m.reach⟩)
  | _, _, some read => return char (← read)
  | none, none, none =>
    if c = '0' then return char (valueIn 8 (c :: (← takeWhile isOctal 2)))
    else if Json.isDigit c then
      let more ← takeWhile Json.isDigit 1
      let third ←
        if isOctal c && more.any isOctal then takeWhile isOctal 1 else pure []
      if !third.isEmpty then return char (← octalEscape (c :: more ++ third))
      else
        let ds := c :: more
        let number := valueIn 10 ds
        if number ≤ (← get).groups then reference m number (ds.length + 1)
        else fail (.unknownGroup number) ds.length
    else if c.isAlphanum then badEscape c
    else return char c.toNat

/-- A name up to a closing character. -/
def readName (closing : Char) : (fuel : Nat) → List Char → Read String
  | 0, cs => return String.ofList cs.reverse
  | fuel + 1, cs => do
    match ← take with
    | none =>
      if cs.isEmpty then fail .missingGroupName 0 else fail (.unclosedName closing) cs.length
    | some p =>
      if p = .plain closing then
        if cs.isEmpty then fail .missingGroupName 1 else return String.ofList cs.reverse
      else readName closing fuel (p.text.toList.reverse ++ cs)

/-- A name that was read up to its closing character, if it is one. -/
def checkedName (name : String) : Read String := do
  if Text.isName name.toList then return name else fail (.badGroupName name) (name.length + 1)

/-- Opens a group. -/
def openGroup (name : Option String) : Read Nat := do
  let s ← get
  let number := s.groups + 1
  match name with
  | some n =>
    match s.names.lookup n with
    | some old => fail (.repeatedName n number old) (n.length + 1)
    | none => set { s with groups := number, opened := number :: s.opened, names := (n, number) :: s.names }
  | none => set { s with groups := number, opened := number :: s.opened }
  return number

/-- Closes a group that was read as an expression. -/
def closeGroup (number : Nat) (r : Regex) : Read Unit :=
  modify fun s =>
    { s with
      opened := s.opened.filter (· != number)
      widths := (number, r.width s.widths) :: s.widths }

/-- The letters of flags. -/
def flagLetters : List Char := ['i', 'L', 'm', 's', 'x', 'a', 'u']

/-- A mode with a flag on or off. -/
def Mode.with (m : Mode) (on : Bool) : Char → Mode
  | 'i' => { m with fold := on }
  | 'm' => { m with manyLines := on }
  | 's' => { m with dotAll := on }
  | 'x' => { m with spaced := on }
  | 'a' => { m with reach := .basic }
  | 'u' => { m with reach := .full }
  | _ => m

/-- What follows the letters of flags that are turned on. -/
def readFlagsOn (c : Char) : (fuel : Nat) → List Char → Read (List Char × Char)
  | 0, done => return (done, c)
  | fuel + 1, done => do
    if c = 'L' then fail .bytesFlag 0
    if (c = 'a' && done.contains 'u') || (c = 'u' && done.contains 'a') then
      fail .typeFlagsTogether 0
    match ← take with
    | none => fail .missingAfterFlag 0
    | some (.plain d) =>
      if d = ')' ∨ d = '-' ∨ d = ':' then return (done ++ [c], d)
      else if flagLetters.contains d then readFlagsOn d fuel (done ++ [c])
      else fail (if Text.isAlphanumeric d then .unknownFlag else .missingAfterFlag) 1
    | some p => fail .missingAfterFlag p.text.length

/-- The letters of flags that are turned off, up to the colon. -/
def readFlagsOff (c : Char) : (fuel : Nat) → List Char → Read (List Char)
  | 0, done => return done
  | fuel + 1, done => do
    if c = 'L' ∨ c = 'a' ∨ c = 'u' then fail .typeFlagOff 0
    match ← take with
    | none => fail .missingColon 0
    | some (.plain d) =>
      if d = ':' then return done ++ [c]
      else if flagLetters.contains d then readFlagsOff d fuel (done ++ [c])
      else fail (if Text.isAlphanumeric d then .unknownFlag else .missingColon) 1
    | some p => fail .missingColon p.text.length

/-- The mode that flags give, and whether it holds for the rest of the expression. -/
def readFlags (m : Mode) (c : Char) (fuel : Nat) : Read (Mode × Bool) := do
  let (on, stop) ← if c = '-' then pure ([], '-') else readFlagsOn c fuel []
  let m := on.foldl (fun m d => m.with true d) m
  match stop with
  | ')' =>
    let types := (if on.contains 'a' then [.basic] else []) ++ if on.contains 'u' then [.full] else []
    modify fun s => { s with types := types ++ s.types }
    return (m, true)
  | ':' => return (m, false)
  | _ =>
    match ← take with
    | none => fail .missingFlag 0
    | some (.plain d) =>
      if flagLetters.contains d then
        let off ← readFlagsOff d fuel []
        if off.any (on.contains ·) then fail .flagOnAndOff 1
        else return (off.foldl (fun m d => m.with false d) m, false)
      else fail (if Text.isAlphanumeric d then .unknownFlag else .missingFlag) 1
    | some p => fail .missingFlag p.text.length

/-- The least number of repetitions that is too large to ask for. -/
def repeatBound : Nat := 4294967295

/-- A number of repetitions. -/
def repeatNumber (ds : List Char) : Read Nat :=
  match Text.numberOf ds with
  | .ok n => if repeatBound ≤ n then throw ⟨.tooManyRepeats, none⟩ else return n
  | .error e => throw ⟨.overlong e, none⟩

/-- The numbers of repetitions that stand between braces, if they do. -/
def readCount : Read (Option (Nat × Option Nat)) := do
  let start ← get
  let here ← place
  let low ← takeWhile Json.isDigit start.size
  let high ← if ← takeIf ',' then takeWhile Json.isDigit start.size else pure low
  if ← takeIf '}' then
    let least ← repeatNumber low
    if high.isEmpty then return some (least, none)
    else
      let most ← repeatNumber high
      if most < least then throw ⟨.leastAboveMost, some here⟩
      return some (least, some most)
  else
    set start
    return none

/-- The last part of a sequence repeated; `start` is where the sign of repetition stands. -/
def repeatLast (start least : Nat) (most : Option Nat) (parts : List Part) : Read (List Part) := do
  match parts with
  | [] | (.boundary, _) :: _ => throw ⟨.nothingToRepeat, some start⟩
  | (.repetition, _) :: _ => throw ⟨.multipleRepeat, some start⟩
  | (.plain, r) :: rest =>
    let reluctant ← takeIf '?'
    let committed ← if reluctant then pure false else takeIf '+'
    let greed : Greed := if reluctant then .least else if committed then .onlyMost else .most
    return (.repetition, .many least most greed r) :: rest

/-- Passes over a comment. -/
def skipComment (start : Nat) : (fuel : Nat) → Read Unit
  | 0 => return
  | fuel + 1 => do
    match ← take with
    | none => throw ⟨.openComment, some start⟩
    | some p => if p = .plain ')' then return else skipComment start fuel

/-- Passes over the rest of a line. -/
def skipLine : (fuel : Nat) → Read Unit
  | 0 => return
  | fuel + 1 => do
    match ← take with
    | none => return
    | some p => if p = .plain '\n' then return else skipLine fuel

/-- What is asked of a group. -/
inductive GroupKind where
  | plain
  | numbered (name : Option String)
  | atomic
  | ahead (is : Bool)
  | behind (is : Bool)
deriving DecidableEq, Repr

/-- What stands after the opening of a group. -/
inductive Opening where
  | group (kind : GroupKind) (mode : Mode)
  | part (p : Part)
  /-- A choice by whether a group took something. -/
  | choice (number : Nat)
  | nothing
  | flags (mode : Mode)

/-- The number that a text writes: a sign and digits, perhaps with single low lines between these, and
    blanks around. -/
def groupNumber? (name : String) : Option Nat := do
  let cs := Text.trimmed Text.isPadding name.toList
  let negative := cs.head? = some '-'
  let ds ← Text.withoutLines (if negative || cs.head? = some '+' then cs.tail else cs)
  if ds.isEmpty || !ds.all Text.isDecimal then none
  else
    let n ← (Text.numberOf ds).toOption
    if negative && n ≠ 0 then none else some n

/-- The least number that is too large for a group. -/
def groupBound : Nat := 1073741823

/-- The group that a choice asks for, by its name or its number. Whether there is such a number shows
    only at the end of the expression. -/
def readAsked (fuel : Nat) : Read Nat := do
  let name ← readName ')' fuel []
  let number ←
    if Text.isName name.toList then
      match (← get).names.lookup name with
      | some n => pure n
      | none => fail (.unknownName name) (name.length + 1)
    else
      match groupNumber? name with
      | none => fail (.badGroupName name) (name.length + 1)
      | some 0 => fail .groupZero (name.length + 1)
      | some n =>
        if groupBound ≤ n then fail (.unknownGroup n) (name.length + 1)
        let here ← place
        modify fun s =>
          if s.asked.any (·.1 == n) then s
          else { s with asked := s.asked ++ [(n, here - name.length - 1)] }
        pure n
  requireBefore number
  return number

/-- Reads what stands after an opening parenthesis. -/
def readOpening (m : Mode) (start fuel : Nat) : Read Opening := do
  if !(← takeIf '?') then return .group (.numbered none) m
  let ended {α : Type} : Read α := fail .unexpectedEnd 0
  match ← take with
  | none => ended
  | some (.plain 'P') =>
    if ← takeIf '<' then
      return .group (.numbered (some (← checkedName (← readName '>' fuel [])))) m
    else if ← takeIf '=' then
      let name ← checkedName (← readName ')' fuel [])
      match (← get).names.lookup name with
      | some n => return .part (← reference m n (name.length + 1))
      | none => fail (.unknownName name) (name.length + 1)
    else
      match ← take with
      | none => ended
      | some p => fail (.unknownExtension ("P" ++ p.text)) (p.text.length + 2)
  | some (.plain ':') => return .group .plain m
  | some (.plain '#') =>
    skipComment start fuel
    return .nothing
  | some (.plain '(') => return .choice (← readAsked fuel)
  | some (.plain '=') => return .group (.ahead true) m
  | some (.plain '!') => return .group (.ahead false) m
  | some (.plain '>') => return .group .atomic m
  | some (.plain '<') =>
    match ← take with
    | none => ended
    | some (.plain '=') => return .group (.behind true) m
    | some (.plain '!') => return .group (.behind false) m
    | some p => fail (.unknownExtension ("<" ++ p.text)) (p.text.length + 2)
  | some p =>
    match p with
    | .plain c =>
      if c = '-' ∨ flagLetters.contains c then
        match ← readFlags m c fuel with
        | (m, true) => return .flags m
        | (m, false) => return .group .plain m
      else fail (.unknownExtension p.text) (p.text.length + 1)
    | _ => fail (.unknownExtension p.text) (p.text.length + 1)

/-- A group that was read, as an expression. -/
def groupOf (kind : GroupKind) (number : Nat) (r : Regex) : Read Regex := do
  match kind with
  | .plain => return r
  | .numbered _ => return .group number r
  | .atomic => return .atomic r
  | .ahead is => return if is || r != .empty then .ahead is r else .never
  | .behind is =>
    let (least, most) := r.width (← get).widths
    if !is && r = .empty then return .never
    else if most = some least then return .behind is least r
    else
      modify fun s => { s with loose := true }
      return .behind is least r

mutual

/-- Alternatives up to the end of a group; `nested` says that they stand in one. -/
def readAlternatives (nested : Bool) (m : Mode) : (fuel : Nat) → (first : Bool) → Read Regex
  | 0, _ => return .empty
  | fuel + 1, first => do
    let (parts, m) ← readParts nested m fuel first []
    let r := sequence parts.reverse
    if ← takeIf '|' then return .either r (← readAlternatives nested m fuel false)
    else return r

/-- The parts of a sequence, the last first, and the mode at its end. -/
def readParts (nested : Bool) (m : Mode) : (fuel : Nat) → (first : Bool) → List Part →
    Read (List Part × Mode)
  | 0, _, parts => return (parts, m)
  | fuel + 1, first, parts => do
    let start ← place
    match ← peek with
    | none | some (.plain '|') | some (.plain ')') => return (parts, m)
    | some p =>
      let _ ← take
      let go := fun parts => readParts nested m fuel first parts
      let keep := fun (part : Part) => readParts nested m fuel first (part :: parts)
      let literal := fun (c : Char) => ((.plain, .one (.single c.toNat m.fold m.reach)) : Part)
      match p with
      | .cut => fail .escapeAtEnd 0
      | .escaped c => do keep (← escape m c)
      | .plain c =>
        if m.spaced && (c = ' ' ∨ ('\t' ≤ c ∧ c ≤ '\r')) then go parts
        else if m.spaced && c = '#' then do
          skipLine fuel
          go parts
        else
          match c with
          | '.' => keep (.plain, .one (if m.dotAll then .everything else .withinLine))
          | '^' => keep (.boundary, .boundary (if m.manyLines then .lineStart else .textStart))
          | '$' => keep (.boundary, .boundary (if m.manyLines then .lineEnd else .lastLineEnd))
          | '[' => do
            let negated ← takeIf '^'
            let items ← readSet start fuel []
            keep (.plain, .one ⟨negated, items, m.fold, m.reach⟩)
          | '*' => do go (← repeatLast start 0 none parts)
          | '+' => do go (← repeatLast start 1 none parts)
          | '?' => do go (← repeatLast start 0 (some 1) parts)
          | '\x7b' => do
            if (← peek) = some (.plain '\x7d') then keep (literal c)
            else
              match ← readCount with
              | some (least, most) => go (← repeatLast start least most parts)
              | none => keep (literal c)
          | '(' => do
            match ← readOpening m start fuel with
            | .nothing => go parts
            | .part part => keep part
            | .choice number =>
              let (yes, _) ← readParts true m fuel false []
              let no ← if ← takeIf '|' then Prod.fst <$> readParts true m fuel false [] else pure []
              if (← peek) = some (.plain '|') then fail .manyBranches 0
              if !(← takeIf ')') then throw ⟨.openGroup, some start⟩
              keep (.plain, .ifTaken number (sequence yes.reverse) (sequence no.reverse))
            | .flags m =>
              if nested || !first || !parts.isEmpty then throw ⟨.lateFlags, some start⟩
              else readParts nested m fuel first parts
            | .group kind inner =>
              let number ←
                match kind with
                | .numbered name => openGroup name
                | _ => pure 0
              let before := (← get).behind
              if let .behind _ := kind then
                modify fun s => { s with behind := some (before.getD s.groups) }
              let r ← readAlternatives true inner fuel true
              modify fun s => { s with behind := before }
              if !(← takeIf ')') then throw ⟨.openGroup, some start⟩
              if number ≠ 0 then closeGroup number r
              keep (.plain, ← groupOf kind number r)
          | c => keep (literal c)

end

/-- The expression that a text writes; case is ignored. -/
def read (text : String) : Except ReadError Regex := do
  let cs := text.toList
  let start : Reading := ⟨piecesFrom 0 cs, cs.length, 0, [], [], [], false, none, [], []⟩
  match start.pieces with
  | (place, .cut) :: _ => throw ⟨.escapeAtEnd, some place⟩
  | _ => pure ()
  let (r, s) ← (readAlternatives false ⟨true, false, false, false, .full⟩ (2 * cs.length + 4) true).run start
  if s.types.contains .basic && s.types.contains .full then throw ⟨.typesTogether, none⟩
  match s.pieces, s.asked.find? (s.groups < ·.1) with
  | (place, _) :: _, _ => throw ⟨.strayClosing, some place⟩
  | [], some (number, place) => throw ⟨.unknownGroup number, some place⟩
  | [], none => if s.loose then throw ⟨.variableWidth, none⟩ else return r

end PatchReview.Regex
