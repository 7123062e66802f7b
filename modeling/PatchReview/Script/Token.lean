import PatchReview.Script.Source

/-!
# Tokens of a script

Readers for the lexical classes. A reader looks at one position and answers where the token that
starts there ends, or that none does. `skip` passes over everything that may stand between two
tokens: white space and comments. A `Reader` by itself never skips.
-/

namespace PatchReview.Script

/-- Answers where the token that starts at a position ends. -/
abbrev Reader := Source → Nat → Option Nat

/-! ## Between tokens -/

/-- The position after the first `*/` from `i` on. -/
def blockEnd (src : Source) (i : Nat) : Option Nat :=
  if h : i < src.codes.size then
    if src.codes[i] == 0 then none
    else if src.codes[i] == 0x2A && src.code (i + 1) == 0x2F then some (i + 2)
    else blockEnd src (i + 1)
  else none
termination_by src.codes.size - i

/-- Ends of the lines that a line comment stops at. -/
def endsLineComment (c : Nat) : Bool := isLineEnd c || c == 0x0D || c == 0

/-- A comment. A block comment that is never closed is none. -/
def comment : Reader := fun src i =>
  if src.startsWith ['/', '/'] i then
    some (src.takeWhile (fun c => !endsLineComment c) (i + 2))
  else if src.startsWith ['/', '*'] i then blockEnd src (i + 2)
  else none

/-- A comment as pages have them, which goes on to the end of its line. It may stand only between
    statements, for elsewhere its characters are operators. -/
def pageComment : Reader := fun src i =>
  let rest := fun i => some (src.takeWhile (fun c => !isLineEnd c && c != 0) i)
  if src.startsWith ['<', '!', '-', '-'] i then rest (i + 4)
  else if src.startsWith ['-', '-', '>'] i then rest (i + 3)
  else none

/-- The position of the next token; `fuel` bounds the number of comments passed. -/
def skipFrom (src : Source) : (fuel i : Nat) → Nat
  | 0, i => i
  | fuel + 1, i =>
    let j := src.takeWhile isFiller i
    match comment src j with
    | some k => skipFrom src fuel k
    | none => j

/-- The position of the next token. -/
def skip (src : Source) (i : Nat) : Nat := skipFrom src (src.size + 1) i

/-! ## Names -/

/-- The hexadecimal digits of an escape: four, or any number in braces. -/
def unicodeEscape : Reader := fun src i =>
  if src.startsWith ['\\', 'u'] i then
    if src.code (i + 2) == 0x7B then
      let j := src.takeWhile isHexCode (i + 3)
      if i + 3 < j && src.code j == 0x7D then some (j + 1) else none
    else if (List.range 4).all (fun k => isHexCode (src.code (i + 2 + k))) then some (i + 6)
    else none
  else none

/-- The rest of a name; `fuel` bounds the number of its characters. -/
def nameTail (src : Source) : (fuel i : Nat) → Nat
  | 0, i => i
  | fuel + 1, i =>
    match src.get? i with
    | none => i
    | some c =>
      if isNameCode c then nameTail src fuel (i + 1)
      else
        match unicodeEscape src i with
        | some j => nameTail src fuel j
        | none => i

/-- A name: letters, digits, `$`, `_`, anything beyond ASCII that is no space, and escapes; the
    first character is no digit. -/
def name : Reader := fun src i =>
  if isDigitCode (src.code i) then none
  else
    let j := nameTail src src.size i
    if i < j then some j else none

/-- The characters of a word, as codes. -/
def wordCodes (w : String) : List Nat := w.toList.map Char.toNat

/-- Whether the characters from `i` to `j` are the given word. -/
def isWord (src : Source) (i j : Nat) (w : String) : Bool :=
  (src.codes.extract i j).toList == wordCodes w

/-- The given word, standing as a whole name. -/
def word (w : String) : Reader := fun src i =>
  match name src i with
  | some j => if isWord src i j w then some j else none
  | none => none

/-- A name that is none of the given words. -/
def nameExcept (words : List String) : Reader := fun src i =>
  match name src i with
  | some j => if words.any (isWord src i j) then none else some j
  | none => none

/-- A private name: `#` and a name. -/
def privateName : Reader := fun src i =>
  if src.code i == 0x23 then name src (i + 1) else none

/-! ## Marks -/

/-- Exactly this text. -/
def mark (text : String) : Reader := fun src i =>
  let cs := text.toList
  if src.startsWith cs i then some (i + cs.length) else none

/-- The longest of the given texts that stands at the position, the list being ordered from long to
    short, provided that it is one of the wanted ones. -/
def longestOf (all wanted : List String) : Reader := fun src i =>
  match all.find? (fun t => src.startsWith t.toList i) with
  | some t => if wanted.contains t then some (i + t.length) else none
  | none => none

/-- Every operator, from long to short. -/
def operators : List String :=
  [">>>=", "===", "!==", "**=", "<<=", ">>=", ">>>", "&&=", "||=", "??=", "...",
   "==", "!=", "<=", ">=", "&&", "||", "??", "**", "<<", ">>", "++", "--", "+=", "-=", "*=",
   "/=", "%=", "^=", "&=", "|=", "=>", "?.",
   "+", "-", "*", "/", "%", "<", ">", "&", "|", "^", "=", "!", "~", "?"]

/-- Operators that stand between two operands. -/
def infixOperators : List String :=
  ["===", "!==", ">>>", "==", "!=", "<=", ">=", "&&", "||", "??", "**", "<<", ">>",
   "+", "-", "*", "/", "%", "<", ">", "&", "|", "^"]

/-- Operators that change what stands on their left. -/
def updatingOperators : List String :=
  ["+=", "-=", "*=", "/=", "%=", "^=", "&=", "|=", ">>=", ">>>=", "<<=", "**=", "&&=", "||=",
   "??="]

/-- The given operator, not the beginning of a longer one. -/
def operator (text : String) : Reader := longestOf operators [text]

/-- The question mark of a choice: not the beginning of `??`, nor of `?.` before a name. -/
def choiceMark : Reader := fun src i =>
  if src.code i == 0x3F && src.code (i + 1) != 0x3F &&
      !(src.code (i + 1) == 0x2E && !isDigitCode (src.code (i + 2))) then some (i + 1)
  else none

/-! ## Numbers -/

/-- Digits of a kind, single underscores between them; at least one. -/
def digits (kind : Nat → Bool) : Reader := fun src i =>
  if kind (src.code i) then
    let rec go : (fuel j : Nat) → Nat
      | 0, j => j
      | fuel + 1, j =>
        if kind (src.code j) then go fuel (j + 1)
        else if src.code j == 0x5F && kind (src.code (j + 1)) then go fuel (j + 2)
        else j
    some (go src.size i)
  else none

/-- An exponent: `e`, a sign or none, and digits. -/
def exponent : Reader := fun src i =>
  if isOneOf ['e', 'E'] (src.code i) then
    let j := if isOneOf ['+', '-'] (src.code (i + 1)) then i + 2 else i + 1
    digits isDigitCode src j
  else none

/-- The rest of a decimal number after its whole part. -/
def fraction (src : Source) (i : Nat) : Nat :=
  let j :=
    if src.code i == 0x2E then (digits isDigitCode src (i + 1)).getD (i + 1) else i
  (exponent src j).getD j

/-- A number in base sixteen, eight, two or ten, or a whole number with the suffix `n`. -/
def number : Reader := fun src i =>
  let suffixed := fun (j : Nat) => if src.code j == 0x6E then j + 1 else j
  let based := fun (kind : Nat → Bool) => (digits kind src (i + 2)).map suffixed
  let second := src.code (i + 1)
  let special :=
    if src.code i == 0x30 then
      if isOneOf ['x', 'X'] second then based isHexCode
      else if isOneOf ['o', 'O'] second then based (fun c => 0x30 ≤ c && c ≤ 0x37)
      else if isOneOf ['b', 'B'] second then based (fun c => c == 0x30 || c == 0x31)
      else none
    else none
  match special with
  | some j => some j
  | none =>
    if src.code i == 0x2E then
      match digits isDigitCode src (i + 1) with
      | some j => some ((exponent src j).getD j)
      | none => none
    else
      match digits isDigitCode src i with
      | some j => if src.code j == 0x6E then some (j + 1) else some (fraction src j)
      | none => none

/-! ## Strings, templates, patterns -/

/-- An escape in a string. -/
def escape : Reader := fun src i =>
  if src.code i == 0x5C then
    match src.get? (i + 1) with
    | none => none
    | some c =>
      if c == 0x78 then
        if isHexCode (src.code (i + 2)) && isHexCode (src.code (i + 3)) then some (i + 4) else none
      else if c == 0x75 then unicodeEscape src i
      else if c == 0x0D && isLineEnd (src.code (i + 2)) then some (i + 3)
      else some (i + 2)
  else none

/-- The rest of a string up to its closing quote; `fuel` bounds the number of pieces. -/
def stringTail (quote : Nat) (src : Source) : (fuel i : Nat) → Option Nat
  | 0, _ => none
  | fuel + 1, i =>
    match src.get? i with
    | none => none
    | some c =>
      if c == quote then some (i + 1)
      else if c == 0x5C then
        match escape src i with
        | some j => stringTail quote src fuel j
        | none => none
      else if c == 0x0A || c == 0x0D || c == 0 then none
      else stringTail quote src fuel (i + 1)

/-- A string between single or double quotes, on one line. -/
def stringLiteral : Reader := fun src i =>
  let q := src.code i
  if q == 0x22 || q == 0x27 then stringTail q src (src.size + 1) (i + 1) else none

/-- The characters of a template up to the next escape, substitution or end; at least one. -/
def templateChars : Reader := fun src i =>
  let rec go : (fuel j : Nat) → Option Nat
    | 0, _ => none
    | fuel + 1, j =>
      match src.get? j with
      | none => none
      | some c =>
        if c == 0x60 || c == 0x5C then some j
        else if c == 0 then none
        else if c == 0x24 && src.code (j + 1) == 0x7B then some j
        else go fuel (j + 1)
  match go (src.size + 1) i with
  | some j => if i < j then some j else none
  | none => none

/-- The class between brackets in a pattern, up to the bracket; `fuel` bounds its length. -/
def bracketTail (src : Source) : (fuel i : Nat) → Option Nat
  | 0, _ => none
  | fuel + 1, i =>
    match src.get? i with
    | none => none
    | some c =>
      if c == 0x5D then some (i + 1)
      else if c == 0x0A || c == 0 then none
      else if c == 0x5C then
        if src.code (i + 1) == 0x0A || src.get? (i + 1) == none then none
        else bracketTail src fuel (i + 2)
      else bracketTail src fuel (i + 1)

/-- The rest of a pattern up to the closing slash; `fuel` bounds its length. -/
def patternTail (src : Source) : (fuel i : Nat) → Option Nat
  | 0, _ => none
  | fuel + 1, i =>
    match src.get? i with
    | none => none
    | some c =>
      if c == 0x2F then some (i + 1)
      else if c == 0x0A || c == 0 then none
      else if c == 0x5C then
        if src.code (i + 1) == 0x0A || src.get? (i + 1) == none then none
        else patternTail src fuel (i + 2)
      else if c == 0x5B then
        match bracketTail src (src.size + 1) (i + 1) with
        | some j => patternTail src fuel j
        | none => none
      else patternTail src fuel (i + 1)

/-- A pattern between slashes with its flags; it is not empty. -/
def patternLiteral : Reader := fun src i =>
  if src.code i == 0x2F && src.code (i + 1) != 0x2F && src.code (i + 1) != 0x2A then
    (patternTail src (src.size + 1) (i + 1)).map
      (src.takeWhile (fun c => 0x61 ≤ c && c ≤ 0x7A))
  else none

/-! ## Markup inside a script -/

/-- The marks that end a run of markup text. -/
def endsMarkupText (c : Nat) : Bool := isOneOf ['<', '>', '\x7b', '\x7d', '&'] c || c == 0

/-- A run of markup text that holds more than line ends and the blanks after them. -/
def markupText : Reader := fun src i =>
  let j := src.takeWhile (fun c => !endsMarkupText c) i
  let look := fun (state : Bool × Bool) (c : Nat) =>
    let (saw, atLine) := state
    if c == 0x0A then (saw, true)
    else
      let still := atLine && isSpaceCode c
      (saw || !still, still)
  if ((src.codes.extract i j).foldl look (false, false)).1 then some j else none

/-- A character reference such as `&amp;` or `&#x41;`. -/
def characterReference : Reader := fun src i =>
  let closed := fun (start : Nat) (kind : Nat → Bool) (most : Nat) =>
    let j := src.takeWhile kind start
    if start < j && j ≤ start + most && src.code j == 0x3B then some (j + 1) else none
  if src.code i == 0x26 then
    if src.code (i + 1) == 0x23 then
      if isOneOf ['x', 'X'] (src.code (i + 2)) then closed (i + 3) isHexCode 6
      else closed (i + 2) isDigitCode 5
    else closed (i + 1) isLetterCode 30
  else none

/-- The rest of a markup string up to its quote; `fuel` bounds its length. -/
def markupStringTail (quote : Nat) (src : Source) : (fuel i : Nat) → Option Nat
  | 0, _ => none
  | fuel + 1, i =>
    match src.get? i with
    | none => none
    | some c =>
      if c == quote then some (i + 1)
      else if c == 0 then none
      else if c == 0x26 then
        match characterReference src i with
        | some j => markupStringTail quote src fuel j
        | none =>
          let next := src.code (i + 1)
          if next == 0x23 || isLetterCode next then none
          else markupStringTail quote src fuel (i + 1)
      else markupStringTail quote src fuel (i + 1)

/-- A string in markup, which may run over several lines. -/
def markupString : Reader := fun src i =>
  let q := src.code i
  if q == 0x22 || q == 0x27 then markupStringTail q src (src.size + 1) (i + 1) else none

/-- A name in markup, in which hyphens may stand. -/
def markupName : Reader := fun src i =>
  match name src i with
  | some j =>
    if src.code j == 0x2D then
      some (src.takeWhile (fun c => isLetterCode c || isDigitCode c || isOneOf ['_', '$', '-'] c) j)
    else some j
  | none => none

/-! ## Line ends that close a statement -/

/-- What stands before the place where a statement may end without a semicolon. -/
inductive Ending where
  /-- An expression, which an operator could continue. -/
  | expression
  /-- Anything else. -/
  | plain
  /-- The head of a function, which a body could continue. -/
  | heading
deriving DecidableEq, Hashable, Repr

/-- How the dialects differ about the end of a statement. -/
inductive Flavour where
  | untyped
  | typed
deriving DecidableEq, Hashable, Repr

/-- Whether the next line, which starts at `i`, is held off by its first token. -/
def continuesLine (flavour : Flavour) (before : Ending) (src : Source) (i : Nat) : Bool :=
  match src.get? i with
  | none => false
  | some c =>
    let next := src.code (i + 1)
    let always := ['\x60', ',', ':', ';', '*', '%', '>', '<', '=', '?', '^', '|', '&', '/']
    if isOneOf always c then true
    else if c == 0x2E then
      match flavour with
      | .untyped => !isDigitCode next
      | .typed => true
    else if c == 0x28 || c == 0x5B then
      match flavour with
      | .untyped => true
      | .typed => before == .expression
    else if c == 0x7B then flavour == .typed && before == .heading
    else if c == 0x2B || c == 0x2D then next != c
    else if c == 0x21 then next == 0x3D
    else (word "in" src i).isSome || (word "instanceof" src i).isSome

/-- Whether a statement that ended at `i` is closed by what follows: the end of the script, a
    closing brace, or a line end after which no token continues it. `fuel` bounds the comments that
    are passed. -/
def closesAt (flavour : Flavour) (before : Ending) (src : Source) : (fuel i : Nat) → Bool
  | 0, _ => false
  | fuel + 1, i =>
    let j := src.takeWhile (fun c => isFiller c && !isLineEnd c) i
    match src.get? j with
    | none => true
    | some c =>
      if c == 0 then true
      else if isLineEnd c then !continuesLine flavour before src (skip src j)
      else if c == 0x7D then
        match flavour with
        | .untyped => true
        | .typed =>
          let k := src.takeWhile isSpaceCode (j + 1)
          src.code k != 0x3A || before == .expression
      else
        match comment src j with
        | none => false
        | some k =>
          let line := src.startsWith ['/', '/'] j
          let broken := line || (src.codes.extract j k).any isLineEnd
          let next := src.code (skip src k)
          if flavour == .untyped && before != .expression && broken && next != 0x2C &&
              next != 0x3D then true
          else closesAt flavour before src fuel k

/-- Whether a statement that ended at `i` is closed by what follows. -/
def closes (flavour : Flavour) (before : Ending) (src : Source) (i : Nat) : Bool :=
  closesAt flavour before src (src.size + 1) i

end PatchReview.Script
