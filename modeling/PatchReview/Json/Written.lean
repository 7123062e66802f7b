import PatchReview.Json.Writer

/-!
# Written values

What stands in a JSON text before it is read: strings with halves of surrogate pairs in them, numbers
with the digits they are written with, objects whose names need not be texts. A written value has a
text, in one of the two usual forms, and stands for a value. Items and members are set apart by a
comma and a blank, a name from its value by a colon and a blank.

The two forms differ in strings only: in the ASCII form everything outside the visible part of ASCII is
escaped, in the other only what has to be. A half of a surrogate pair is no character, so it is
escaped in both.
-/

namespace PatchReview.Json

open PatchReview.Number (Double)

/-! ## Strings -/

/-- A character escaped by its number, as a pair of halves where it has more than sixteen bits. -/
def escapedChar (c : Char) : List Char :=
  if c.toNat < 0x10000 then escapedUnit c.toNat
  else
    escapedUnit (0xD800 + (c.toNat - 0x10000) / 1024)
      ++ escapedUnit (0xDC00 + (c.toNat - 0x10000) % 1024)

/-- The characters that have an escape of their own, each with the letter for it. -/
def shortEscapes : List (Char × Char) :=
  [('\x22', '\x22'), ('\\', '\\'), ('\n', 'n'), ('\r', 'r'), ('\t', 't'), ('\x08', 'b'), ('\x0c', 'f')]

/-- A piece as it stands in a string. -/
def Piece.chars (ascii : Bool) : Piece → List Char
  | char c =>
    match shortEscapes.lookup c with
    | some e => ['\\', e]
    | none => if c.toNat < 0x20 ∨ (ascii = true ∧ 0x7F ≤ c.toNat) then escapedChar c else [c]
  | high n => escapedUnit (0xD800 + n)
  | low n => escapedUnit (0xDC00 + n)

namespace Literal

/-- A string after its opening quote. -/
def charsOf (ascii : Bool) (pieces : List Piece) : List Char :=
  pieces.flatMap (·.chars ascii) ++ ['\x22']

/-- A string between its quotes. -/
def chars (ascii : Bool) (s : Literal) : List Char := '\x22' :: charsOf ascii s.pieces

end Literal

/-! ## Numbers -/

/-- The value of decimal digits. -/
def decimal (ds : List (Fin 10)) : Nat := ds.foldl (fun n (d : Fin 10) => n * 10 + d.val) 0

/-- The digits of decimal digits. -/
def decimalChars (ds : List (Fin 10)) : List Char := ds.map fun (d : Fin 10) => Nat.digitChar d.val

/-- A number written with a fraction or with an exponent, or with both. -/
structure Numeral where
  negative : Bool
  whole    : Nat
  fraction : List (Fin 10)
  exponent : Option (Bool × List (Fin 10))
  isMarked : fraction ≠ [] ∨ exponent ≠ none
  isFilled : ∀ e ∈ exponent, e.2 ≠ []

namespace Numeral

/-- The power of ten that the exponent gives. -/
def power (n : Numeral) : Int :=
  match n.exponent with
  | none => 0
  | some (minus, ds) => if minus then -(decimal ds : Int) else decimal ds

/-- The nearest double. -/
def value (n : Numeral) : Double :=
  .ofDecimal n.negative (n.whole * Nat.pow 10 n.fraction.length + decimal n.fraction)
    (n.power - n.fraction.length)

/-- The exponent as it is written. -/
def exponentChars : Option (Bool × List (Fin 10)) → List Char
  | none => []
  | some (minus, ds) => 'e' :: (if minus then '-' else '+') :: decimalChars ds

/-- The fraction as it is written. -/
def fractionChars (ds : List (Fin 10)) : List Char :=
  if ds.isEmpty then [] else '.' :: decimalChars ds

/-- A number after its sign. -/
def magnitudeChars (n : Numeral) : List Char :=
  Nat.toDigits 10 n.whole ++ fractionChars n.fraction ++ exponentChars n.exponent

/-- A number as it is written. -/
def chars (n : Numeral) : List Char :=
  if n.negative then '-' :: n.magnitudeChars else n.magnitudeChars

end Numeral

/-- A whole number as it is written. -/
def integerChars (n : Int) : List Char :=
  if n < 0 then '-' :: Nat.toDigits 10 n.natAbs else Nat.toDigits 10 n.natAbs

/-! ## Values -/

/-- A value as it can be written. -/
inductive Written where
  | null
  | bool (value : Bool)
  | integer (value : Int)
  | real (value : Numeral)
  | notANumber
  | infinite (negative : Bool)
  | string (text : Literal)
  | array (items : List Written)
  | object (members : List (Literal × Written))

namespace Written

mutual

/-- The value that is written. -/
def value : Written → Json
  | null => .null
  | bool b => .bool b
  | integer n => .integer n
  | real n => .real n.value
  | notANumber => .real .notANumber
  | infinite negative => .real (.infinite negative)
  | string s => .ofLiteral s
  | array items => .array (values items)
  | object members => .object (namedValues members)

/-- The values that are written as items. -/
def values : List Written → List Json
  | [] => []
  | w :: rest => value w :: values rest

/-- The values that are written as members. One whose name is no text is forgotten. -/
def namedValues : List (Literal × Written) → List (String × Json)
  | [] => []
  | (name, w) :: rest =>
    match name.text? with
    | some k => (k, value w) :: namedValues rest
    | none => namedValues rest

end

mutual

/-- The characters of a written value. -/
def chars (ascii : Bool) : Written → List Char
  | null => ['n', 'u', 'l', 'l']
  | bool true => ['t', 'r', 'u', 'e']
  | bool false => ['f', 'a', 'l', 's', 'e']
  | integer n => integerChars n
  | real n => n.chars
  | notANumber => ['N', 'a', 'N']
  | infinite false => ['I', 'n', 'f', 'i', 'n', 'i', 't', 'y']
  | infinite true => ['-', 'I', 'n', 'f', 'i', 'n', 'i', 't', 'y']
  | string s => s.chars ascii
  | array [] => ['[', ']']
  | array (w :: rest) => '[' :: (chars ascii w ++ charsAfterItem ascii rest)
  | object [] => ['\x7b', '\x7d']
  | object ((name, w) :: rest) =>
    '\x7b' :: (name.chars ascii ++ ':' :: ' ' :: (chars ascii w ++ charsAfterMember ascii rest))

/-- An array after one of its items. -/
def charsAfterItem (ascii : Bool) : List Written → List Char
  | [] => [']']
  | w :: rest => ',' :: ' ' :: (chars ascii w ++ charsAfterItem ascii rest)

/-- An object after one of its members. -/
def charsAfterMember (ascii : Bool) : List (Literal × Written) → List Char
  | [] => ['\x7d']
  | (name, w) :: rest =>
    ',' :: ' ' :: (name.chars ascii ++ ':' :: ' ' :: (chars ascii w ++ charsAfterMember ascii rest))

end

/-- The text of a written value. -/
def text (ascii : Bool) (w : Written) : String := String.ofList (w.chars ascii)

end Written

end PatchReview.Json
