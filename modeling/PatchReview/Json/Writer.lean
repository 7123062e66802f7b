import PatchReview.Json.Value

/-!
# Writing JSON texts

Values written on one line. Characters are written as themselves, apart from quotes, backslashes and
controls. Numbers with a fraction are written with the given number of places, and a value that the
format has no word for as `null`.
-/

namespace PatchReview.Json

/-- The hexadecimal digit of a value below sixteen. -/
def hexDigit (n : Nat) : Char := if n < 10 then Char.ofNat (48 + n) else Char.ofNat (87 + n)

/-- The four hexadecimal digits of sixteen bits. -/
def hexDigits (n : Nat) : List Char :=
  [hexDigit (n / 4096), hexDigit (n / 256 % 16), hexDigit (n / 16 % 16), hexDigit (n % 16)]

/-- Sixteen bits, escaped by their number. -/
def escapedUnit (n : Nat) : List Char := '\\' :: 'u' :: hexDigits n

/-- A character in a string. -/
def writeChar (c : Char) : List Char :=
  if c = '\x22' then ['\\', '\x22']
  else if c = '\\' then ['\\', '\\']
  else if c = '\n' then ['\\', 'n']
  else if c = '\r' then ['\\', 'r']
  else if c = '\t' then ['\\', 't']
  else if c.toNat < 0x20 then escapedUnit c.toNat
  else [c]

/-- A piece in a string. A half is escaped, as it is no character. -/
def writePiece : Piece → List Char
  | .char c => writeChar c
  | .high n => escapedUnit (0xD800 + n)
  | .low n => escapedUnit (0xDC00 + n)

/-- A string between quotes. -/
def writeString (s : String) : String :=
  s.toList.foldl (fun out c => (writeChar c).foldl String.push out) "\"" ++ "\""

/-- A string that is no text, between quotes. -/
def writeLiteral (s : Literal) : String := String.ofList ('\x22' :: s.pieces.flatMap writePiece ++ ['\x22'])

mutual

/-- A value, written after `out`. -/
def writeOn (out : String) : Json → String
  | null => out ++ "null"
  | bool b => out ++ (if b then "true" else "false")
  | integer n => out ++ toString n
  | real (.finite q) => out ++ Number.fixedPlaces 6 q
  | real _ => out ++ "null"
  | string s => out ++ writeString s
  | brokenString b => out ++ writeLiteral b.literal
  | array items => writeItems (out ++ "[") true items ++ "]"
  | object members => writeMembers (out ++ "\x7b") true members ++ "\x7d"

/-- The items of an array. -/
def writeItems (out : String) (first : Bool) : List Json → String
  | [] => out
  | v :: rest => writeItems (writeOn (if first then out else out ++ ",") v) false rest

/-- The members of an object. -/
def writeMembers (out : String) (first : Bool) : List (String × Json) → String
  | [] => out
  | (k, v) :: rest =>
    let out := if first then out else out ++ ","
    writeMembers (writeOn (out ++ writeString k ++ ":") v) false rest

end

/-- The text of a value. -/
def write (v : Json) : String := writeOn "" v

end PatchReview.Json
