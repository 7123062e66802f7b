import PatchReview.Json.Value

/-!
# Reading JSON texts

A reader of the whole format as it is commonly read: beside the standard's values it accepts `NaN`,
`Infinity` and `-Infinity`, and it keeps repeated members of an object. The four blanks of the
standard may stand between tokens; anything else after the value is an error.
-/

namespace PatchReview.Json

open PatchReview.Number (Double)

/-- The rest after the blanks of the format. -/
def skipBlanks : List Char → List Char
  | [] => []
  | c :: rest => if c = ' ' ∨ c = '\t' ∨ c = '\n' ∨ c = '\r' then skipBlanks rest else c :: rest

/-- The value of a hexadecimal digit. -/
def hexValue? (c : Char) : Option Nat :=
  if '0' ≤ c ∧ c ≤ '9' then some (c.toNat - 48)
  else if 'a' ≤ c ∧ c ≤ 'f' then some (c.toNat - 87)
  else if 'A' ≤ c ∧ c ≤ 'F' then some (c.toNat - 55)
  else none

/-- Four hexadecimal digits and what follows. -/
def readHex4 : List Char → Option (Nat × List Char)
  | a :: b :: c :: d :: rest => do
    let a ← hexValue? a
    let b ← hexValue? b
    let c ← hexValue? c
    let d ← hexValue? d
    return (a * 4096 + b * 256 + c * 16 + d, rest)
  | _ => none

/-- The piece with that number. -/
def pieceOf (unit : Nat) : Piece :=
  if 0xD800 ≤ unit ∧ unit < 0xDC00 then .high (Fin.ofNat 1024 (unit - 0xD800))
  else if 0xDC00 ≤ unit ∧ unit < 0xE000 then .low (Fin.ofNat 1024 (unit - 0xDC00))
  else .char (Char.ofNat unit)

/-- An escape after its backslash. -/
def readEscape : List Char → Option (Piece × List Char)
  | '\x22' :: rest => some (.char '\x22', rest)
  | '\\' :: rest => some (.char '\\', rest)
  | '/' :: rest => some (.char '/', rest)
  | 'b' :: rest => some (.char '\x08', rest)
  | 'f' :: rest => some (.char '\x0c', rest)
  | 'n' :: rest => some (.char '\n', rest)
  | 'r' :: rest => some (.char '\r', rest)
  | 't' :: rest => some (.char '\t', rest)
  | 'u' :: rest => (readHex4 rest).map fun (unit, rest) => (pieceOf unit, rest)
  | _ => none

/-- The rest of a string after its opening quote: its pieces in reverse order before `done`, and what
    follows. `fuel` bounds its length. -/
def readString : (fuel : Nat) → (done : List Piece) → List Char → Option (Literal × List Char)
  | 0, _, _ => none
  | _, _, [] => none
  | fuel + 1, done, c :: rest =>
    if c = '\x22' then some (.ofPieces done.reverse, rest)
    else if c = '\\' then
      match readEscape rest with
      | some (p, rest) => readString fuel (p :: done) rest
      | none => none
    else if c.toNat < 0x20 then none
    else readString fuel (.char c :: done) rest

/-- Whether a character is a decimal digit of the format. -/
def isDigit (c : Char) : Bool := '0' ≤ c && c ≤ '9'

/-- The value of decimal digits. -/
def digitsValue (ds : List Char) : Nat := ds.foldl (fun n c => n * 10 + (c.toNat - 48)) 0

/-- The whole part of a number: no zero before another digit. -/
def readWhole : List Char → Option (List Char × List Char)
  | '0' :: rest => some (['0'], rest)
  | cs =>
    let ds := cs.takeWhile isDigit
    if ds.isEmpty then none else some (ds, cs.dropWhile isDigit)

/-- The fraction of a number, if one follows. -/
def readFraction : List Char → Option (List Char × List Char)
  | '.' :: rest =>
    let ds := rest.takeWhile isDigit
    if ds.isEmpty then none else some (ds, rest.dropWhile isDigit)
  | _ => none

/-- The exponent of a number, if one follows. -/
def readExponent : List Char → Option (Int × List Char)
  | e :: rest =>
    if e = 'e' ∨ e = 'E' then
      let (negative, rest) := match rest with
        | '-' :: r => (true, r)
        | '+' :: r => (false, r)
        | r => (false, r)
      let ds := rest.takeWhile isDigit
      if ds.isEmpty then none
      else
        let n : Int := digitsValue ds
        some (if negative then -n else n, rest.dropWhile isDigit)
    else none
  | [] => none

/-- A number after its sign. -/
def readMagnitude (negative : Bool) (cs : List Char) : Option (Json × List Char) :=
  match readWhole cs with
  | none => none
  | some (whole, rest) =>
    match readFraction rest, readExponent rest with
    | none, none =>
      let n : Int := digitsValue whole
      some (integer (if negative then -n else n), rest)
    | none, some (e, rest) => some (real (.ofDecimal negative (digitsValue whole) e), rest)
    | some (frac, rest), _ =>
      let mantissa := digitsValue (whole ++ frac)
      let (e, rest) := (readExponent rest).getD (0, rest)
      some (real (.ofDecimal negative mantissa (e - frac.length)), rest)

/-- What follows the given characters. -/
def after? : (expected : List Char) → List Char → Option (List Char)
  | [], rest => some rest
  | _ :: _, [] => none
  | e :: es, c :: cs => if e = c then after? es cs else none

/-- A number or one of the named values. -/
def readScalar (cs : List Char) : Option (Json × List Char) :=
  match cs with
  | 'n' :: _ => (after? ['n', 'u', 'l', 'l'] cs).map (null, ·)
  | 't' :: _ => (after? ['t', 'r', 'u', 'e'] cs).map (bool true, ·)
  | 'f' :: _ => (after? ['f', 'a', 'l', 's', 'e'] cs).map (bool false, ·)
  | 'N' :: _ => (after? ['N', 'a', 'N'] cs).map (real .notANumber, ·)
  | 'I' :: _ =>
    (after? ['I', 'n', 'f', 'i', 'n', 'i', 't', 'y'] cs).map (real (.infinite false), ·)
  | '-' :: 'I' :: _ =>
    (after? ['-', 'I', 'n', 'f', 'i', 'n', 'i', 't', 'y'] cs).map (real (.infinite true), ·)
  | '-' :: rest => readMagnitude true rest
  | _ => readMagnitude false cs

mutual

/-- A value at the beginning of a text, and what follows. `fuel` bounds the tokens. -/
def readValue : (fuel : Nat) → List Char → Option (Json × List Char)
  | 0, _ => none
  | fuel + 1, cs =>
    match cs with
    | '\x22' :: rest =>
      (readString (rest.length + 1) [] rest).map fun (s, rest) => (ofLiteral s, rest)
    | '[' :: rest =>
      match skipBlanks rest with
      | ']' :: rest => some (array [], rest)
      | rest => readItems fuel [] rest
    | '\x7b' :: rest =>
      match skipBlanks rest with
      | '\x7d' :: rest => some (object [], rest)
      | rest => readMembers fuel [] rest
    | _ => readScalar cs

/-- The items of an array from the next one on, those before it in reverse order in `done`. -/
def readItems : (fuel : Nat) → (done : List Json) → List Char → Option (Json × List Char)
  | 0, _, _ => none
  | fuel + 1, done, cs =>
    match readValue fuel cs with
    | none => none
    | some (v, rest) =>
      match skipBlanks rest with
      | ']' :: rest => some (array (v :: done).reverse, rest)
      | ',' :: rest => readItems fuel (v :: done) (skipBlanks rest)
      | _ => none

/-- The members of an object from the next one on. A name that is no text is forgotten together
    with its value. -/
def readMembers : (fuel : Nat) → (done : List (String × Json)) → List Char →
    Option (Json × List Char)
  | 0, _, _ => none
  | fuel + 1, done, cs =>
    match cs with
    | '\x22' :: rest =>
      match readString (rest.length + 1) [] rest with
      | none => none
      | some (key, rest) =>
        match skipBlanks rest with
        | ':' :: rest =>
          match readValue fuel (skipBlanks rest) with
          | none => none
          | some (v, rest) =>
            let done := match key.text? with
              | some k => (k, v) :: done
              | none => done
            match skipBlanks rest with
            | '\x7d' :: rest => some (object done.reverse, rest)
            | ',' :: rest => readMembers fuel done (skipBlanks rest)
            | _ => none
        | _ => none
    | _ => none

end

/-- The value that a whole text is, or none where the text is malformed. -/
def read (text : String) : Option Json :=
  let cs := text.toList
  match readValue (2 * cs.length + 2) (skipBlanks cs) with
  | some (v, rest) => if (skipBlanks rest).isEmpty then some v else none
  | none => none

end PatchReview.Json
