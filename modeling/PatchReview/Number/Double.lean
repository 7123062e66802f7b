import PatchReview.Number.Rounding

/-!
# Numbers of the binary64 format

What a written number may stand for in that format: a rational of 53 binary digits, an infinity, or
no number at all. Only the reading of numbers meets the last two; scores and thresholds are plain
rationals.
-/

namespace PatchReview.Number

/-- A number of the binary64 format. -/
inductive Double where
  | finite (value : Rat)
  | infinite (negative : Bool)
  | notANumber
deriving DecidableEq, Repr

namespace Double

/-- The least magnitude that is no longer finite. -/
def bound : Rat := powerOfTwo 1024

/-- The nearest double of a rational. -/
def ofRat (q : Rat) : Double :=
  let v := nearestBinary q
  if bound ≤ v then infinite false
  else if v ≤ -bound then infinite true
  else finite v

/-- The double nearest to `mantissa` times ten to the power `exponent`. Exponents that leave every
    magnitude of the format are not computed out. -/
def ofDecimal (negative : Bool) (mantissa : Nat) (exponent : Int) : Double :=
  let size : Int := (Nat.toDigits 10 mantissa).length + exponent
  if mantissa = 0 ∨ size < -400 then finite 0
  else if 400 < size then infinite negative
  else
    let power := (Nat.pow 10 exponent.natAbs : Rat)
    let q := if 0 ≤ exponent then (mantissa : Rat) * power else (mantissa : Rat) / power
    ofRat (if negative then -q else q)

/-- The value of a finite double. -/
def toRat? : Double → Option Rat
  | finite q => some q
  | infinite _ | notANumber => none

/-- Whether a double lies above a rational. -/
def above (d : Double) (q : Rat) : Bool :=
  match d with
  | finite v => q < v
  | infinite negative => !negative
  | notANumber => false

/-- Whether a double lies at a rational or below it. -/
def atMost (d : Double) (q : Rat) : Bool :=
  match d with
  | finite v => v ≤ q
  | infinite negative => negative
  | notANumber => false

end Double

end PatchReview.Number
