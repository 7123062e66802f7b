/-!
# Rounding

Rationals rounded to whole numbers, to a number of decimal places, and to 53 binary digits. A half
goes to the even neighbour everywhere.

Scores are computed on rationals, each step rounded by a `Rounding`. With `exactly` nothing is
rounded, with `binary64` every step gives the nearest number of 53 binary digits, which is what a
machine computes.
-/

namespace PatchReview.Number

/-- The nearest whole number; of two that are equally near, the even one. -/
def nearestInt (q : Rat) : Int :=
  let low := q.floor
  let rest := q - low
  if rest < 1 / 2 then low
  else if 1 / 2 < rest then low + 1
  else if low % 2 = 0 then low else low + 1

/-- The power of two with the given exponent. -/
def powerOfTwo (e : Int) : Rat :=
  if 0 ≤ e then (Nat.pow 2 e.toNat : Rat) else 1 / (Nat.pow 2 (-e).toNat : Rat)

/-- The exponent of the last of 53 binary digits of a positive rational, which is never below that
    of the least positive number of the format. -/
def lastDigit (q : Rat) : Int :=
  let guess : Int := (Nat.log2 q.num.natAbs : Int) - (Nat.log2 q.den : Int) - 52
  let exponent := if q < powerOfTwo (guess + 52) then guess - 1 else guess
  max exponent (-1074)

/-- The nearest number of 53 binary digits. -/
def nearestBinary (q : Rat) : Rat :=
  if q = 0 then 0
  else
    let unit := powerOfTwo (lastDigit (if q < 0 then -q else q))
    nearestInt (q / unit) * unit

/-- How each step of a computation is rounded. -/
structure Rounding where
  round : Rat → Rat

namespace Rounding

/-- Nothing is rounded. -/
def exactly : Rounding := ⟨id⟩

/-- Each step gives the nearest number of 53 binary digits. -/
def binary64 : Rounding := ⟨nearestBinary⟩

/-- A rounded sum. -/
def add (r : Rounding) (a b : Rat) : Rat := r.round (a + b)

/-- A rounded difference. -/
def sub (r : Rounding) (a b : Rat) : Rat := r.round (a - b)

/-- A rounded product. -/
def mul (r : Rounding) (a b : Rat) : Rat := r.round (a * b)

/-- A rounded quotient. -/
def div (r : Rounding) (a b : Rat) : Rat := r.round (a / b)

end Rounding

/-- The digits of a natural number, at least `width` of them. -/
def paddedDigits (width n : Nat) : List Char :=
  let ds := Nat.toDigits 10 n
  List.replicate (width - ds.length) '0' ++ ds

/-- A rational with the given number of decimal places. -/
def fixedPlaces (places : Nat) (q : Rat) : String :=
  let scaled := nearestInt ((if q < 0 then -q else q) * (Nat.pow 10 places : Rat))
  let sign := if q < 0 then "-" else ""
  let n := scaled.natAbs
  let whole := n / Nat.pow 10 places
  let rest := n % Nat.pow 10 places
  sign ++ toString whole ++ "." ++ String.ofList (paddedDigits places rest)

end PatchReview.Number
