import PatchReview.Text.Blank
import PatchReview.Text.Letter

/-!
# Numbers in digits

A number may be written in decimal digits of any script. One of too many digits, with zeros in front
counted, is not taken for a number.
-/

namespace PatchReview.Text

/-- The most digits that are taken for a number. -/
def digitLimit : Nat := 4300

/-- Too many digits for a number. -/
structure Overlong where
  digits : Nat
deriving DecidableEq, Repr

/-- What is said of too many digits. -/
def Overlong.message (e : Overlong) : String :=
  "Exceeds the limit (" ++ toString digitLimit ++ " digits) for integer string conversion: value has "
    ++ toString e.digits ++ " digits; use sys.set_int_max_str_digits() to increase the limit"

/-- The value of digits, however many. -/
def valueOf (ds : List Char) : Nat := ds.foldl (fun n c => n * 10 + (digitValue? c).getD 0) 0

/-- The number that digits are taken for. -/
def numberOf (ds : List Char) : Except Overlong Nat :=
  if digitLimit < ds.length then .error ⟨ds.length⟩ else .ok (valueOf ds)

theorem numberOf_of_le {ds : List Char} (h : ds.length ≤ digitLimit) : numberOf ds = .ok (valueOf ds) :=
  if_neg (Nat.not_lt_of_le h)

theorem numberOf_of_lt {ds : List Char} (h : digitLimit < ds.length) :
    numberOf ds = .error ⟨ds.length⟩ :=
  if_pos h

/-! ## Around the digits -/

/-- A character that may stand at either end of a number: any blank but the information separators. -/
def isPadding (c : Char) : Bool := isBlank c && !(0x1C ≤ c.toNat && c.toNat ≤ 0x1F)

/-- Whether two low lines stand side by side. -/
def hasDoubleLine : List Char → Bool
  | '_' :: '_' :: _ => true
  | _ :: rest => hasDoubleLine rest
  | [] => false

/-- The characters without low lines, if these stand one by one between others. -/
def withoutLines (cs : List Char) : Option (List Char) :=
  if cs.head? = some '_' || cs.getLast? = some '_' || hasDoubleLine cs then none
  else some (cs.filter (· ≠ '_'))

end PatchReview.Text
