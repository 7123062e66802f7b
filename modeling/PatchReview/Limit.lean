/-!
# Limits

Budgets and limits have to be positive. What is wrong with one that is not is said by name.
-/

namespace PatchReview

/-- A limit that had to be positive and is not. -/
structure NotPositive where
  limit : String
  value : Int
deriving DecidableEq, Repr

namespace NotPositive

/-- What is wrong, in words. -/
def message (e : NotPositive) : String := e.limit ++ " must be positive, got " ++ toString e.value

end NotPositive

/-- Accepts a limit only if it is positive. -/
def requirePositive (limit : String) (value : Int) : Except NotPositive Unit :=
  if value ≤ 0 then .error ⟨limit, value⟩ else .ok ()

/-- The items before a bound, which counts from the end where it is negative. -/
def takeBounded {α : Type} (bound : Int) (items : List α) : List α :=
  if 0 ≤ bound then items.take bound.toNat else items.take (items.length - bound.natAbs)

end PatchReview
