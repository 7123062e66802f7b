/-!
# What is wrong with a record

A record that arrives as data is read field by field, and everything that is wrong with it is
reported, not only the first thing. `Checked` is a value or a list of issues; its applicative
operations collect the issues of all parts in order.
-/

namespace PatchReview.Record

/-- A step from a value to a part of it. -/
inductive Step where
  | member (name : String)
  | item (index : Nat)
deriving DecidableEq, Repr

/-- Why a value is not what is expected. -/
inductive Cause where
  | missing
  | notText
  | notUnicode
  | tooShort
  | notInteger
  | textNotInteger
  | fractionNotInteger
  | tooLarge
  | notFinite
  | notNumber
  | textNotNumber
  | notTruth
  | valueNotTruth
  | notAbove
  | notAtLeast
  | notAtMost
  | notListed
  | notList
  | notTable
  | notRecord
deriving DecidableEq, Repr

/-- Something that is wrong: where, and why. -/
structure Issue where
  path  : List Step
  cause : Cause
deriving DecidableEq, Repr

/-- A value, or all that is wrong with it. -/
inductive Checked (α : Type) where
  | ok (value : α)
  | bad (issues : List Issue)
deriving Repr

namespace Checked

variable {α β : Type}

/-- Something that is wrong with the value itself. -/
def fail (cause : Cause) : Checked α := .bad [⟨[], cause⟩]

/-- What is read of the value itself. -/
def ofExcept : Except Cause α → Checked α
  | .ok v => .ok v
  | .error cause => fail cause

/-- Applies a function to a value; the issues of both are kept, in order. -/
def apply (f : Checked (α → β)) (x : Checked α) : Checked β :=
  match f, x with
  | .ok f, .ok x => .ok (f x)
  | .ok _, .bad xs => .bad xs
  | .bad fs, .ok _ => .bad fs
  | .bad fs, .bad xs => .bad (fs ++ xs)

instance : Applicative Checked where
  pure := .ok
  seq f x := apply f (x ())

/-- Goes on with the value, if there is one. -/
def andThen (x : Checked α) (f : α → Checked β) : Checked β :=
  match x with
  | .ok v => f v
  | .bad issues => .bad issues

/-- The issues seen from outside, one step further away. -/
def under (step : Step) : Checked α → Checked α
  | .ok v => .ok v
  | .bad issues => .bad (issues.map fun i => { i with path := step :: i.path })

/-- The value, if there is one. -/
def value? : Checked α → Option α
  | .ok v => some v
  | .bad _ => none

/-- Reads items one after another, numbering them from `index`. -/
def itemsFrom (read : β → Checked α) (index : Nat) : List β → Checked (List α)
  | [] => .ok []
  | v :: rest =>
    apply (apply (.ok List.cons) ((read v).under (.item index))) (itemsFrom read (index + 1) rest)

end Checked

end PatchReview.Record
