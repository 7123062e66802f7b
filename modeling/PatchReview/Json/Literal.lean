/-!
# Strings

A string of the format is a row of characters and of halves of surrogate pairs. A half is no character,
and a string that has one is no text. Two halves that belong together are one character, so in a
`Literal` they do not stand side by side; any row is made into one by joining them (`Literal.ofPieces`).
-/

namespace PatchReview.Json

/-- A unit of a string: a character, or the first or second half of a surrogate pair. -/
inductive Piece where
  | char (c : Char)
  | high (n : Fin 1024)
  | low (n : Fin 1024)
deriving DecidableEq, Repr

namespace Piece

/-- The character that a piece is. -/
def char? : Piece → Option Char
  | char c => some c
  | high _ | low _ => none

/-- Whether a string goes on with the second half of a pair. -/
def startsLow : List Piece → Bool
  | low _ :: _ => true
  | _ => false

/-- Whether no two halves stand side by side that would be one character. -/
def isUnpaired : List Piece → Bool
  | [] => true
  | high _ :: rest => !startsLow rest && isUnpaired rest
  | _ :: rest => isUnpaired rest

/-- A piece before others. If it is the first half of a pair and they begin with the second, the two are
    one character. -/
def attach : Piece → List Piece → List Piece
  | high a, low b :: rest => char (Char.ofNat (0x10000 + a * 1024 + b)) :: rest
  | p, rest => p :: rest

/-- The pieces with one character for each two halves that belong together. -/
def joined (pieces : List Piece) : List Piece := pieces.foldr attach []

theorem joined_cons (p : Piece) (rest : List Piece) : joined (p :: rest) = attach p (joined rest) := rfl

/-- Only a first half before a second one is joined. -/
theorem attach_eq_cons {p : Piece} {rest : List Piece}
    (h : (∃ n, p = high n) → startsLow rest = false) : attach p rest = p :: rest := by
  unfold attach
  split
  · rename_i a b more
    exact nomatch h ⟨a, rfl⟩
  · rfl

theorem exists_of_startsLow {pieces : List Piece} (h : startsLow pieces = true) :
    ∃ n rest, pieces = low n :: rest := by
  unfold startsLow at h
  split at h
  · exact ⟨_, _, rfl⟩
  · cases h

theorem isUnpaired_attach (p : Piece) {rest : List Piece} (h : isUnpaired rest = true) :
    isUnpaired (attach p rest) = true := by
  cases p with
  | char c => exact h
  | low n => exact h
  | high n =>
      by_cases hlow : startsLow rest = true
      · obtain ⟨m, more, rfl⟩ := exists_of_startsLow hlow
        exact h
      · rw [Bool.not_eq_true] at hlow
        rw [attach_eq_cons fun _ => hlow, isUnpaired, hlow, h]
        rfl

theorem isUnpaired_joined (pieces : List Piece) : isUnpaired (joined pieces) = true := by
  induction pieces with
  | nil => rfl
  | cons p rest ih => exact isUnpaired_attach p ih

theorem isUnpaired_map_char (cs : List Char) : isUnpaired (cs.map char) = true := by
  induction cs with
  | nil => rfl
  | cons c cs ih => exact ih

end Piece

/-- A string of characters and halves that do not belong together. -/
structure Literal where
  pieces   : List Piece
  unpaired : Piece.isUnpaired pieces = true
deriving DecidableEq, Repr

namespace Literal

/-- The string of some pieces. -/
def ofPieces (pieces : List Piece) : Literal := ⟨Piece.joined pieces, Piece.isUnpaired_joined pieces⟩

/-- A text as a string. -/
def ofString (s : String) : Literal := ⟨s.toList.map .char, Piece.isUnpaired_map_char s.toList⟩

/-- The text that a string is. -/
def text? (s : Literal) : Option String :=
  if s.pieces.all (·.char?.isSome) then some (String.ofList (s.pieces.filterMap (·.char?))) else none

end Literal

/-- A string with half of a surrogate pair in it, which is no text. -/
structure Broken where
  literal : Literal
  broken  : literal.text? = none

end PatchReview.Json
