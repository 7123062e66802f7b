import PatchReview.Text.Blank
import PatchReview.Text.Case
import PatchReview.Text.Letter

/-!
# Texts made comparable

Before texts are compared they are brought into a common form. `processed` keeps letters and digits of
any script, in lower case letter by letter, and puts a space for every other character. `plainWords`
keeps the letters and digits of ASCII alone, after the text as a whole was put in lower case.
-/

namespace PatchReview.Similarity

open PatchReview.Text

/-- A character as it is compared: in lower case, or a space. -/
def processedChar (c : Char) : Char := if isAlphanumeric c then lowerChar c else ' '

/-- A text as it is compared. -/
def processed (cs : List Char) : List Char := trimmed (· = ' ') (cs.map processedChar)

/-- The words of a text as it is compared. -/
def processedWords (cs : List Char) : List (List Char) := words (processed cs)

/-- A letter or digit of ASCII, in lower case. -/
def isPlain (c : Char) : Bool := ('a' ≤ c && c ≤ 'z') || ('0' ≤ c && c ≤ '9')

/-- The words of ASCII letters and digits. -/
def plainWords (cs : List Char) : List (List Char) :=
  words ((lower cs).map fun c => if isPlain c || isBlank c then c else ' ')

/-- The words of ASCII letters and digits, as one text. -/
def plainText (cs : List Char) : List Char := joined (plainWords cs)

/-- The order of words, by their characters. -/
def wordBefore : List Char → List Char → Bool
  | [], _ => true
  | _ :: _, [] => false
  | a :: as, b :: bs => decide (a < b) || (a == b && wordBefore as bs)

/-- Words in order, as one text. -/
def sortedText (ws : List (List Char)) : List Char := joined (ws.mergeSort wordBefore)

end PatchReview.Similarity
