/-!
# Blanks and words

A blank is a character that separates words: Unicode white space and the four information
separators. Texts are stripped of blanks at both ends and split at runs of them.
-/

namespace PatchReview.Text

/-- A character that separates words. -/
def isBlank (c : Char) : Bool :=
  let n := c.toNat
  (9 ≤ n && n ≤ 13) || (28 ≤ n && n ≤ 32) || n == 0x85 || n == 0xA0 || n == 0x1680 ||
  (0x2000 ≤ n && n ≤ 0x200A) || n == 0x2028 || n == 0x2029 || n == 0x202F || n == 0x205F ||
  n == 0x3000

/-- The characters without those at either end that pass the test. -/
def trimmed (test : Char → Bool) (cs : List Char) : List Char :=
  ((cs.dropWhile test).reverse.dropWhile test).reverse

/-- The characters without the blanks at either end. -/
def strip (cs : List Char) : List Char := trimmed isBlank cs

/-- The text without the blanks at either end. -/
def stripped (text : String) : String := String.ofList (strip text.toList)

/-- The words that follow when the characters of an unfinished word are read already, in reverse
    order. -/
def wordsFrom (word : List Char) : List Char → List (List Char)
  | [] => if word.isEmpty then [] else [word.reverse]
  | c :: rest =>
    if isBlank c then
      if word.isEmpty then wordsFrom [] rest else word.reverse :: wordsFrom [] rest
    else wordsFrom (c :: word) rest

/-- The words between runs of blanks. -/
def words (cs : List Char) : List (List Char) := wordsFrom [] cs

/-- The words with one space between each two. -/
def joined (ws : List (List Char)) : List Char := [' '].intercalate ws

end PatchReview.Text
