/-!
# Lines

A text is cut into lines in two ways. `lines` ends a line at any of Unicode's line boundaries, as the
lines of a diff do; a boundary at the very end starts no further line. `fileLines` ends a line at a
line feed, a carriage return before it being part of the end, and every end starts a further line.
-/

namespace PatchReview.Text

/-- A character that ends a line of a diff. -/
def isLineBoundary (c : Char) : Bool :=
  let n := c.toNat
  (10 ≤ n && n ≤ 13) || (28 ≤ n && n ≤ 30) || n == 0x85 || n == 0x2028 || n == 0x2029

/-- Whether no character of a text ends a line. -/
def isUnbroken (cs : List Char) : Bool := cs.all fun c => !isLineBoundary c

/-- The lines that follow when the characters of an unfinished line are read already, in reverse
    order; `started` says whether the unfinished line counts even if it is empty. -/
def linesFrom (line : List Char) (started : Bool) : List Char → List (List Char)
  | [] => if started then [line.reverse] else []
  | '\r' :: '\n' :: rest => line.reverse :: linesFrom [] false rest
  | c :: rest =>
    if isLineBoundary c then line.reverse :: linesFrom [] false rest
    else linesFrom (c :: line) true rest

/-- The lines of a text that ends its lines at any line boundary. -/
def lines (cs : List Char) : List (List Char) := linesFrom [] false cs

/-- The text with a line feed for every carriage return and for every pair of the two. -/
def unifyLineEnds : List Char → List Char
  | [] => []
  | '\r' :: '\n' :: rest => '\n' :: unifyLineEnds rest
  | c :: rest => (if c = '\r' then '\n' else c) :: unifyLineEnds rest

/-- The pieces between line feeds. -/
def fileLines (cs : List Char) : List (List Char) := (unifyLineEnds cs).splitOn '\n'

end PatchReview.Text
