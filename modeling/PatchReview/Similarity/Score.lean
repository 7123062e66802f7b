import PatchReview.Number.Rounding
import PatchReview.Similarity.Subsequence
import PatchReview.Similarity.Words

/-!
# How alike two texts are

Two texts are alike to the degree that a common subsequence covers them: the share of their characters,
of both together, that belong to it. On this rest three scores for processed texts: of their sorted
words, of the shorter text with the windows of the longer, and of the words that they share and those
that they do not. The best of the three is the score of two texts.

Scores lie between zero and one and are computed as percentages. `Rounding` says how each step is
rounded; the share itself is kept exactly up to the first step, so the best of several shares is the
best of their scores. A text without letters and digits is like none.
-/

namespace PatchReview.Similarity

open PatchReview.Text
open PatchReview.Number (Rounding)

/-- The share of characters that belong to a common subsequence of the given length, of two texts with
    so many characters together. -/
def sharedPart (length total : Nat) : Rat := if total = 0 then 1 else (2 * length : Nat) / (total : Rat)

/-- The share of two texts that their longest common subsequence covers. -/
def likeness (a b : List Char) : Rat := sharedPart (commonLength a b) (a.length + b.length)

/-- The score of a share: its complement taken from one, as a percentage. -/
def scoreOf (r : Rounding) (part : Rat) : Rat := r.div (r.mul (r.sub 1 (r.round (1 - part))) 100) 100

/-- The score of a share: its complement as a percentage taken from a hundred. -/
def setScoreOf (r : Rounding) (part : Rat) : Rat :=
  r.div (r.sub 100 (r.round (100 * (1 - part)))) 100

/-- The larger of two shares. -/
def larger (a b : Rat) : Rat := if a ≤ b then b else a

/-- The largest of some shares, at least zero. -/
def best (parts : List Rat) : Rat := parts.foldl larger 0

/-- Whether two texts can be compared: neither is empty when processed. -/
def comparable (a b : List Char) : Bool := !(processed a).isEmpty && !(processed b).isEmpty

/-- The score of two texts as they stand. -/
def ratio (r : Rounding) (a b : List Char) : Rat :=
  if comparable a b then scoreOf r (likeness (processed a) (processed b)) else 0

/-- The score of two texts with their words sorted. -/
def tokenSortRatio (r : Rounding) (a b : List Char) : Rat :=
  if comparable a b then
    scoreOf r (likeness (sortedText (processedWords a)) (sortedText (processedWords b)))
  else 0

/-! ## Windows -/

/-- The windows of the shorter text's length. -/
def fullWindows (size : Nat) (text : List Char) : List (List Char) :=
  (List.range (text.length + 1 - size)).map fun start => (text.drop start).take size

/-- The shares of a text with the windows at the end of another that are shorter than it. -/
def endParts (short text : List Char) : List Rat :=
  let ending := text.drop (text.length + 1 - short.length)
  (commonTails short ending).mapIdx fun n length =>
    sharedPart length (short.length + (ending.length - n))

/-- The shares of a text with all windows of another, which is not shorter. -/
def windowParts (short text : List Char) : List Rat :=
  (fullWindows short.length text).map (likeness short) ++ endParts short text ++
    endParts short.reverse text.reverse

/-- The best share of the shorter of two texts with a window of the longer; of texts of one length
    either may be cut. -/
def partialLikeness (a b : List Char) : Rat :=
  if a.length < b.length then best (windowParts a b)
  else if b.length < a.length then best (windowParts b a)
  else best (windowParts a b ++ windowParts b a)

/-- The score of the shorter of two texts with the best window of the longer. -/
def partialRatio (r : Rounding) (a b : List Char) : Rat :=
  if comparable a b then scoreOf r (partialLikeness (processed a) (processed b)) else 0

/-! ## Sets of words -/

/-- The share of two texts made of the shared words and the further words of each. -/
def setLikeness (a b : List (List Char)) : Rat :=
  let shared := a.filter (b.contains ·)
  let onlyA := a.filter (!b.contains ·)
  let onlyB := b.filter (!a.contains ·)
  if !shared.isEmpty && (onlyA.isEmpty || onlyB.isEmpty) then 1
  else
    let start := (sortedText shared).length
    let space := if shared.isEmpty then 0 else 1
    let textA := sortedText onlyA
    let textB := sortedText onlyB
    let lengthA := start + space + textA.length
    let lengthB := start + space + textB.length
    let apart := textA.length + textB.length - 2 * commonLength textA textB
    let part (away whole : Nat) : Rat := 1 - (away : Rat) / (whole : Rat)
    if shared.isEmpty then part apart (lengthA + lengthB)
    else
      best [part apart (lengthA + lengthB), part (1 + textA.length) (start + lengthA),
            part (1 + textB.length) (start + lengthB)]

/-- The score of the words that two texts share and those that they do not. -/
def tokenSetRatio (r : Rounding) (a b : List Char) : Rat :=
  if comparable a b then
    setScoreOf r (setLikeness (processedWords a).eraseDups (processedWords b).eraseDups)
  else 0

/-! ## The score of two texts -/

/-- The best of the three scores. -/
def similarity (r : Rounding) (a b : List Char) : Rat :=
  larger (tokenSortRatio r a b) (larger (partialRatio r a b) (tokenSetRatio r a b))

/-- The share of plain words that two texts have in common, of the words of the one with more. -/
def wordOverlap (r : Rounding) (a b : List Char) : Rat :=
  let wordsA := plainWords a
  let wordsB := plainWords b
  if wordsA = wordsB then 1
  else
    let shared := (wordsA.filter (wordsB.contains ·)).eraseDups
    r.div shared.length (max (max wordsA.length wordsB.length) 1 : Nat)

end PatchReview.Similarity
