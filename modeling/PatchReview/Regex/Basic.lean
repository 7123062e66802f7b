import PatchReview.Text.Blank
import PatchReview.Text.Case
import PatchReview.Text.Letter

/-!
# Regular expressions

An expression is matched from a spot in a text: a position, and what its groups have taken so far.
`Regex.run` gives the spots at which a match may end, in the order in which they are preferred and each
once, so that an atomic part can commit itself to the first. A repetition remembers from which spots it
went on already; it therefore looks at each of them once, however often its parts may be divided.
-/

namespace PatchReview

open PatchReview.Text

/-- Which letters, digits and blanks there are: those among the first 128 characters, or all. -/
inductive Reach where
  | basic
  | full
deriving DecidableEq, Repr

namespace Reach

/-- Whether a character is a letter, a digit or a low line. -/
def isWord : Reach → Char → Bool
  | .basic, c => c.isAlphanum || c == '_'
  | .full, c => isWordChar c

/-- Whether a character is a decimal digit. -/
def isDigit : Reach → Char → Bool
  | .basic, c => c.isDigit
  | .full, c => isDecimal c

/-- Whether a character is a blank; the information separators are none among the first 128. -/
def isBlank : Reach → Char → Bool
  | .basic, c => c == ' ' || ('\t' ≤ c && c ≤ '\r')
  | .full, c => Text.isBlank c

/-- The character in lower case. -/
def lower : Reach → Char → Char
  | .basic, c => c.toLower
  | .full, c => lowerChar c

/-- The numbers of all characters that are the same letter when case is ignored. -/
def forms : Reach → Char → List Nat
  | .basic, c => [c.toLower.toNat, c.toUpper.toNat]
  | .full, c => letterForms c

end Reach

/-- What a character of a set may be. -/
inductive ClassItem where
  | range (first last : Nat)
  | digit (is : Bool)
  | blank (is : Bool)
  | word (is : Bool)
deriving DecidableEq, Repr

/-- A set of characters; `fold` says that case is ignored. -/
structure CharSet where
  negated : Bool
  items   : List ClassItem
  fold    : Bool
  reach   : Reach
deriving DecidableEq, Repr

namespace CharSet

/-- The set of one character. -/
def single (code : Nat) (fold : Bool) (reach : Reach) : CharSet :=
  ⟨false, [.range code code], fold, reach⟩

/-- The set of all characters. -/
def everything : CharSet := ⟨true, [], false, .full⟩

/-- The set of all characters that do not end a line. -/
def withinLine : CharSet := ⟨true, [.range 10 10], false, .full⟩

/-- Whether a character is what an item says, given the numbers of its forms. -/
def holdsItem (reach : Reach) (c : Char) (forms : List Nat) : ClassItem → Bool
  | .range first last => forms.any fun n => first ≤ n && n ≤ last
  | .digit is => reach.isDigit c == is
  | .blank is => reach.isBlank c == is
  | .word is => reach.isWord c == is

/-- Whether a character is in a set. -/
def holds (s : CharSet) (c : Char) : Bool :=
  let forms := if s.fold then s.reach.forms c else [c.toNat]
  s.items.any (holdsItem s.reach c forms) != s.negated

end CharSet

/-- A condition on a position. -/
inductive Boundary where
  | textStart
  | textEnd
  | lineStart
  | lineEnd
  /-- The end of the text, or before a line feed that ends it. -/
  | lastLineEnd
  /-- Whether a word begins or ends here, or neither; an empty text has no such place. -/
  | wordEdge (reach : Reach) (is : Bool)
deriving DecidableEq, Repr

/-- Which of several numbers of repetitions is preferred. -/
inductive Greed where
  | most
  | least
  /-- As many as possible, and no others if the rest does not match then. -/
  | onlyMost
deriving DecidableEq, Repr

/-- A regular expression. -/
inductive Regex where
  | empty
  | never
  | one (set : CharSet)
  | boundary (b : Boundary)
  | both (a b : Regex)
  | either (a b : Regex)
  | many (least : Nat) (most : Option Nat) (greed : Greed) (a : Regex)
  | group (number : Nat) (a : Regex)
  /-- What a group took, once more. -/
  | again (number : Nat) (fold : Bool) (reach : Reach)
  /-- One expression where a group took something, even nothing, and another where it did not match. -/
  | ifTaken (number : Nat) (a b : Regex)
  | ahead (is : Bool) (a : Regex)
  /-- What stands before, in a number of characters. -/
  | behind (is : Bool) (width : Nat) (a : Regex)
  | atomic (a : Regex)
deriving DecidableEq, Repr

namespace Regex

/-- A position, and the ends of what groups have taken, by their numbers. -/
structure Spot where
  place  : Nat
  groups : List (Nat × Nat × Nat)
deriving DecidableEq, Repr

/-- Whether a word character stands at a position. -/
def wordAt (text : Array Char) (reach : Reach) (place : Nat) : Bool :=
  match text[place]? with
  | some c => reach.isWord c
  | none => false

/-- Whether a condition holds at a position. -/
def boundaryAt (text : Array Char) (place : Nat) : Boundary → Bool
  | .textStart => place == 0
  | .textEnd => place == text.size
  | .lineStart => place == 0 || text[place - 1]? == some '\n'
  | .lineEnd => place == text.size || text[place]? == some '\n'
  | .lastLineEnd => place == text.size || (place + 1 == text.size && text[place]? == some '\n')
  | .wordEdge reach is =>
    text.size != 0 &&
      ((0 < place && wordAt text reach (place - 1)) != wordAt text reach place) == is

/-- Whether characters that count as the same stand at two positions. -/
def sameAt (text : Array Char) (same : Char → Char → Bool) : (count first second : Nat) → Bool
  | 0, _, _ => true
  | count + 1, first, second =>
    match text[first]?, text[second]? with
    | some a, some b => same a b && sameAt text same count (first + 1) (second + 1)
    | _, _ => false

/-- What a repetition has done: the spots that it went on from with the numbers of repetitions still
    allowed, and the spots at which it may end, the last found first. -/
structure Course where
  seen  : List (Nat × Option Nat × Spot)
  found : List Spot

/-- One more spot to end at. -/
def Course.add (c : Course) (s : Spot) : Course :=
  if c.found.contains s then c else { c with found := s :: c.found }

/-- Goes on with a repetition from a spot. A round that takes nothing is the last. -/
def explore (step : Spot → List Spot) (lazily : Bool) :
    (fuel least : Nat) → (most : Option Nat) → Spot → Course → Course
  | 0, least, _, s, c => if least = 0 then c.add s else c
  | fuel + 1, least, most, s, c =>
    if c.seen.contains (least, most, s) then c
    else
      let c := { c with seen := (least, most, s) :: c.seen }
      let c := if least = 0 && lazily then c.add s else c
      let c :=
        if most = some 0 then c
        else
          (step s).foldl (fun c t =>
            if t.place = s.place then c.add t
            else explore step lazily fuel (least - 1) (most.map (· - 1)) t c) c
      if least = 0 && !lazily then c.add s else c

/-- The spots at which a repetition may end, those preferred first. -/
def repeated (step : Spot → List Spot) (size least : Nat) (most : Option Nat) (greed : Greed)
    (s : Spot) : List Spot :=
  let c := explore step (greed == .least) (size - s.place + 1) least most s ⟨[], []⟩
  match greed with
  | .onlyMost => c.found.reverse.take 1
  | _ => c.found.reverse

/-- The spots at which a match from a spot may end, those preferred first. -/
def run (text : Array Char) : Regex → Spot → List Spot
  | .empty, s => [s]
  | .never, _ => []
  | .one set, s =>
    match text[s.place]? with
    | some c => if set.holds c then [{ s with place := s.place + 1 }] else []
    | none => []
  | .boundary b, s => if boundaryAt text s.place b then [s] else []
  | .both a b, s => ((run text a s).flatMap (run text b)).eraseDups
  | .either a b, s => (run text a s ++ run text b s).eraseDups
  | .many least most greed a, s => repeated (run text a) text.size least most greed s
  | .group n a, s =>
    (run text a s).map fun t =>
      { t with groups := (n, s.place, t.place) :: t.groups.filter (·.1 != n) }
  | .again n fold reach, s =>
    match s.groups.find? (·.1 == n) with
    | some (_, first, last) =>
      let same := fun a b => a == b || (fold && reach.lower a == reach.lower b)
      if sameAt text same (last - first) first s.place then
        [{ s with place := s.place + (last - first) }]
      else []
    | none => []
  | .ifTaken n a b, s => if s.groups.any (·.1 == n) then run text a s else run text b s
  | .ahead is a, s =>
    match run text a s, is with
    | t :: _, true => [{ s with groups := t.groups }]
    | [], false => [s]
    | _, _ => []
  | .behind is width a, s =>
    let found := if width ≤ s.place then run text a { s with place := s.place - width } else []
    match found, is with
    | t :: _, true => [{ s with groups := t.groups }]
    | [], false => [s]
    | _, _ => []
  | .atomic a, s => (run text a s).take 1

/-- Whether an expression looks back at what groups took. -/
def looksBack : Regex → Bool
  | .again _ _ _ | .ifTaken _ _ _ => true
  | .both a b | .either a b => looksBack a || looksBack b
  | .many _ _ _ a | .group _ a | .ahead _ a | .behind _ _ a | .atomic a => looksBack a
  | _ => false

/-- The expression without its groups. -/
def withoutGroups : Regex → Regex
  | .group _ a => withoutGroups a
  | .both a b => .both (withoutGroups a) (withoutGroups b)
  | .either a b => .either (withoutGroups a) (withoutGroups b)
  | .ifTaken n a b => .ifTaken n (withoutGroups a) (withoutGroups b)
  | .many least most greed a => .many least most greed (withoutGroups a)
  | .ahead is a => .ahead is (withoutGroups a)
  | .behind is width a => .behind is width (withoutGroups a)
  | .atomic a => .atomic (withoutGroups a)
  | r => r

/-- Whether an expression matches somewhere in a text. What groups take is kept only where it is looked
    back at. -/
def occursIn (r : Regex) (text : List Char) : Bool :=
  let r := if r.looksBack then r else r.withoutGroups
  let cs := text.toArray
  (List.range (cs.size + 1)).any fun place => !(run cs r ⟨place, []⟩).isEmpty

/-- The least and the greatest number of characters that a match takes; no greatest where there is
    none, `widths` giving those of groups. -/
def width (widths : List (Nat × Nat × Option Nat)) : Regex → Nat × Option Nat
  | .empty | .never | .boundary _ | .ahead _ _ | .behind _ _ _ => (0, some 0)
  | .one _ => (1, some 1)
  | .both a b =>
    let (x, y) := width widths a
    let (z, w) := width widths b
    (x + z, y.bind fun y => w.map (y + ·))
  | .either a b | .ifTaken _ a b =>
    let (x, y) := width widths a
    let (z, w) := width widths b
    (min x z, y.bind fun y => w.map (max y ·))
  | .many least most _ a =>
    let (x, y) := width widths a
    (x * least, if y = some 0 then some 0 else y.bind fun y => most.map (y * ·))
  | .group _ a | .atomic a => width widths a
  | .again n _ _ => (widths.lookup n).getD (0, none)

end Regex

end PatchReview
