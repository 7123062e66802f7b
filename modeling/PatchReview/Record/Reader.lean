import PatchReview.Json.Reader
import PatchReview.Record.Issue
import PatchReview.Text.Digits

/-!
# Reading fields

Readers of single fields. They are lenient where the meaning is plain: a whole number may be written
as text, with a fraction of zeros, with low lines between its digits, a truth value as one of a few
words. Limits are checked on the value that was understood.
-/

namespace PatchReview.Record

open PatchReview.Text
open PatchReview.Number (Double)

/-- A reader of one value. -/
abbrev Read (α : Type) := Json → Checked α

/-! ## Texts -/

/-- A string, be it a text or not. -/
def string : Read Json.Literal
  | .string s => .ok (.ofString s)
  | .brokenString b => .ok b.literal
  | _ => .fail .notText

/-- A text. -/
def text : Read String
  | .string s => .ok s
  | .brokenString _ => .fail .notUnicode
  | _ => .fail .notText

/-- A text with at least one character. -/
def nonEmptyText : Read String := fun j =>
  (text j).andThen fun s => if s.isEmpty then .fail .tooShort else .ok s

/-- A text or nothing. -/
def optionalText : Read (Option String)
  | .null => .ok none
  | j => (text j).andThen fun s => .ok (some s)

/-- One of the listed values, by its exact name. -/
def listed {α : Type} (ofName? : String → Option α) : Read α
  | .string s =>
    match ofName? s with
    | some v => .ok v
    | none => .fail .notListed
  | _ => .fail .notListed

/-! ## Whole numbers -/

/-- The characters without a plus sign in front. -/
def withoutPlus : List Char → Option (List Char)
  | '+' :: '-' :: _ => none
  | '+' :: rest => some rest
  | cs => some cs

/-- The characters before a point after which only zeros stand, at least one; a number without a
    point as it is. -/
def withoutZeroFraction (cs : List Char) : Option (List Char) :=
  match cs.dropWhile (· ≠ '.') with
  | [] => some cs
  | _ :: zeros =>
    if !zeros.isEmpty && zeros.all (· = '0') then some (cs.takeWhile (· ≠ '.')) else none

/-- Whether what is left of a number may begin so, zeros in front being gone. -/
def isLead (c : Char) : Bool := ('1' ≤ c && c ≤ '9') || c = '-'

/-- The characters without zeros in front, and without low lines among them. Of zeros alone one is
    left. -/
def withoutZeros : List Char → Option (List Char)
  | '0' :: rest =>
    match rest.dropWhile fun c => c = '0' || c = '_' with
    | [] => if rest.getLast? = some '_' then none else some ['0']
    | c :: more => if isLead c then some (c :: more) else none
  | c :: rest => if isLead c then some (c :: rest) else none
  | [] => none

/-- A whole number as it is usually written, where it may be written in another way. -/
def tidied (cs : List Char) : Option (List Char) := do
  let cs ← withoutPlus (trimmed isPadding cs)
  let cs ← withoutZeroFraction cs
  let cs ← match cs with
    | '-' :: rest => (withoutZeros rest).map ('-' :: ·)
    | cs => withoutZeros cs
  withoutLines cs

/-- A whole number as it is usually written: a sign if it is below zero, and digits with no zero in
    front. Of too many digits nothing else is looked at. -/
def usualInteger (cs : List Char) : Except Cause Int :=
  let negative := cs.head? = some '-'
  match Json.readWhole (if negative then cs.tail else cs) with
  | none => .error .textNotInteger
  | some (ds, rest) =>
    if digitLimit < ds.length + (if negative then 1 else 0) then .error .tooLarge
    else if rest.isEmpty then
      let n : Int := Json.digitsValue ds
      .ok (if negative then -n else n)
    else .error .textNotInteger

/-- The whole number that a text writes. -/
def integerOfText (s : String) : Except Cause Int :=
  match usualInteger s.toList with
  | .error .textNotInteger =>
    match tidied s.toList with
    | some cs => (usualInteger cs).mapError fun _ => .textNotInteger
    | none => .error .textNotInteger
  | outcome => outcome

/-- The least number that has too many binary digits for a machine's word. -/
def wordBound : Int := 9223372036854775808

/-- The whole number that a double is. -/
def integerOfDouble : Double → Except Cause Int
  | .finite q =>
    if q.den ≠ 1 then .error .fractionNotInteger
    else if -wordBound < q.num ∧ q.num < wordBound then .ok q.num
    else .error .tooLarge
  | .infinite _ | .notANumber => .error .notFinite

/-- A whole number. -/
def integer : Read Int
  | .integer n => .ok n
  | .bool b => .ok (if b then 1 else 0)
  | .real d => .ofExcept (integerOfDouble d)
  | .string s => .ofExcept (integerOfText s)
  | .brokenString _ => .fail .notUnicode
  | _ => .fail .notInteger

/-- A whole number above a limit. -/
def integerAbove (limit : Int) : Read Int := fun j =>
  (integer j).andThen fun n => if limit < n then .ok n else .fail .notAbove

/-- A whole number not below a limit. -/
def integerAtLeast (limit : Int) : Read Int := fun j =>
  (integer j).andThen fun n => if limit ≤ n then .ok n else .fail .notAtLeast

/-! ## Numbers -/

/-- A word in lower case, ASCII letters only. -/
def plainLower (cs : List Char) : String := String.ofList (cs.map Char.toLower)

/-- The sign of a number and what follows. -/
def signed : List Char → Bool × List Char
  | '-' :: rest => (true, rest)
  | '+' :: rest => (false, rest)
  | cs => (false, cs)

/-- The digits before and after a point, and the exponent after them. -/
def decimalOfText (negative : Bool) (cs : List Char) : Option Double :=
  let isMark := fun (c : Char) => c = 'e' ∨ c = 'E'
  let body := cs.takeWhile (fun c => !isMark c)
  let tail := cs.dropWhile (fun c => !isMark c)
  let whole := body.takeWhile (· ≠ '.')
  let frac := (body.dropWhile (· ≠ '.')).tail
  if (whole.isEmpty && frac.isEmpty) || !(whole ++ frac).all Json.isDigit then none
  else
    let exponent : Option Int :=
      match tail with
      | [] => some 0
      | _ :: rest =>
        let (minus, ds) := signed rest
        if ds.isEmpty || !ds.all Json.isDigit then none
        else
          let n : Int := Json.digitsValue ds
          some (if minus then -n else n)
    exponent.map fun e => .ofDecimal negative (Json.digitsValue (whole ++ frac)) (e - frac.length)

/-- A number as it is usually written. -/
def usualNumber (cs : List Char) : Option Double :=
  let (negative, rest) := signed cs
  let name := plainLower rest
  if name = "inf" ∨ name = "infinity" then some (.infinite negative)
  else if name = "nan" then some .notANumber
  else decimalOfText negative rest

/-- The number that a text writes: with padding around it, or with low lines in it. -/
def numberOfText (s : String) : Option Double :=
  match usualNumber (trimmed isPadding s.toList) with
  | some d => some d
  | none => (withoutLines s.toList).bind usualNumber

/-- A number. -/
def number : Read Double
  | .integer n =>
    match Double.ofRat n with
    | .finite q => .ok (.finite q)
    | _ => .fail .notNumber
  | .bool b => .ok (.finite (if b then 1 else 0))
  | .real d => .ok d
  | .string s =>
    match numberOfText s with
    | some d => .ok d
    | none => .fail .textNotNumber
  | .brokenString _ => .fail .notUnicode
  | _ => .fail .notNumber

/-- A number above zero and not above one. -/
def share : Read Rat := fun j =>
  (number j).andThen fun d =>
    if !d.atMost 1 then .fail .notAtMost
    else
      match d with
      | .finite q => if 0 < q then .ok q else .fail .notAbove
      | _ => .fail .notAbove

/-! ## Truth values -/

/-- Words for true. -/
def trueWords : List String := ["1", "on", "t", "true", "y", "yes"]

/-- Words for false. -/
def falseWords : List String := ["0", "off", "f", "false", "n", "no"]

/-- The truth value that a whole number stands for. -/
def truthOfInteger (n : Int) : Checked Bool :=
  if n = 0 then .ok false else if n = 1 then .ok true else .fail .valueNotTruth

/-- A truth value. -/
def truth : Read Bool
  | .bool b => .ok b
  | .integer n => if -wordBound ≤ n ∧ n < wordBound then truthOfInteger n else .fail .notTruth
  | .real d =>
    match integerOfDouble d with
    | .ok n => truthOfInteger n
    | .error _ => .fail .notTruth
  | .string s =>
    let w := plainLower s.toList
    if trueWords.contains w then .ok true
    else if falseWords.contains w then .ok false
    else .fail .valueNotTruth
  | .brokenString _ => .fail .notUnicode
  | _ => .fail .notTruth

/-! ## Lists, tables, records -/

/-- A list of values. -/
def list {α : Type} (each : Read α) : Read (List α)
  | .array items => Checked.itemsFrom each 0 items
  | _ => .fail .notList

/-- The members of an object in the order of their first mention, each with its last value. -/
def lastMembers (members : List (String × Json)) : List (String × Json) :=
  (members.map (·.1)).eraseDups.filterMap fun k =>
    (members.reverse.lookup k).map (k, ·)

/-- Reads the values of a table one after another. -/
def entries {α : Type} (each : Read α) : List (String × Json) → Checked (List (String × α))
  | [] => .ok []
  | (k, v) :: rest =>
    (Checked.ok fun v rest => (k, v) :: rest).apply ((each v).under (.member k))
      |>.apply (entries each rest)

/-- Values by name. -/
def table {α : Type} (each : Read α) : Read (List (String × α))
  | .object members => entries each (lastMembers members)
  | _ => .fail .notTable

/-- A record; members that it does not know are passed over. -/
def record {α : Type} (fields : Json → Checked α) : Read α
  | .object members => fields (.object members)
  | _ => .fail .notRecord

/-- A field that must be there. -/
def required {α : Type} (name : String) (read : Read α) (j : Json) : Checked α :=
  match j.member? name with
  | some v => (read v).under (.member name)
  | none => .bad [⟨[.member name], .missing⟩]

/-- A field with a value for its absence. -/
def withDefault {α : Type} (name : String) (read : Read α) (value : α) (j : Json) : Checked α :=
  match j.member? name with
  | some v => (read v).under (.member name)
  | none => .ok value

end PatchReview.Record
