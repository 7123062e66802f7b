import PatchReview.Json.Literal
import PatchReview.Number.Double

/-!
# JSON values

The values of the data format in which comments arrive and answers leave. Whole numbers are kept
apart from numbers with a fraction or an exponent, and texts from strings that are none, as the reading of
fields tells them apart. The members of an object stand in the order in which they were written.
-/

namespace PatchReview

/-- A JSON value. -/
inductive Json where
  | null
  | bool (value : Bool)
  | integer (value : Int)
  | real (value : Number.Double)
  | string (text : String)
  | brokenString (text : Json.Broken)
  | array (items : List Json)
  | object (members : List (String × Json))

namespace Json

/-- The member of that name; of several, the last. -/
def member? (key : String) : Json → Option Json
  | object members => members.reverse.lookup key
  | _ => none

/-- A string as a value: a text where it is one. -/
def ofLiteral (s : Literal) : Json :=
  match h : s.text? with
  | some t => string t
  | none => brokenString ⟨s, h⟩

/-- The text of a string. -/
def text? : Json → Option String
  | string s => some s
  | _ => none

/-- The value of a whole number. -/
def int? : Json → Option Int
  | integer n => some n
  | _ => none

/-- The items of an array. -/
def items? : Json → Option (List Json)
  | array items => some items
  | _ => none

end Json

end PatchReview
