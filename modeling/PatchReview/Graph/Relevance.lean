import PatchReview.Definition
import PatchReview.Graph.Basic

/-!
# Relevant definitions

What a reader of a file needs at hand: its own definitions, then what its neighbours export, as far as
a budget of characters reaches. A bundle ends before the first definition that would exceed the
budget, even if a later one would still fit.
-/

namespace PatchReview

/-- The definitions of files. -/
abbrev DefinitionTable := List (String × List Definition)

namespace Definition

/-- The characters that a definition takes up, with what stands around it. -/
def cost (d : Definition) : Nat := d.text.length + d.name.length + 50

/-- The definitions before the first that would exceed the budget when `used` of it is spent. -/
def limitedFrom (budget : Int) (used : Nat) : List Definition → List Definition
  | [] => []
  | d :: rest =>
    if ((used + d.cost : Nat) : Int) > budget then []
    else d :: limitedFrom budget (used + d.cost) rest

/-- The definitions before the first that would exceed the budget. -/
def limited (budget : Int) (ds : List Definition) : List Definition := limitedFrom budget 0 ds

/-- What a prompt shows of a definition; the text only where it is wanted, and cut. -/
structure Summary where
  name  : String
  kind  : DefinitionKind
  place : Place
  text  : Option String
deriving DecidableEq, Repr

/-- What a prompt shows of a definition. -/
def summary (withText : Bool) (d : Definition) : Summary where
  name := d.name
  kind := d.kind
  place := d.place
  text := if withText then some (String.ofList (d.text.toList.take 160)) else none

/-- What a prompt shows of definitions, up to a number of them. -/
def summaries (count : Int) (withText : Bool) (ds : List Definition) : List Summary :=
  (takeBounded count ds).map (summary withText)

/-- How many definitions a prompt shows where nothing else is said. -/
def usualCount : Int := 20

end Definition

namespace Graph

/-- The definitions of a file. -/
def definitionsOf (table : DefinitionTable) (file : String) : List Definition :=
  (table.lookup file).getD []

/-- The definitions of a file, then those that its neighbours export. -/
def candidates (g : Graph) (table : DefinitionTable) (file : String) : List Definition :=
  definitionsOf table file ++
    (g.neighbors file).flatMap fun n => (definitionsOf table n).filter (·.exported)

/-- What a reader of a file needs, within the budget. -/
def bundle (g : Graph) (table : DefinitionTable) (budget : Int) (file : String) : List Definition :=
  Definition.limited budget (g.candidates table file)

/-- What readers of files need, each file once. -/
def relevant (g : Graph) (table : DefinitionTable) (budget : Int) (files : List String) :
    Except NotPositive DefinitionTable := do
  requirePositive "char_budget" budget
  return files.eraseDups.map fun file => (file, g.bundle table budget file)

/-- The budget of a bundle where nothing else is said. -/
def usualBudget : Int := 8000

/-- The number of hotspots where nothing else is said. -/
def usualHotspots : Int := 10

end Graph

end PatchReview
