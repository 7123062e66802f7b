import PatchReview.Script.Dialect
import PatchReview.Tree.Basic

/-!
# Source files of a tree

The source files below a directory are the files with a listed suffix, unless a name on the way to
them (their own included) is hidden or left out. They are found by going through the directory in the
order of the names and into each directory in its turn, so a directory's files stand together. Links
are not followed.
-/

namespace PatchReview

/-- Names that are left out wherever they stand. -/
def leftOutNames : List String :=
  ["node_modules", "dist", "build", "out", ".git", "coverage", "__snapshots__", "vendor"]

/-- A name that is passed over: hidden, or left out. -/
def isPassedOver (leftOut : List String) (name : String) : Bool :=
  name.toList.head? = some '.' || leftOut.contains name

namespace Tree

/-- How many names lead to what stands farthest from the top. -/
def depth (t : Tree) : Nat := (t.entries.map (·.1.length)).foldr max 0

/-- The name of an entry and what it is, if it stands in the directory. -/
def standingIn (dir : Location) : Location × Entry → Option (String × Entry)
  | (l, e) => if l.dropLast = dir then l.getLast?.map (·, e) else none

/-- What stands in a directory, in the order of the names. -/
def listing (t : Tree) (dir : Location) : List (String × Entry) :=
  (t.entries.filterMap (standingIn dir)).mergeSort fun a b => decide (a.1 ≤ b.1)

/-- The source files that an entry of a directory gives, each by the names from its own name on. What is
    found below a directory of that name is given. -/
def sourcesOf (suffixes leftOut : List String) (below : String → List Location) (x : String × Entry) :
    List Location :=
  if isPassedOver leftOut x.1 then []
  else
    match x.2 with
    | .link _ => []
    | .directory => (below x.1).map (x.1 :: ·)
    | .file _ => if suffixes.contains (Path.suffixOfName x.1) then [[x.1]] else []

/-- The source files below a directory that no more than so many names lead to, each by these names. -/
def sourcesWithin (t : Tree) (suffixes leftOut : List String) : Nat → Location → List Location
  | 0, _ => []
  | n + 1, dir =>
    (t.listing dir).flatMap <|
      sourcesOf suffixes leftOut fun name => sourcesWithin t suffixes leftOut n (dir ++ [name])

/-- The source files below a directory, each by the names that lead to it from there. -/
def sourceFiles (t : Tree) (start : Location) (suffixes leftOut : List String) : List Location :=
  t.sourcesWithin suffixes leftOut t.depth start

end Tree

end PatchReview
