import PatchReview.Tree.Resolution

/-!
# Where imports lead

An import that starts with a point or a slash names a file, seen from the file that imports it. It may
leave out the suffix, or name a directory with an index file; the first candidate at which a file
stands is meant. An import that leads out of the root by its text is no candidate at all.

Whether a file stands at a location is looked up once; a resolver remembers what it found, so what it
answers of a location does not change while it is in use.
-/

namespace PatchReview

/-- Whether a file stood at a location when it was first looked for. -/
abbrev Probes := List (Location × Bool)

namespace Resolver

/-- What may be left out at the end of an import. -/
def suffixes : List String := ["", ".ts", ".tsx", ".js", ".jsx"]

/-- The files that a directory may stand for. -/
def indexNames : List String := ["index.ts", "index.tsx", "index.js", "index.jsx"]

/-- A location with more text at its end. -/
def withSuffix (l : Location) (suffix : String) : Location :=
  l.dropLast ++ [l.getLast?.getD "" ++ suffix]

/-- The locations that an import may mean, first those that are preferred. -/
def candidates (base : Location) : List Location :=
  suffixes.map (withSuffix base) ++ indexNames.map fun name => base ++ [name]

/-- The location that an import names by its text, if it names a file of the repository. -/
def base? (root : Location) (importer : Path) (specifier : String) : Option Location :=
  match specifier.toList with
  | '.' :: _ | '/' :: _ =>
    match (importer.parent.join (Path.ofText specifier)).location? with
    | some l => if root.isPrefixOf l then some l else none
    | none => none
  | _ => none

/-- Whether a file stands at a location, as it was first found. -/
def probe (t : Tree) (probes : Probes) (l : Location) : Bool × Probes :=
  match probes.lookup l with
  | some found => (found, probes)
  | none => let found := t.opensFile l; (found, (l, found) :: probes)

/-- The first candidate at which a file stands. -/
def firstFile (t : Tree) (probes : Probes) : List Location → Option Location × Probes
  | [] => (none, probes)
  | l :: rest =>
    match probe t probes l with
    | (true, probes) => (some l, probes)
    | (false, probes) => firstFile t probes rest

/-- The file to which an import leads. -/
def resolve (t : Tree) (root : Location) (probes : Probes) (importer : Path) (specifier : String) :
    Option Location × Probes :=
  match base? root importer specifier with
  | some base => firstFile t probes (candidates base)
  | none => (none, probes)

/-- A location that does not lie below a root. -/
structure Outside where
  location : Location
  root     : Location
deriving DecidableEq, Repr

/-- What is wrong with the location, in words. -/
def Outside.message (e : Outside) : String :=
  Text.quoted (Path.ofLocation e.location).text ++ " is not in the subpath of " ++
    Text.quoted (Path.ofLocation e.root).text ++
    " OR one path is relative and the other is absolute."

/-- A location as seen from a root. -/
def relative (root l : Location) : Except Outside Location :=
  if root.isPrefixOf l then .ok (l.drop root.length) else .error ⟨l, root⟩

end Resolver

end PatchReview
