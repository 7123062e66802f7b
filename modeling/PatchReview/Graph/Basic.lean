import PatchReview.Limit

/-!
# Import graphs

A graph has files for nodes and an edge for each import that leads to a file. Edges may be parallel or
lead back to their own file, and their ends need not be listed as nodes. The degree of a file counts
the ends of edges at it, so an edge to itself counts twice.
-/

namespace PatchReview

/-- An import of one file by another, with the text that it was written with. -/
structure Edge where
  source    : String
  target    : String
  specifier : String
deriving DecidableEq, Repr

/-- Files and the imports between them. -/
structure Graph where
  nodes : List String
  edges : List Edge
deriving DecidableEq, Repr

/-- A file with its degree. -/
structure Hotspot where
  file   : String
  degree : Nat
deriving DecidableEq, Repr

namespace Graph

/-- Every file of a graph once: its nodes, then the further ends of its edges. -/
def files (g : Graph) : List String :=
  (g.nodes ++ g.edges.flatMap fun e => [e.source, e.target]).eraseDups

/-- The number of ends of edges at a file. -/
def degree (g : Graph) (file : String) : Nat :=
  g.edges.countP (·.source = file) + g.edges.countP (·.target = file)

/-- Every file with its degree. -/
def degrees (g : Graph) : List Hotspot := g.files.map fun file => ⟨file, g.degree file⟩

/-- The files that a file imports, in the order of its edges. -/
def imported (g : Graph) (file : String) : List String :=
  (g.edges.filter fun e => e.source = file ∧ e.target ≠ file).map (·.target)

/-- The files that import a file, in the order of their edges. -/
def importers (g : Graph) (file : String) : List String :=
  (g.edges.filter fun e => e.target = file ∧ e.source ≠ file).map (·.source)

/-- The other files that an edge joins to a file, each once: those that it imports, then those that
    only import it. -/
def neighbors (g : Graph) (file : String) : List String :=
  (g.imported file ++ g.importers file).eraseDups

/-- The order of rank: by degree from the highest, then by name. -/
def ranksBefore (a b : Hotspot) : Bool :=
  decide (b.degree < a.degree) || (a.degree == b.degree && decide (a.file ≤ b.file))

/-- The files of the highest rank. -/
def hotspots (g : Graph) (limit : Int) : List Hotspot :=
  takeBounded limit (g.degrees.mergeSort ranksBefore)

end Graph

end PatchReview
