import PatchReview.Graph.Relevance
import PatchReview.Graph.Resolver
import PatchReview.Outline
import PatchReview.Tree.Discovery

/-!
# Surveys

A survey of a repository has the outline of every source file, the graph of the imports between them,
what readers of the changed files need, and the files that most imports meet at. A file that is
ill-formed has an empty outline and is listed with what is wrong.

Files are read one by one, so what is said of one file does not depend on the others; only the
resolution of imports looks at the whole tree.
-/

namespace PatchReview

/-- How a survey is taken. -/
structure SurveyOptions where
  relevanceBudget : Int
  hotspotLimit    : Int
  workers         : Int
  leftOut         : List String
deriving DecidableEq, Repr

namespace SurveyOptions

/-- The most files that are read at a time where nothing else is said. -/
def usualWorkers : Int := 12

/-- Accepts options only if every limit is positive. -/
def checked (o : SurveyOptions) : Except NotPositive SurveyOptions := do
  requirePositive "relevance_char_budget" o.relevanceBudget
  requirePositive "hotspot_limit" o.hotspotLimit
  requirePositive "max_workers" o.workers
  return o

/-- How many files are read at a time on a machine with some processors. -/
def workerCount (processors : Int) (o : SurveyOptions) : Int := min (max 2 processors) o.workers

end SurveyOptions

/-- A source file with its outline, or with none where it is ill-formed. -/
structure SurveyedFile where
  names   : Location
  outline : Option Outline
deriving DecidableEq, Repr

namespace SurveyedFile

/-- The path of a file, as seen from the root. -/
def path (f : SurveyedFile) : String := "/".intercalate f.names

/-- The outline of a file, empty where it is ill-formed. -/
def readable (f : SurveyedFile) : Outline := f.outline.getD .empty

/-- What is wrong with a file, in words. -/
def problem? (f : SurveyedFile) : Option String :=
  match f.outline with
  | some _ => none
  | none => some "Failed to parse: syntax error"

/-- The outline of bytes that stand under some names. -/
def ofBytes (names : Location) (content : ByteArray) : SurveyedFile where
  names := names
  outline := do
    let name := names.getLast?.getD ""
    let dialect ← Script.Dialect.ofSuffix? (Path.suffixOfName name)
    Outline.ofSource dialect ("/".intercalate names) content

/-- Reads the file at some names below a root. -/
def read (t : Tree) (root names : Location) : SurveyedFile :=
  match t.at? (root ++ names) with
  | some (.file content) => ofBytes names content
  | _ => ⟨names, none⟩

end SurveyedFile

/-- What is known of a repository. -/
structure Survey where
  files    : List SurveyedFile
  graph    : Graph
  relevant : DefinitionTable
  hotspots : List Hotspot
deriving DecidableEq, Repr

/-- Why a survey could not be taken. -/
inductive SurveyError where
  | noDirectory (root : Location)
  | outside (e : Resolver.Outside)
  | notPositive (e : NotPositive)
deriving DecidableEq, Repr

/-- What went wrong, in words. -/
def SurveyError.message : SurveyError → String
  | .noDirectory root => "Repository path not found: " ++ (Path.ofLocation root).text
  | .outside e => e.message
  | .notPositive e => e.message

namespace Survey

/-- The definitions of each file. -/
def definitions (s : Survey) : DefinitionTable :=
  s.files.map fun f => (f.path, f.readable.definitions)

/-- The names that each file defines. -/
def names (s : Survey) : List (String × List String) :=
  s.files.map fun f => (f.path, f.readable.definitions.map (·.name))

/-- The files that are ill-formed, with what is wrong. -/
def problems (s : Survey) : List (String × String) :=
  s.files.filterMap fun f => f.problem?.map (f.path, ·)

/-- The imports of all files, each with the file that it stands in. -/
def imports (files : List SurveyedFile) : List (SurveyedFile × String) :=
  files.flatMap fun f => f.readable.imports.map fun i => (f, i.source)

/-- The edges of imports, one after another, given what was found before. -/
def edgesFrom (t : Tree) (root : Location) (probes : Probes) :
    List (SurveyedFile × String) → Except Resolver.Outside (List Edge)
  | [] => .ok []
  | (f, specifier) :: rest =>
    match Resolver.resolve t root probes (.ofLocation (root ++ f.names)) specifier with
    | (none, probes) => edgesFrom t root probes rest
    | (some target, probes) => do
      let names ← Resolver.relative root target
      let edges ← edgesFrom t root probes rest
      return ⟨f.path, "/".intercalate names, specifier⟩ :: edges

/-- The graph of files: the files themselves, then what else is imported. -/
def graphOf (files : List SurveyedFile) (edges : List Edge) : Graph :=
  ⟨(files.map (·.path) ++ edges.map (·.target)).eraseDups, edges⟩

/-- Surveys the source files below a root. -/
def ofTree (o : SurveyOptions) (t : Tree) (root : Location) (changed : List String) :
    Except SurveyError Survey := do
  unless t.isDirectory root do throw (.noDirectory root)
  let sources := t.sourceFiles root (Script.Dialect.suffixes.map (·.1)) o.leftOut
  let files := sources.map (SurveyedFile.read t root)
  let edges ← (edgesFrom t root [] (imports files)).mapError .outside
  let graph := graphOf files edges
  let table := files.map fun f => (f.path, f.readable.definitions)
  let relevant ←
    (graph.relevant table o.relevanceBudget (graph.nodes.filter (changed.contains ·))).mapError
      .notPositive
  return ⟨files, graph, relevant, graph.hotspots o.hotspotLimit⟩

end Survey

end PatchReview
