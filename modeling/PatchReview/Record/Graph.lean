import PatchReview.Graph.Relevance
import PatchReview.Record.Reader

/-!
# Definitions and graphs as records
-/

namespace PatchReview.Record

/-- A place in a file. -/
def place : Read Place := record fun j =>
  Place.mk <$> required "line" integer j <*> required "column" integer j

/-- A definition. -/
def definition : Read Definition := record fun j =>
  Definition.mk <$> required "file_path" text j <*> required "name" text j
    <*> required "kind" (listed DefinitionKind.ofName?) j
    <*> withDefault "exported" truth false j <*> withDefault "text" text "" j
    <*> withDefault "pos" place ⟨1, 1⟩ j

/-- An edge of a graph. -/
def edge : Read Edge := record fun j =>
  Edge.mk <$> required "source" text j <*> required "target" text j
    <*> required "module_specifier" text j

/-- A graph. -/
def graph : Read Graph := record fun j =>
  Graph.mk <$> withDefault "nodes" (list text) [] j <*> withDefault "edges" (list edge) [] j

end PatchReview.Record
