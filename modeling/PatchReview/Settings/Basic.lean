import PatchReview.Graph.Survey
import PatchReview.Number.Rounding
import PatchReview.Record.Reader
import PatchReview.Settings.Dotenv
import PatchReview.Text.Case

/-!
# Settings

Every setting has a usual value. It may be set by a caller, by a variable of the environment, or by a
file of variables; the first of these that sets it wins, and only the value that wins is checked.
Names are taken without regard to case, and an empty variable sets nothing.
-/

namespace PatchReview

open Record (Checked withDefault integerAbove integerAtLeast truth share)

/-- The settings of a review. -/
structure Settings where
  chunkBudget     : Int
  relevanceBudget : Int
  hotspotLimit    : Int
  workers         : Int
  minSuggestion   : Int
  duplicateWindow : Int
  fuzzy           : Bool
  relocate        : Bool
  minConfidence   : Rat
  maxMatches      : Int
deriving DecidableEq, Repr

namespace Settings

/-- The usual values. -/
def usual : Settings where
  chunkBudget := 1200
  relevanceBudget := Graph.usualBudget
  hotspotLimit := Graph.usualHotspots
  workers := SurveyOptions.usualWorkers
  minSuggestion := 12
  duplicateWindow := 1
  fuzzy := false
  relocate := false
  minConfidence := Number.nearestBinary (3 / 5)
  maxMatches := 5

/-- The names of the settings. -/
def names : List String :=
  ["chunk_token_budget", "relevance_char_budget", "hotspot_limit", "max_workers",
   "min_suggestion_chars", "duplicate_line_window", "fuzzy_enabled", "fuzzy_enhance",
   "fuzzy_min_confidence", "fuzzy_max_context_matches"]

/-- Reads the settings from a record. -/
def ofRecord (j : Json) : Checked Settings :=
  Settings.mk <$> withDefault "chunk_token_budget" (integerAbove 0) usual.chunkBudget j
    <*> withDefault "relevance_char_budget" (integerAbove 0) usual.relevanceBudget j
    <*> withDefault "hotspot_limit" (integerAbove 0) usual.hotspotLimit j
    <*> withDefault "max_workers" (integerAbove 0) usual.workers j
    <*> withDefault "min_suggestion_chars" (integerAtLeast 0) usual.minSuggestion j
    <*> withDefault "duplicate_line_window" (integerAtLeast 0) usual.duplicateWindow j
    <*> withDefault "fuzzy_enabled" truth usual.fuzzy j
    <*> withDefault "fuzzy_enhance" truth usual.relocate j
    <*> withDefault "fuzzy_min_confidence" share usual.minConfidence j
    <*> withDefault "fuzzy_max_context_matches" (integerAbove 0) usual.maxMatches j

/-- What comes before the name of a setting in the name of its variable. -/
def variableStart : String := "review_context_"

/-- Where settings may be set: the value given to a name, if any. -/
abbrev Source := String → Option Json

/-- What a caller sets. A name in lower case goes before other spellings of it. -/
def given (members : List (String × Json)) : Source := fun name =>
  match members.reverse.lookup name with
  | some v => some v
  | none => (members.reverse.find? fun m => Text.lower m.1.toList == name.toList).map (·.2)

/-- What variables set. -/
def setBy (bindings : List Dotenv.Binding) : Source := fun name =>
  let named := bindings.filter fun b =>
    b.2 != some "" && Text.lower b.1.toList == (variableStart ++ name).toList
  (named.getLast?.bind (·.2)).map Json.string

/-- What a file of variables sets: the last binding of a name counts, in the place of the first. -/
def file (bindings : List Dotenv.Binding) : Source :=
  setBy ((bindings.map (·.1)).eraseDups.filterMap fun k =>
    (bindings.reverse.lookup k).map (k, ·))

/-- The settings by the first of several sources that sets each. -/
def ofSources (sources : List Source) : Checked Settings :=
  ofRecord (.object (names.filterMap fun name =>
    (sources.findSome? (· name)).map (name, ·)))

/-- The settings from what a caller sets, the environment, and the text of a file of variables. -/
def read (members : List (String × Json)) (environment : List (String × String))
    (fileText : Option String) : Checked Settings :=
  ofSources
    [given members,
     setBy (environment.map fun (name, value) => (name, some value)),
     file (Dotenv.read environment (fileText.getD ""))]

/-- How a survey is taken under these settings. -/
def survey (s : Settings) : SurveyOptions where
  relevanceBudget := s.relevanceBudget
  hotspotLimit := s.hotspotLimit
  workers := s.workers
  leftOut := leftOutNames

end Settings

end PatchReview
