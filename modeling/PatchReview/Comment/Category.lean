import PatchReview.Comment.Placement

/-!
# Categories of comments

Comments fall into categories such as missing error handling. A category is told by how like its name
is to what a comment says and suggests; its examples are things that a suggestion may not have thought
of. The key terms of a comment tell which lines of a file it is about.
-/

namespace PatchReview

open PatchReview.Text
open PatchReview.Number (Rounding)
open Record (Checked Read record required withDefault listed text)

/-- A category of comments. -/
structure Category where
  name        : String
  description : String
  severity    : Severity
  examples    : List String
deriving DecidableEq, Repr

namespace Category

/-- A category as a record. -/
def ofRecord : Read Category := record fun j =>
  Category.mk <$> required "pattern" text j <*> required "description" text j
    <*> required "severity" (listed Severity.ofName?) j
    <*> withDefault "examples" (Record.list text) [] j

/-- The usual categories. -/
def usual : List Category := [
  ⟨"error handling", "Missing or inadequate error handling", .major,
    ["try-catch blocks", "error logging", "graceful degradation"]⟩,
  ⟨"null check", "Missing null/undefined checks", .major,
    ["null guard", "optional chaining", "default values"]⟩,
  ⟨"type safety", "Type safety issues or missing type annotations", .minor,
    ["any type", "type assertions", "interface compliance"]⟩,
  ⟨"performance", "Performance optimization opportunities", .minor,
    ["loop optimization", "memory usage", "algorithm efficiency"]⟩,
  ⟨"security", "Security vulnerabilities or best practices", .critical,
    ["input validation", "authentication", "authorization"]⟩,
  ⟨"readability", "Code readability and maintainability", .nit,
    ["variable naming", "function length", "code organization"]⟩,
  ⟨"testing", "Missing or inadequate tests", .minor,
    ["unit tests", "integration tests", "test coverage"]⟩,
  ⟨"documentation", "Missing or unclear documentation", .nit,
    ["JSDoc comments", "README updates", "API documentation"]⟩]

end Category

/-- Words that say nothing of what a text is about. -/
def commonWords : List String := [
  "the", "a", "an", "and", "or", "but", "in", "on", "at", "to", "for", "of",
  "with", "by", "is", "are", "was", "were", "be", "been", "have", "has", "had",
  "do", "does", "did", "will", "would", "could", "should", "may", "might",
  "can", "this", "that", "these", "those", "i", "you", "he", "she", "it",
  "we", "they", "me", "him", "her", "us", "them", "my", "your", "his", "its",
  "our", "their", "mine", "yours", "hers", "ours", "theirs"]

/-- A word that says something: longer than two characters, and none of the common ones. -/
def isKeyTerm (word : String) : Bool := 2 < word.length && !commonWords.contains word

/-- The first ten words of a text that say something, in lower case. -/
def keyTerms (text : String) : List String :=
  let cs := (lower text.toList).map fun c => if isWordChar c || isBlank c then c else ' '
  (((words cs).map String.ofList).filter isKeyTerm).take 10

/-- The score of two texts with their words sorted. -/
def sortedScore (r : Rounding) (a b : String) : Rat :=
  Similarity.tokenSortRatio r a.toList b.toList

/-- A line that a comment is about, and what tells. -/
structure TermMatch where
  line    : Nat
  content : String
  score   : Rat
  reason  : String
deriving DecidableEq, Repr

/-- Whether a line may be meant, and which line rather is. -/
structure LineCheck where
  valid       : Bool
  confidence  : Rat
  suggestions : List String
deriving DecidableEq, Repr

/-- Examples of a category that a suggestion does not mention. -/
structure CategoryAdvice where
  category   : Category
  confidence : Rat
  examples   : List String
deriving DecidableEq, Repr

namespace Comment

variable (r : Rounding)

/-- How well a category fits: for the most part by what the comment says, for the rest by what it
    suggests. -/
def categoryScore (c : Comment) (k : Category) : Rat :=
  r.add (r.mul (sortedScore r c.rationale k.name) (Number.nearestBinary (7 / 10)))
    (r.mul (sortedScore r c.suggestion k.name) (Number.nearestBinary (3 / 10)))

/-- The least score of a category that fits. -/
def leastCategoryScore : Rat := Number.nearestBinary (3 / 5)

/-- The category that fits best, the first of those that fit equally, with its score. -/
def bestCategory (ks : List Category) (c : Comment) : Option (Category × Rat) :=
  ks.foldl (fun best k =>
    let score := c.categoryScore r k
    if leastCategoryScore ≤ score && decide ((best.map (·.2)).getD 0 < score) then some (k, score)
    else best) none

/-- The key terms of a comment. -/
def terms (c : Comment) : List String := keyTerms (c.rationale ++ " " ++ c.suggestion)

/-- The best score of a line, and what gave it; a later term has to score higher than an earlier one,
    and the rationale higher than all terms. -/
def lineScore (c : Comment) (content : String) : Rat × String :=
  let byTerm := c.terms.foldl (fun (best : Rat × String) term =>
    let score := sortedScore r term content
    if best.1 < score then (score, "Matches term: \x22" ++ term ++ "\x22") else best) (0, "")
  let score := sortedScore r c.rationale content
  if byTerm.1 < score then (score, "Matches comment rationale") else byTerm

/-- The lines that a comment is about, the best first. -/
def linesAbout (least : Rat) (lines : List String) (c : Comment) : List TermMatch :=
  let all := lines.mapIdx fun n content =>
    let (score, reason) := c.lineScore r content
    (⟨n + 1, content, score, reason⟩ : TermMatch)
  bestFirst (·.score) (all.filter (least ≤ ·.score))

/-- Examples that the suggestion does not mention, of categories that fit somewhat, the best first. -/
def advice (ks : List Category) (c : Comment) : List CategoryAdvice :=
  let found := ks.filterMap fun k =>
    let confidence := sortedScore r c.rationale k.name
    let missing := k.examples.filter fun e => sortedScore r c.suggestion e < 1 / 2
    if confidence < Number.nearestBinary (3 / 10) || missing.isEmpty then none
    else some (⟨k, confidence, missing⟩ : CategoryAdvice)
  bestFirst (·.confidence) found

/-- Whether a comment may be about a line: its score has to be at least one half. Otherwise the line
    that scores best is suggested, if one scores enough. -/
def checkLine (lines : List String) (line : Int) (c : Comment) : LineCheck :=
  let found := c.linesAbout r (Number.nearestBinary (2 / 5)) lines
  let score := Similarity.best ((found.filter fun m => (m.line : Int) = line).map (·.score))
  let valid := decide (1 / 2 ≤ score)
  let suggestions :=
    match valid, found with
    | false, m :: _ =>
      ["Consider line " ++ toString m.line ++ ": \x22" ++ stripped m.content ++ "\x22 (" ++
        toString (percent r m.score) ++ "% match)"]
    | _, _ => []
  ⟨valid, score, suggestions⟩

end Comment

end PatchReview
