import PatchReview.Comment.Basic
import PatchReview.Record.Reader

/-!
# Reading comments

Comments arrive as a text in JSON: a list of them, or an object that has the list under `comments`.
What is not a comment is passed over, and what is neither has none. The remarks of a comment are read as
strings: one that is no text is no reason to pass the comment over.
-/

namespace PatchReview

namespace Record

/-- A comment, with remarks of some form. -/
def comment {Remark : Type} (remark : Read Remark) : Read (CommentOf Remark) := record fun j =>
  CommentOf.mk <$> required "file" nonEmptyText j <*> required "line" (integerAbove 0) j
    <*> required "severity" (listed Severity.ofName?) j <*> required "smell" remark j
    <*> required "rationale" remark j <*> required "suggestion" remark j

end Record

namespace Comment

/-- The comments among some values. -/
def ofValues (values : List Json) : List (CommentOf Json.Literal) :=
  values.filterMap fun v => (Record.comment Record.string v).value?

/-- The values that an answer offers as comments. -/
def offered : Json → List Json
  | .array values => values
  | j =>
    match j.member? "comments" with
    | some (.array values) => values
    | _ => []

/-- The comments in a text. -/
def ofText (text : String) : List (CommentOf Json.Literal) :=
  match Json.read text with
  | some j => ofValues (offered j)
  | none => []

end Comment

/-- The comment with texts as remarks, if they are texts. -/
def CommentOf.worded? (c : CommentOf Json.Literal) : Option Comment := do
  return ⟨c.file, c.line, c.severity, ← c.smell.text?, ← c.rationale.text?, ← c.suggestion.text?⟩

end PatchReview
