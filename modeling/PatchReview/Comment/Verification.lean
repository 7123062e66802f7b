import PatchReview.Comment.Placement
import PatchReview.Regex.Reader
import PatchReview.Settings.Basic

/-!
# Verification of comments

Comments are looked at one after another, and each is kept or dropped with reasons. A comment has to
stand at a line of a file that can be read, suggest something of substance, mention something that its
file defines (where anything is known of it), and not repeat a comment that was kept before. Where
comments are placed by likeness, one that passes all this may still be like a kept one in meaning.

What was decided of a comment depends on the files and on those kept before it, and on nothing after
it. The files are read first (`Tree.shelf`); the verdict on them is a function of their lines.
-/

namespace PatchReview

open PatchReview.Number (Rounding nearestBinary)
open Record (Checked Read record withDefault integerAtLeast list table text truth)

/-- Why a comment is dropped. -/
inductive DropReason where
  | invalidLocation
  | weakSuggestion
  | noKnownSymbols
  | duplicate
  | fuzzyDuplicate
deriving DecidableEq, Repr

/-- The code of a reason in reports. -/
def DropReason.code : DropReason → String
  | .invalidLocation => "invalid-file-or-line"
  | .weakSuggestion => "suggestion-too-weak"
  | .noKnownSymbols => "no-known-symbols-referenced"
  | .duplicate => "duplicate-comment"
  | .fuzzyDuplicate => "fuzzy-duplicate"

/-- Suggestions that say nothing, as regular expressions. -/
def genericSuggestions : List String := ["consider refactoring", "improve readability", "add tests?"]

/-- What comments are verified against, and how. -/
structure VerifyOptions where
  definitions     : List (String × List String)
  minSuggestion   : Int
  generic         : List String
  duplicateWindow : Int
  placement       : Option PlacementOptions
  relocate        : Bool
  candidates      : List String
deriving DecidableEq, Repr

namespace VerifyOptions

/-- The options that a record sets. -/
def ofRecord : Read VerifyOptions := record fun j =>
  VerifyOptions.mk <$> withDefault "definitions_by_file" (table (list text)) [] j
    <*> withDefault "min_suggestion_chars" (integerAtLeast 0) Settings.usual.minSuggestion j
    <*> withDefault "generic_suggestion_patterns" (list text) genericSuggestions j
    <*> withDefault "duplicate_line_window" (integerAtLeast 0) Settings.usual.duplicateWindow j
    <*> withDefault "fuzzy" placement none j
    <*> withDefault "enhance" truth false j
    <*> withDefault "candidate_files" (list text) [] j
where
  /-- Options of placement, or none. -/
  placement : Read (Option PlacementOptions)
    | .null => .ok none
    | j => (PlacementOptions.ofRecord j).andThen fun o => .ok (some o)

/-- The options under some settings. -/
def ofSettings (s : Settings) (definitions : List (String × List String))
    (candidates : List String) : VerifyOptions where
  definitions := definitions
  minSuggestion := s.minSuggestion
  generic := genericSuggestions
  duplicateWindow := s.duplicateWindow
  placement := if s.fuzzy then some ⟨s.minConfidence, s.maxMatches, true⟩ else none
  relocate := s.relocate
  candidates := candidates

end VerifyOptions

/-- Options with their regular expressions read. -/
structure Verifier where
  options : VerifyOptions
  generic : List Regex
deriving DecidableEq, Repr

/-- A regular expression that cannot be read. -/
structure BadExpression where
  text  : String
  error : Regex.ReadError
deriving DecidableEq, Repr

/-- What is wrong with it, in words. -/
def BadExpression.message (e : BadExpression) : String := e.error.message e.text

/-- A comment that was dropped. -/
structure Dropped where
  comment : Comment
  reasons : List DropReason
deriving DecidableEq, Repr

/-- What was decided of all comments. -/
structure Verdict where
  kept      : List Comment
  dropped   : List Dropped
  moved     : List Moved
  misplaced : List Misplaced
deriving DecidableEq, Repr

/-- A character of a symbol's name. -/
def isSymbolChar (c : Char) : Bool := c.isAlphanum || c == '_'

/-- Whether a name stands in a text, neither preceded nor followed by a character of a name; `before`
    says whether such a character stands before the text. -/
def mentionsFrom (name : List Char) (before : Bool) : List Char → Bool
  | [] => name.isEmpty && !before
  | c :: rest =>
    let after := (c :: rest).drop name.length
    (!before && name.isPrefixOf (c :: rest) && !((after.head?.map isSymbolChar).getD false)) ||
      mentionsFrom name (isSymbolChar c) rest

/-- Whether a name stands in a text by itself. -/
def mentions (text name : String) : Bool := mentionsFrom name.toList false text.toList

namespace Verifier

/-- Reads the regular expressions of options. -/
def ofOptions (o : VerifyOptions) : Except BadExpression Verifier := do
  let generic ← o.generic.mapM fun text => (Regex.read text).mapError (BadExpression.mk text)
  return ⟨o, generic⟩

/-- The names that a file is known to define. -/
def knownNames (v : Verifier) (path : String) : List String :=
  ((v.options.definitions.filter fun d => Path.normalized d.1 == path).flatMap (·.2)).filter
    (!·.isEmpty)

variable (r : Rounding)

/-- Whether a comment stands at a line of a file that can be read. -/
def locationExists (shelf : Shelf) (c : Comment) : Bool :=
  match shelf.lines? c.path with
  | some lines => 1 ≤ c.line && c.line ≤ lines.length
  | none => false

/-- Whether a comment suggests something of substance. -/
def suggestsSomething (v : Verifier) (c : Comment) : Bool :=
  let suggestion := Text.strip c.suggestion.toList
  v.options.minSuggestion ≤ suggestion.length && !v.generic.any (·.occursIn suggestion)

/-- Whether a comment mentions something that its file defines, where anything is known of it. -/
def mentionsKnown (v : Verifier) (c : Comment) : Bool :=
  let names := v.knownNames c.path
  names.isEmpty || names.any (mentions (c.rationale ++ "\n" ++ c.suggestion))

/-- Whether a comment says at about the same place what another says. -/
def repeats (v : Verifier) (c k : Comment) : Bool :=
  k.path = c.path && ((k.line - c.line).natAbs : Int) ≤ v.options.duplicateWindow &&
    nearestBinary (9 / 10) < Similarity.wordOverlap r k.rationale.toList c.rationale.toList

/-- Whether a comment is like another in what it says, wherever it stands. -/
def resembles (c k : Comment) : Bool :=
  nearestBinary (17 / 20) < Similarity.similarity r k.rationale.toList c.rationale.toList

/-- What is wrong with a comment by the plain checks, given those kept before it. -/
def plainReasons (v : Verifier) (shelf : Shelf) (kept : List Comment) (c : Comment) :
    List DropReason :=
  (if locationExists shelf c then [] else [.invalidLocation]) ++
  (if v.suggestsSomething c then [] else [.weakSuggestion]) ++
  (if v.mentionsKnown c then [] else [.noKnownSymbols]) ++
  (if kept.any (v.repeats r c) then [.duplicate] else [])

/-- Why a comment is dropped, given those kept before it; nothing if it is kept. -/
def reasons (v : Verifier) (shelf : Shelf) (kept : List Comment) (c : Comment) : List DropReason :=
  match v.plainReasons r shelf kept c with
  | [] =>
    if v.options.placement.isSome && kept.any (resembles r c) then [.fuzzyDuplicate] else []
  | found => found

/-- Each comment with the reasons to drop it, given those kept before the first. -/
def decisions (v : Verifier) (shelf : Shelf) (kept : List Comment) :
    List Comment → List (Comment × List DropReason)
  | [] => []
  | c :: rest =>
    let why := v.reasons r shelf kept c
    (c, why) :: decisions v shelf (if why.isEmpty then kept ++ [c] else kept) rest

/-- The files of a shelf that could be read. -/
def loaded (shelf : Shelf) : LoadedFiles :=
  shelf.filterMap fun (path, lines) => lines.map (path, ·)

/-- A kept comment moved to its best match, if that is another line. -/
def relocation (o : PlacementOptions) (files : LoadedFiles) (c : Comment) : Option Moved :=
  (c.moved? r o files).filter fun m => m.comment.file ≠ c.path || m.comment.line ≠ c.line

/-- What is decided of comments when the files that matter are on a shelf. -/
def verdictOn (v : Verifier) (shelf : Shelf) (comments : List Comment) : Verdict :=
  let decided := v.decisions r shelf [] comments
  let kept := (decided.filter (·.2.isEmpty)).map (·.1)
  let dropped := (decided.filter (!·.2.isEmpty)).map fun d => (⟨d.1, d.2⟩ : Dropped)
  match v.options.placement with
  | none => ⟨kept, dropped, [], []⟩
  | some o =>
    let files := loaded shelf
    let misplaced := comments.filterMap (·.misplaced? r o files)
    if v.options.relocate then
      let placed := kept.map fun c => (c, relocation r o files c)
      ⟨placed.map fun p => (p.2.map (·.comment)).getD p.1, dropped, placed.filterMap (·.2), misplaced⟩
    else ⟨kept, dropped, [], misplaced⟩

/-- The files that matter: the candidates where comments are placed, and those of the comments. -/
def filesNeeded (v : Verifier) (comments : List Comment) : List String :=
  let candidates := if v.options.placement.isSome then v.options.candidates else []
  ((candidates ++ comments.map (·.file)).map Path.normalized).eraseDups

/-- What is decided of comments on the files below a root. -/
def verdict (v : Verifier) (t : Tree) (root : Location) (comments : List Comment) :
    Except PathFault Verdict := do
  let shelf ← t.shelf root (v.filesNeeded comments)
  return v.verdictOn r shelf comments

end Verifier

end PatchReview
