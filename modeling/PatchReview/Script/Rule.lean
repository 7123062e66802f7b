import Std.Data.HashMap
import PatchReview.Script.Token

/-!
# Rules and how they read

A grammar is data: a `Rule` is built from readers of single tokens by sequence, ordered choice,
repetition and look-ahead, and may call other rules by their symbol. `Rule.run` reads a rule at a
position. Choice is ordered and repetition takes all it can, so a rule has at most one reading at a
position; what a symbol reads at a position is kept in a memo and read only once.

The first token of a rule is sought after `skip`, except by `raw` readers, which look exactly where
they stand. Rules wrapped in `mark` leave a `Mark` with their extent in the answer; everything else
is forgotten. Reading goes forward and stays within the script, and a mark stands on something.
-/

namespace PatchReview.Script

/-- A labelled stretch of a script with the labelled stretches inside it. -/
inductive Mark (lam : Type) where
  | mk (label : lam) (start stop : Nat) (inner : List (Mark lam))

namespace Mark

variable {lam : Type}

/-- The label. -/
def label : Mark lam → lam
  | mk l _ _ _ => l

/-- The position of the first character. -/
def start : Mark lam → Nat
  | mk _ s _ _ => s

/-- The position after the last character. -/
def stop : Mark lam → Nat
  | mk _ _ e _ => e

/-- The marks inside. -/
def inner : Mark lam → List (Mark lam)
  | mk _ _ _ ms => ms

end Mark

/-- A rule over symbols `sig` and labels `lam`. -/
inductive Rule (sig lam : Type) where
  /-- Reads nothing. -/
  | empty
  /-- A token after white space and comments. -/
  | token (read : Reader)
  /-- A token exactly here. -/
  | raw (read : Reader)
  /-- What the symbol stands for. -/
  | call (symbol : sig)
  | seq (first second : Rule sig lam)
  /-- The second is tried where the first does not read. -/
  | alt (first second : Rule sig lam)
  /-- As often as possible. -/
  | many (each : Rule sig lam)
  /-- Reads nothing, where the rule reads. -/
  | ahead (rule : Rule sig lam)
  /-- Reads nothing, where the rule does not read. -/
  | unless (rule : Rule sig lam)
  /-- Reads nothing, where the test holds. -/
  | test (holds : Source → Nat → Bool)
  | mark (label : lam) (rule : Rule sig lam)

namespace Rule

variable {sig lam : Type}

/-- The rules one after another. -/
def all : List (Rule sig lam) → Rule sig lam
  | [] => .empty
  | [r] => r
  | r :: rest => .seq r (all rest)

/-- The first of the rules that reads; none reads where the list is empty. -/
def any : List (Rule sig lam) → Rule sig lam
  | [] => .test fun _ _ => false
  | [r] => r
  | r :: rest => .alt r (any rest)

/-- The rule or nothing. -/
def opt (r : Rule sig lam) : Rule sig lam := .alt r .empty

/-- At least once. -/
def some1 (r : Rule sig lam) : Rule sig lam := .seq r (.many r)

/-- At least once, with a separator between. -/
def sep1 (separator r : Rule sig lam) : Rule sig lam := .seq r (.many (.seq separator r))

/-- Where a token at a position ends: within the script, and not before the position. -/
def tokenEnd (read : Reader) (src : Source) (i : Nat) : Option Nat :=
  (read src i).filter fun j => i ≤ j && j ≤ src.size

/-- What a rule answers: where its reading ends, and the marks in it. -/
abbrev Answer (lam : Type) := Option (Nat × List (Mark lam))

/-- What is known of symbols at positions. -/
abbrev Memo (sig lam : Type) [BEq sig] [Hashable sig] := Std.HashMap (sig × Nat) (Answer lam)

/-- Reads a rule at a position, the symbols standing for the rules of a grammar. `fuel` bounds the
    depth of the reading. -/
def run [BEq sig] [Hashable sig] (grammar : sig → Rule sig lam) (src : Source) :
    (fuel : Nat) → Rule sig lam → Nat → Memo sig lam → Answer lam × Memo sig lam
  | 0, _, _, memo => (none, memo)
  | _ + 1, .empty, i, memo => (some (i, []), memo)
  | _ + 1, .token read, i, memo => ((tokenEnd read src (skip src i)).map (·, []), memo)
  | _ + 1, .raw read, i, memo => ((tokenEnd read src i).map (·, []), memo)
  | _ + 1, .test holds, i, memo => (if holds src i then some (i, []) else none, memo)
  | fuel + 1, .call symbol, i, memo =>
    match memo[(symbol, i)]? with
    | some answer => (answer, memo)
    | none =>
      let (answer, memo) := run grammar src fuel (grammar symbol) i memo
      (answer, memo.insert (symbol, i) answer)
  | fuel + 1, .seq first second, i, memo =>
    match run grammar src fuel first i memo with
    | (none, memo) => (none, memo)
    | (some (j, marks), memo) =>
      match run grammar src fuel second j memo with
      | (none, memo) => (none, memo)
      | (some (k, more), memo) => (some (k, marks ++ more), memo)
  | fuel + 1, .alt first second, i, memo =>
    match run grammar src fuel first i memo with
    | (some answer, memo) => (some answer, memo)
    | (none, memo) => run grammar src fuel second i memo
  | fuel + 1, .many each, i, memo =>
    match run grammar src fuel each i memo with
    | (none, memo) => (some (i, []), memo)
    | (some (j, marks), memo) =>
      if j ≤ i then (some (i, []), memo)
      else
        match run grammar src fuel (.many each) j memo with
        | (none, memo) => (some (j, marks), memo)
        | (some (k, more), memo) => (some (k, marks ++ more), memo)
  | fuel + 1, .ahead rule, i, memo =>
    match run grammar src fuel rule i memo with
    | (some _, memo) => (some (i, []), memo)
    | (none, memo) => (none, memo)
  | fuel + 1, .unless rule, i, memo =>
    match run grammar src fuel rule i memo with
    | (some _, memo) => (none, memo)
    | (none, memo) => (some (i, []), memo)
  | fuel + 1, .mark label rule, i, memo =>
    match run grammar src fuel rule i memo with
    | (some (j, marks), memo) =>
      if skip src i < j then (some (j, [.mk label (skip src i) j marks]), memo)
      else (some (j, marks), memo)
    | (none, memo) => (none, memo)

end Rule

end PatchReview.Script
