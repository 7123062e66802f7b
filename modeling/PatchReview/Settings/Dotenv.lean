import PatchReview.Text.Blank

/-!
# Files of variables

A file of variables has a binding `name=value` on each line. Names and values may be quoted; a quoted
value may go over several lines. An unquoted value ends before a blank that is followed by a number
sign, as does a line. A name without an equals sign is bound to nothing. What cannot be read is passed
over to the end of its line.

In values, `${name}` stands for what the name is bound to further up in the file, else in the
environment, and `${name:-text}` for the text where it is bound nowhere.
-/

namespace PatchReview.Dotenv

open PatchReview.Text

/-- A name with the text that it is bound to, if any. -/
abbrev Binding := String × Option String

/-- The end of a line. -/
def isLineEnd (c : Char) : Bool := c == '\n' || c == '\r'

/-- A blank inside a line. -/
def isInlineBlank (c : Char) : Bool := isBlank c && !isLineEnd c

/-- What follows the blanks at the beginning. -/
def skipInline (cs : List Char) : List Char := cs.dropWhile isInlineBlank

/-- What follows the rest of a line. -/
def skipLine (cs : List Char) : List Char := (cs.dropWhile (!isLineEnd ·)).drop 1

/-- What follows the word `export` and the blanks after it, if they stand at the beginning. -/
def skipExport (cs : List Char) : List Char :=
  match "export".toList.isPrefixOf cs, cs.drop 6 with
  | true, c :: rest => if isInlineBlank c then skipInline rest else cs
  | _, _ => cs

/-- What stands before a closing quote, and what follows it. A quote after a backslash closes only
    where no other quote does. -/
def untilQuote (quote : Char) : List Char → Option (List Char × List Char)
  | [] => none
  | [c] => if c = quote then some ([], []) else none
  | c :: d :: rest =>
    if c = quote then some ([], d :: rest)
    else if c = '\\' ∧ d = quote then
      match untilQuote quote rest with
      | some (value, after) => some (c :: d :: value, after)
      | none => some ([c], rest)
    else (untilQuote quote (d :: rest)).map fun (value, after) => (c :: value, after)

/-- The characters that letters after a backslash stand for between double quotes. -/
def escapes : List (Char × Char) :=
  [('\\', '\\'), ('\x27', '\x27'), ('\x22', '\x22'), ('a', '\x07'), ('b', '\x08'), ('f', '\x0C'),
   ('n', '\n'), ('r', '\r'), ('t', '\t'), ('v', '\x0B')]

/-- Replaces what stands after backslashes, where the table knows it. -/
def unescape (table : List (Char × Char)) : List Char → List Char
  | '\\' :: c :: rest =>
    match table.lookup c with
    | some d => d :: unescape table rest
    | none => '\\' :: unescape table (c :: rest)
  | c :: rest => c :: unescape table rest
  | [] => []
termination_by cs => cs.length

/-- The characters before a blank that is followed, after further blanks, by a number sign. -/
def beforeComment : List Char → List Char
  | [] => []
  | c :: rest =>
    if isBlank c && (rest.dropWhile isBlank).head? == some '#' then [] else c :: beforeComment rest

/-- The characters without the blanks at their end. -/
def withoutTail (cs : List Char) : List Char := (cs.reverse.dropWhile isBlank).reverse

/-- A value, and what follows it; none where a quote is not closed. -/
def readValue (cs : List Char) : Option (List Char × List Char) :=
  match cs with
  | '\x27' :: rest =>
    (untilQuote '\x27' rest).map fun (v, after) => (unescape (escapes.take 2) v, after)
  | '\x22' :: rest => (untilQuote '\x22' rest).map fun (v, after) => (unescape escapes v, after)
  | _ =>
    let line := cs.takeWhile (!isLineEnd ·)
    some (withoutTail (beforeComment line), cs.drop line.length)

/-- A name, and what follows it; a comment has the place of a name but none. -/
def readName (cs : List Char) : Option (Option (List Char) × List Char) :=
  match cs with
  | '#' :: _ => some (none, cs)
  | '\x27' :: rest =>
    let name := rest.takeWhile (· ≠ '\x27')
    match name, rest.drop name.length with
    | _ :: _, _ :: after => some (some name, after)
    | _, _ => none
  | _ =>
    let name := cs.takeWhile fun c => c != '=' && c != '#' && !isBlank c
    if name.isEmpty then none else some (some name, cs.drop name.length)

/-- What follows a comment, if one stands at the beginning. -/
def skipComment (cs : List Char) : List Char :=
  match skipInline cs with
  | '#' :: rest => rest.dropWhile (!isLineEnd ·)
  | _ => cs

/-- What follows the end of a line, if nothing but blanks stands before it. -/
def endOfLine (cs : List Char) : Option (List Char) :=
  match skipInline cs with
  | '\r' :: '\n' :: rest => some rest
  | c :: rest => if isLineEnd c then some rest else none
  | [] => some []

/-- A binding, if one stands at the beginning, and what follows it. -/
def readBinding (cs : List Char) : Option (List Char × Option (List Char)) × List Char :=
  match skipExport (cs.dropWhile isBlank) with
  | [] => (none, [])
  | cs =>
    match readName cs with
    | none => (none, skipLine cs)
    | some (name, afterName) =>
      let cs := skipInline afterName
      let value? : Option (Option (List Char) × List Char) :=
        match cs with
        | '=' :: rest => (readValue (skipInline rest)).map fun (v, after) => (some v, after)
        | _ => some (none, cs)
      match value? with
      | none => (none, skipLine (skipInline (cs.drop 1)))
      | some (value, afterValue) =>
        let cs := skipComment afterValue
        match endOfLine cs with
        | some rest => (name.map (·, value), rest)
        | none => (none, skipLine cs)

/-- The bindings one after another; `fuel` bounds their number. -/
def readBindings : (fuel : Nat) → List Char → List (List Char × Option (List Char))
  | 0, _ => []
  | _, [] => []
  | fuel + 1, cs =>
    match readBinding cs with
    | (some b, rest) => b :: readBindings fuel rest
    | (none, rest) => readBindings fuel rest

/-- The name, the text for its absence, and what follows, where a reference stands at the beginning
    (its dollar sign and brace read already). -/
def readReference (cs : List Char) : Option (List Char × List Char × List Char) :=
  let name := cs.takeWhile fun c => c != '}' && c != ':'
  match cs.drop name.length with
  | '}' :: rest => some (name, [], rest)
  | ':' :: '-' :: rest =>
    let instead := rest.takeWhile (· ≠ '}')
    match rest.drop instead.length with
    | _ :: after => some (name, instead, after)
    | [] => none
  | _ => none

/-- A value with its references replaced; `fuel` bounds the number of its characters. -/
def expand (look : String → Option String) : (fuel : Nat) → List Char → List Char
  | 0, cs => cs
  | fuel + 1, '$' :: '{' :: rest =>
    match readReference rest with
    | some (name, instead, after) =>
      ((look (String.ofList name)).map String.toList).getD instead ++ expand look fuel after
    | none => '$' :: expand look fuel ('{' :: rest)
  | fuel + 1, c :: rest => c :: expand look fuel rest
  | _, [] => []

/-- What a name is bound to by the last binding, an empty text where it is bound to nothing. -/
def lookIn (bindings : List Binding) (environment : List (String × String)) (name : String) :
    Option String :=
  match bindings.reverse.lookup name with
  | some value => some (value.getD "")
  | none => environment.lookup name

/-- Replaces the references in values, from the first binding on. -/
def resolveFrom (environment : List (String × String)) (done : List Binding) :
    List (List Char × Option (List Char)) → List Binding
  | [] => done
  | (name, value) :: rest =>
    let value := value.map fun v =>
      String.ofList (expand (lookIn done environment) v.length v)
    resolveFrom environment (done ++ [(String.ofList name, value)]) rest

/-- The bindings of a file in an environment. -/
def read (environment : List (String × String)) (text : String) : List Binding :=
  let cs := text.toList
  resolveFrom environment [] (readBindings cs.length cs)

end PatchReview.Dotenv
