import PatchReview.Script.Grammar

/-!
# The top-level items of a script

What an outline needs to know of each top-level statement, read off the marks that the grammar
leaves: which module an import names and what it takes from it, what an export lists, and which named
thing a declaration gives. Everything else at the top level is no item.
-/

namespace PatchReview.Script

/-- A declaration of a recorded kind, and its name if it gives one. -/
structure Declaration where
  name  : Option String
  kind  : DefinitionKind
  text  : String
  place : Place
deriving DecidableEq, Repr

/-- One entry of an export list: what it is called here and what it is called outside. -/
structure Specifier where
  inner : String
  outer : String
  place : Place
deriving DecidableEq, Repr

/-- A top-level statement, as far as an outline goes. -/
inductive Item where
  /-- An import; the source is missing where the statement names no module by itself. -/
  | importing (source : Option String) (names : List String)
  /-- An export of a declaration, which is missing if it is of no recorded kind. -/
  | exportingDeclaration (declaration : Option Declaration)
  /-- A default export of a name. -/
  | exportingName (name : String) (place : Place)
  /-- A default export of any other expression. -/
  | exportingValue
  /-- An export list, taken from another module if there is a source. -/
  | exportingList (source : Option String) (specifiers : List Specifier)
  | declaring (declaration : Declaration)
deriving DecidableEq, Repr

namespace Item

/-- The quotes that may stand around a string. -/
def isQuote (c : Char) : Bool := c == '\x22' || c == '\x27' || c == '\x60'

/-- The text without the quotes at both of its ends. -/
def unquoted (text : String) : String :=
  String.ofList ((text.toList.dropWhile isQuote).reverse.dropWhile isQuote).reverse

variable (src : Source)

/-- The text of a mark. -/
def textOf (m : Mark Label) : String := src.text m.start m.stop

/-- The place of a mark. -/
def placeOf (m : Mark Label) : Place :=
  let (line, column) := src.place m.start
  ⟨line, column⟩

/-- The first mark inside that carries the label. -/
def inside (m : Mark Label) (label : Label) : Option (Mark Label) :=
  m.inner.find? (·.label == label)

/-- The module that a statement names. -/
def sourceOf (m : Mark Label) : Option String :=
  (inside m .source).map fun s => unquoted (textOf src s)

/-- The declaration under a mark: its name is the first that it gives, unless a pattern comes
    first. -/
def declarationOf (m : Mark Label) (kind : DefinitionKind) : Declaration where
  name :=
    match m.inner.find? (fun n => n.label == .declaredName || n.label == .declaredPattern) with
    | some n => if n.label == .declaredName then some (textOf src n) else none
    | none => none
  kind := kind
  text := textOf src m
  place := placeOf src m

/-- What an import takes from its module. -/
def importedName (m : Mark Label) : Option String :=
  match m.label with
  | .importDefault => some ("default as " ++ textOf src m)
  | .importNamespace => some ("* as " ++ textOf src m)
  | .importName => some (unquoted (textOf src m))
  | _ => none

/-- An entry of an export list. An entry for a name that is empty is none. -/
def specifierOf (m : Mark Label) : Option Specifier :=
  match m.label with
  | .specifier =>
    match inside m .specifierName with
    | some n =>
      let inner := unquoted (textOf src n)
      let outer := match inside m .specifierAlias with
        | some a => unquoted (textOf src a)
        | none => inner
      if inner.isEmpty then none else some ⟨inner, outer, placeOf src m⟩
    | none => none
  | .namespaceName =>
    let name := unquoted (textOf src m)
    some ⟨name, name, placeOf src m⟩
  | _ => none

/-- The item of an export statement. -/
def ofExport (m : Mark Label) : Item :=
  match m.inner.find? (fun i => match i.label with
      | .declaration _ | .otherDeclaration | .exportedName | .exportedValue => true
      | _ => false) with
  | some i =>
    match i.label with
    | .declaration kind => exportingDeclaration (some (declarationOf src i kind))
    | .exportedName => exportingName (textOf src i) (placeOf src i)
    | .exportedValue => exportingValue
    | _ => exportingDeclaration none
  | none => exportingList (sourceOf src m) (m.inner.filterMap (specifierOf src))

/-- The item of a statement. -/
def ofMark (m : Mark Label) : Option Item :=
  match m.label with
  | .importStatement => some (importing (sourceOf src m) (m.inner.filterMap (importedName src)))
  | .exportStatement => some (ofExport src m)
  | .declaration kind => some (declaring (declarationOf src m kind))
  | _ => none

end Item

/-- The top-level items of a script, or none where it is ill-formed. -/
def items (d : Dialect) (bytes : ByteArray) : Option (List Item) :=
  let src := Source.ofBytes bytes
  (Grammar.statements d src).map (·.filterMap (Item.ofMark src))

end PatchReview.Script
