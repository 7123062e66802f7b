import PatchReview.Script.Item

/-!
# The outline of a source file

An outline lists what a file defines, imports and exports, in the order of its top-level items. It is
built item by item (`Outline.add`), so the outline of a longer script extends that of its beginning.

An export list without a source exports what was defined before under those names. A name that was
not, and every name that comes from another module, is entered as an exported variable without
text.
-/

namespace PatchReview

open Script (Item Declaration Specifier)

/-- What a file takes from another module. -/
structure Import where
  source   : String
  names    : List String
  reexport : Bool
deriving DecidableEq, Repr

/-- A name that a file offers to others. -/
structure Export where
  name : String
  kind : DefinitionKind
deriving DecidableEq, Repr

/-- What a source file defines, imports and exports. -/
structure Outline where
  definitions : List Definition
  imports     : List Import
  exports     : List Export
deriving DecidableEq, Repr

namespace Outline

/-- The outline of no items. -/
def empty : Outline := ⟨[], [], []⟩

/-- The longest text that a definition keeps. -/
def textLimit : Nat := 2000

/-- What follows a text that was cut. -/
def cutMark : String := "\n/* ...truncated... */"

/-- A text cut to the limit. -/
def cut (text : String) : String :=
  if text.length > textLimit then String.ofList (text.toList.take textLimit) ++ cutMark else text

/-- The definition that a declaration gives, if it gives a name. -/
def definitionOf (file : String) (exported : Bool) (d : Declaration) : Option Definition :=
  match d.name with
  | some name => if name.isEmpty then none else some ⟨file, name, d.kind, exported, cut d.text, d.place⟩
  | none => none

/-- What stands for a name that is exported but not defined here. -/
def placeholder (file name : String) (place : Place) : Definition :=
  ⟨file, name, .binding, true, "", place⟩

/-- Marks the first definition of that name as exported. -/
def markFirst (name : String) : List Definition → List Definition
  | [] => []
  | d :: rest => if d.name = name then { d with exported := true } :: rest else d :: markFirst name rest

/-- Exports the first definition of `inner` under the name `outer`, or a placeholder where there is
    none or the name comes from elsewhere. -/
def exportName (file : String) (here : Bool) (o : Outline) (s : Specifier) : Outline :=
  match if here then o.definitions.find? (·.name = s.inner) else none with
  | some d =>
    { o with
      definitions := markFirst s.inner o.definitions
      exports := o.exports ++ [⟨s.outer, d.kind⟩] }
  | none =>
    { o with
      definitions := o.definitions ++ [placeholder file s.outer s.place]
      exports := o.exports ++ [⟨s.outer, .binding⟩] }

/-- Adds an import, unless its source is empty. -/
def addImport (source : Option String) (names : List String) (reexport : Bool) (o : Outline) :
    Outline :=
  match source with
  | some s => if s.isEmpty then o else { o with imports := o.imports ++ [⟨s, names, reexport⟩] }
  | none => o

/-- Adds a definition and what it exports. -/
def addDefinition (d : Option Definition) (o : Outline) : Outline :=
  match d with
  | some d =>
    { o with
      definitions := o.definitions ++ [d]
      exports := if d.exported then o.exports ++ [⟨d.name, d.kind⟩] else o.exports }
  | none => o

/-- What an export list takes from its source: the names listed, or all. -/
def namesTaken (specifiers : List Specifier) : List String :=
  if specifiers.isEmpty then ["*"] else specifiers.map (·.inner)

/-- The outline with one more item. -/
def add (file : String) (o : Outline) : Item → Outline
  | .importing source names => o.addImport source names false
  | .exportingDeclaration d => o.addDefinition (d.bind (definitionOf file true))
  | .exportingName name place => exportName file true o ⟨name, name, place⟩
  | .exportingValue => o
  | .exportingList source specifiers =>
    specifiers.foldl (exportName file source.isNone)
      (o.addImport source (namesTaken specifiers) true)
  | .declaring d => o.addDefinition (definitionOf file false d)

/-- The outline of top-level items. -/
def ofItems (file : String) (items : List Item) : Outline := items.foldl (add file) empty

/-- The outline of a source file, or none where the source is ill-formed. -/
def ofSource (dialect : Script.Dialect) (file : String) (bytes : ByteArray) : Option Outline :=
  (Script.items dialect bytes).map (ofItems file)

end Outline

end PatchReview
