/-!
# Definitions

A definition is a named thing that a source file defines at its top level: what it is called, what
kind of thing it is, whether other files can see it, its text, and where it stands.
-/

namespace PatchReview

/-- What kind of thing a definition defines. -/
inductive DefinitionKind where
  | interface
  | typeAlias
  | class_
  | function
  | enumeration
  | binding
deriving DecidableEq, Hashable, Repr

namespace DefinitionKind

/-- Every kind. -/
def all : List DefinitionKind := [interface, typeAlias, class_, function, enumeration, binding]

/-- The name of a kind in reports. -/
def name : DefinitionKind → String
  | interface => "interface"
  | typeAlias => "type-alias"
  | class_ => "class"
  | function => "function"
  | enumeration => "enum"
  | binding => "variable"

/-- The kind of that name. -/
def ofName? (name : String) : Option DefinitionKind := all.find? (·.name == name)

end DefinitionKind

/-- A place in a file: the line, and the byte in that line, both counted from one. -/
structure Place where
  line   : Int
  column : Int
deriving DecidableEq, Repr

/-- A named thing defined at the top level of a file. -/
structure Definition where
  file     : String
  name     : String
  kind     : DefinitionKind
  exported : Bool
  text     : String
  place    : Place
deriving DecidableEq, Repr

end PatchReview
