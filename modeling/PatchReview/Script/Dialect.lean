import PatchReview.Script.Token

/-!
# Dialects of the script language

Three grammars are known: the plain language with markup, the typed language without markup, and the
typed language with markup. The suffix of a file's name chooses between them.
-/

namespace PatchReview.Script

/-- A dialect of the script language. -/
inductive Dialect where
  | javascript
  | typescript
  | tsx
deriving DecidableEq, Hashable, Repr

namespace Dialect

/-- Every dialect. -/
def all : List Dialect := [javascript, typescript, tsx]

/-- The dialect's name. -/
def name : Dialect → String
  | javascript => "javascript"
  | typescript => "typescript"
  | tsx => "tsx"

/-- The dialect of that name. -/
def ofName? (name : String) : Option Dialect := all.find? (·.name == name)

/-- The suffixes of file names that hold a dialect. -/
def suffixes : List (String × Dialect) :=
  [(".js", javascript), (".jsx", javascript), (".ts", typescript), (".tsx", tsx)]

/-- The dialect of files with that suffix. -/
def ofSuffix? (suffix : String) : Option Dialect := suffixes.lookup suffix

/-- Whether types may be written. -/
def isTyped : Dialect → Bool
  | javascript => false
  | typescript | tsx => true

/-- Whether markup may be written. -/
def hasMarkup : Dialect → Bool
  | typescript => false
  | javascript | tsx => true

/-- How statements end. -/
def flavour (d : Dialect) : Flavour := if d.isTyped then .typed else .untyped

end Dialect

end PatchReview.Script
