import PatchReview.Definition
import PatchReview.Script.Dialect
import PatchReview.Script.Rule

/-!
# The grammar of a script

The rules of the three dialects as data. They are generous where the difference cannot be seen in an
outline (operators have no ranks, modifiers come in any order) and exact about what makes a script
ill-formed. Marks are left on the statements of a script and on those parts of imports, exports and
declarations that an outline needs.

A word of the language is a name wherever the grammar expects no such word, so `type`, `get` or `of`
may be used as names. Where a statement may end at a line end, every token that could continue an
expression or a type is read only if the line end does not close the statement first.
-/

namespace PatchReview.Script

/-- What a mark stands on. -/
inductive Label where
  | importStatement
  | exportStatement
  /-- A declaration of a recorded kind. -/
  | declaration (kind : DefinitionKind)
  /-- A declaration of any other kind. -/
  | otherDeclaration
  | otherStatement
  /-- The name that a declaration gives. -/
  | declaredName
  /-- A pattern in place of a name. -/
  | declaredPattern
  /-- The module that an import or export names. -/
  | source
  | importDefault
  | importNamespace
  | importName
  | specifier
  | specifierName
  | specifierAlias
  | namespaceName
  /-- A default export that is one name. -/
  | exportedName
  /-- A default export that is any other expression. -/
  | exportedValue
deriving DecidableEq, Repr

/-- Where an expression or a type stands. -/
inductive Position where
  /-- At the end of a statement, which a line end may close. -/
  | closing
  /-- Inside brackets or before a token that must follow. -/
  | enclosed
  /-- Between the marks of a choice, where a colon ends it. -/
  | branch
deriving DecidableEq, Hashable, Repr

/-- The symbols of the grammar. -/
inductive Sym where
  | program | statement | block | declaration | exportStatement | importStatement
  | binding | declarators | decorators | functionRest | classRest | classBody | classMember
  | expressions (pos : Position) | expression (pos : Position) | operand (pos : Position)
  | chain (pos : Position) | target (pos : Position) | arrow (pos : Position)
  | base | arguments | template | object | array | objectPattern | arrayPattern | pattern
  | propertyName | parameters | signature (pos : Position)
  | markup | markupChild | markupAttribute
  | type (pos : Position) | typeMember (pos : Position) | primaryType
  | objectType | objectTypeMember | typeArguments | typeParameters
deriving DecidableEq, Hashable, Repr

namespace Grammar

/-- Rules of the script grammar. -/
abbrev R := Rule Sym Label

/-- The word as a token. -/
def kw (w : String) : R := .token (word w)

/-- The characters as a token. -/
def p (text : String) : R := .token (Script.mark text)

/-- The operator as a token. -/
def op (text : String) : R := .token (operator text)

/-- One of the words. -/
def kws (ws : List String) : R := .any (ws.map kw)

/-- Any name, words of the language included. -/
def anyName : R := .token name

/-- What stands between braces. -/
def braces (r : R) : R := .all [p "\x7b", r, p "\x7d"]

/-- What stands between parentheses. -/
def parens (r : R) : R := .all [p "(", r, p ")"]

/-- What stands between brackets. -/
def squares (r : R) : R := .all [p "[", r, p "]"]

/-- A list with commas between, in which entries may be left out. -/
def gappy (r : R) : R := .seq (.opt r) (.many (.seq (p ",") (.opt r)))

/-- A list with commas between and perhaps one at the end. -/
def trailing (r : R) : R := .seq (.opt (.sep1 (p ",") r)) (.opt (p ","))

/-- The list is not empty. -/
def trailing1 (r : R) : R := .seq (.sep1 (p ",") r) (.opt (p ","))

/-- Words that start an expression or stand for one, and so are no names in it. -/
def expressionWords : List String :=
  ["import", "function", "class", "new", "await", "yield", "typeof", "void", "delete", "this",
   "super", "true", "false", "null"]

/-- Words that no name may be in the plain dialect. -/
def reservedWords : List String :=
  ["break", "case", "catch", "const", "continue", "debugger", "default", "do", "else", "extends",
   "finally", "for", "if", "in", "instanceof", "return", "switch", "throw", "try", "var", "while",
   "with"]

/-- Words that start a statement which is no expression. -/
def statementWords : List String :=
  ["break", "case", "catch", "const", "continue", "debugger", "default", "do", "else", "finally",
   "for", "if", "return", "switch", "throw", "try", "var", "while", "with"]

/-- Words that start a declaration of the typed dialects and so no expression in its place. -/
def declarationWords : List String := ["enum", "interface", "abstract"]

/-- The three dots of a rest or spread. -/
def dots : R := op "..."

/-- The dot before a member. -/
def dot : R := .seq (.unless dots) (p ".")

variable (d : Dialect)

/-- The rule in the typed dialects only. -/
def typed (r : R) : List R := if d.isTyped then [r] else []

/-- A name in an expression. -/
def ordinaryName : R :=
  .token (nameExcept (if d.isTyped then expressionWords else expressionWords ++ reservedWords))

/-- A name that is being given to something. -/
def boundName : R :=
  if d.isTyped then anyName
  else .token (nameExcept (reservedWords ++
    ["class", "delete", "false", "function", "import", "new", "null", "super", "this", "true",
     "typeof", "void"]))

/-- The statement is not closed here. -/
def unclosed (before : Ending) : R :=
  .test fun src i => !closes d.flavour before src i

/-- The end of a statement. -/
def ending (before : Ending) : R :=
  .alt (p ";") (.test (closes d.flavour before))

/-- The rule, where the position leaves it to the token to continue an expression. -/
def onward (pos : Position) (r : R) : R :=
  match pos with
  | .closing => .seq (unclosed d .expression) r
  | .enclosed | .branch => r

/-- The rule, where the position leaves it to the token to continue a type. -/
def onwardType (pos : Position) (r : R) : R :=
  match pos with
  | .closing => .seq (unclosed d .plain) r
  | .enclosed | .branch => r

/-- A word that means something only on the line of what follows, being a name otherwise. -/
def softWord (w : String) : R := .seq (kw w) (unclosed d .expression)

/-! ## Types -/

/-- A colon and a type. -/
def typeMark (pos : Position) : R := .seq (p ":") (.call (.type pos))

/-- A colon and a type, in the typed dialects. -/
def annotated (pos : Position) : R := .all (typed d (.opt (typeMark pos)))

/-- What a function gives back: a type, or what its result says about an argument. -/
def resultType (pos : Position) : R :=
  let subject := .alt (kw "this") anyName
  let predicate : R := .all [subject, kw "is", .call (.type pos)]
  .any [.seq (kw "asserts") (.alt predicate (.seq (.unless (kw "is")) subject)), predicate,
        .call (.type pos)]

/-- A type in parts: alternatives, and a choice by what it extends. -/
def typeRule (pos : Position) : R :=
  let joint := .alt (op "|") (op "&")
  .all
    [.opt joint, .call (.typeMember pos),
     .many (onwardType d pos (.seq joint (.call (.typeMember pos)))),
     .opt (onwardType d pos (.all
       [kw "extends", .call (.type .enclosed), p "?", .call (.type .enclosed), p ":",
        .call (.type pos)]))]

/-- One alternative of a type. -/
def typeMemberRule (pos : Position) : R :=
  let function : R :=
    .all [.opt (.call .typeParameters), .call .parameters, op "=>", resultType pos]
  let indexed : R := .many (onwardType d pos (squares (.opt (.call (.type .enclosed)))))
  .any
    [function,
     .all [.opt (kw "abstract"), kw "new", .opt (.call .typeParameters), .call .parameters,
           op "=>", .call (.type pos)],
     .seq (kw "readonly") (.call (.type pos)),
     .all [kw "infer", anyName, .opt (.seq (kw "extends") (.call (.type .enclosed)))],
     .seq (kw "keyof") (.call (.typeMember pos)),
     .seq (.call .primaryType) indexed]

/-- Words that start a type and so name none. -/
def typeWords : List String :=
  ["new", "typeof", "function", "keyof", "unique", "infer", "readonly", "abstract", "import"]

/-- A type that stands by itself. -/
def primaryTypeRule : R :=
  let path : R := .many (.seq dot (.alt anyName (.token privateName)))
  let imported : R := .all [kw "import", .call .arguments, path]
  .any
    [.all [kw "typeof", .alt imported (.all [anyName, path]),
           .many (squares (.any [.token stringLiteral, .token number, anyName])),
           .opt (.call .typeArguments)],
     .seq (kw "unique") (kw "symbol"),
     .seq imported (.opt (.call .typeArguments)),
     parens (.call (.type .enclosed)),
     .call .objectType,
     squares (trailing (.any
       [.all [.opt dots, anyName, .opt (p "?"), typeMark .enclosed],
        .seq dots (.call (.type .enclosed)),
        .seq (.call (.type .enclosed)) (.opt (p "?"))])),
     .all [p "\x60", .many (.alt (.raw templateChars) (.all
       [.raw (Script.mark "$\x7b"), .call (.type .enclosed), p "\x7d"])), .raw (Script.mark "\x60")],
     .token stringLiteral,
     .seq (.opt (.alt (op "-") (op "+"))) (.token number),
     p "*",
     .seq (p "?") (.call .primaryType),
     .all [.token (nameExcept typeWords), .many (.seq dot anyName),
           .opt (.call .typeArguments)]]

/-- Types between angle brackets. -/
def typeArgumentsRule : R := .all [p "<", trailing1 (.call (.type .enclosed)), p ">"]

/-- Parameters of a type, each with a bound and a default. -/
def typeParametersRule : R :=
  .all [p "<", trailing1 (.all
    [.opt (.seq (kw "const") (.ahead anyName)), anyName,
     .opt (.seq (.alt (kw "extends") (p ":")) (.call (.type .enclosed))),
     .opt (.seq (op "=") (.call (.type .enclosed)))]), p ">"]

/-- A word before the name of a member. The same word may be the name itself. -/
def modifier (w : String) : R :=
  .seq (kw w) (.unless (.any
    (["(", "<", ":", ",", "\x7d", "=", "?", ";", "!", ")"].map p)))

/-- The words that may stand before the name of a member. -/
def modifiers : R :=
  .many (.any (((if d.isTyped then
    ["public", "private", "protected", "static", "override", "readonly", "abstract", "declare",
     "accessor", "async", "get", "set"]
    else ["static", "async", "get", "set"]).map modifier) ++ [p "*"]))

/-- A member that is named by the type of its key. -/
def indexSignature (pos : Position) : R :=
  let sign : R := .opt (.alt (p "-") (p "+"))
  .all
    [.opt (.all [sign, kw "readonly"]),
     squares (.alt
       (.seq anyName (typeMark .enclosed))
       (.all [anyName, kw "in", .call (.type .enclosed),
              .opt (.seq (kw "as") (.call (.type .enclosed)))])),
     .opt (.seq sign (p "?")), typeMark pos]

/-- One member of an object type. -/
def objectTypeMemberRule : R :=
  .any
    [indexSignature .closing,
     .all [.opt (kw "abstract"), kw "new", .opt (.call .typeParameters), .call .parameters,
           .opt (typeMark .closing)],
     .call (.signature .closing),
     .all [modifiers d, .call .propertyName, .opt (p "?"), .call (.signature .closing)],
     .all [modifiers d, .call .propertyName, .opt (p "?"), .opt (typeMark .closing)]]

/-- The members of an object type between braces. -/
def objectTypeRule : R :=
  let separator := .alt (p ",") (ending d .plain)
  .all
    [.alt (p "\x7b|") (p "\x7b"), .opt (.alt (p ",") (p ";")),
     .opt (.seq (.sep1 separator (.call .objectTypeMember)) (.opt separator)),
     .alt (p "|\x7d") (p "\x7d")]

/-! ## Patterns and parameters -/

/-- The value that stands for a missing one. -/
def fallback : R := .seq (op "=") (.call (.expression .enclosed))

/-- A pattern that takes an object apart. -/
def objectPatternRule : R :=
  braces (gappy (.any
    [.seq dots (.call .pattern),
     .all [.call .propertyName, p ":", .call .pattern, .opt fallback],
     .seq (.any [.call .objectPattern, .call .arrayPattern, anyName]) (.opt fallback)]))

/-- A pattern that takes a list apart. -/
def arrayPatternRule : R := squares (gappy (.seq (.call .pattern) (.opt fallback)))

/-- What an argument or an assigned part is bound to. -/
def patternRule : R :=
  .any [.seq dots (.call .pattern), .call (.target .enclosed)]

/-- A name or a pattern that is being defined. -/
def bindingRule : R := .any [.call .objectPattern, .call .arrayPattern, boundName d]

/-- The parameters of a function. -/
def parametersRule : R :=
  let plain : R := .seq (.call .pattern) (.opt fallback)
  let full : R :=
    .all [.call .decorators,
          .many (.any (["public", "private", "protected", "override", "readonly"].map modifier)),
          .alt (.seq (kw "this") (.unless dot)) (.call .pattern), .opt (p "?"),
          .opt (typeMark .enclosed), .opt fallback]
  parens (.opt (trailing1 (if d.isTyped then full else plain)))

/-- The parameters of a function with what it gives back. -/
def signatureRule (pos : Position) : R :=
  if d.isTyped then
    let result : R := .opt (.seq (p ":") (resultType pos))
    let result : R := match pos with
      | .branch => .empty
      | .closing | .enclosed => result
    .all [.opt (.call .typeParameters), .call .parameters, result]
  else .call .parameters

/-! ## Expressions -/

/-- A template, with its tag's text before it left out. -/
def templateRule : R :=
  .all [p "\x60",
    .many (.any [.raw templateChars, .raw escape,
      .all [.raw (Script.mark "$\x7b"), .call (.expressions .enclosed), p "\x7d"]]),
    .raw (Script.mark "\x60")]

/-- The arguments of a call. -/
def argumentsRule : R :=
  let each := .alt (.seq dots (.call (.expression .enclosed))) (.call (.expression .enclosed))
  parens (gappy each)

/-- A list. -/
def arrayRule : R :=
  let each := .alt (.seq dots (.call (.expression .enclosed))) (.call (.expression .enclosed))
  squares (gappy each)

/-- The name of a property. -/
def propertyNameRule : R :=
  .any [anyName, .token privateName, .token stringLiteral, .token number,
        squares (.call (.expression .enclosed))]

/-- An object. -/
def objectRule : R :=
  let method : R :=
    .all [modifiers d, .call .propertyName, .all (typed d (.opt (p "?"))),
          .call (.signature .enclosed), .call .block]
  braces (gappy (.any
    [.seq dots (.call (.expression .enclosed)), method,
     .all [.call .propertyName, p ":", .call (.expression .enclosed)], anyName]))

/-- The rest of a function after its first word. -/
def functionRestRule : R :=
  .all [.opt (p "*"), .opt (boundName d), .call (.signature .enclosed), .call .block]

/-- What an expression starts with before it is taken further. -/
def baseRule : R :=
  let creation : R :=
    .all [kw "new", .alt (.seq dot (kw "target")) (.all
      [.call .base,
       .many (.alt (.seq dot (.alt anyName (.token privateName)))
         (squares (.call (.expressions .enclosed)))),
       .all (typed d (.opt (.call .typeArguments))), .opt (.call .arguments)])]
  let inner : R :=
    if d.isTyped then
      .alt (.all [.call (.expression .enclosed), .opt (typeMark .enclosed), .ahead (p ")")])
        (.call (.expressions .enclosed))
    else .call (.expressions .enclosed)
  .any
    [parens inner, .token number, .token stringLiteral, .call .template, .token patternLiteral,
     .call .object, .call .array,
     .seq (kw "function") (.call .functionRest),
     .all [softWord d "async", kw "function", .call .functionRest],
     .all [.call .decorators, kw "class", .call .classRest],
     creation,
     .seq (kw "import") (.any [.ahead (p "("), .seq dot anyName]),
     .seq (.token privateName) (.ahead (kw "in")),
     kws ["this", "super", "true", "false", "null"],
     ordinaryName d]

/-- A step from an expression to one of its members. -/
def memberStep : R :=
  .any ([.seq dot (.alt anyName (.token privateName)),
    .seq (op "?.") (.any [squares (.call (.expressions .enclosed)), anyName, .token privateName]),
    squares (.call (.expressions .enclosed))] ++ typed d (op "!"))

/-- A step from an expression to its value as a function. -/
def callStep : R :=
  let full : R := .seq (.opt (.call .typeArguments)) (.call .arguments)
  .any ([.seq (op "?.") (if d.isTyped then full else .call .arguments),
    .call .arguments, .call .template] ++
    typed d (.seq (.call .typeArguments) (.any
      [.call .arguments, .call .template,
       .ahead (.any ([")", "]", ",", ";", ":", "\x7d", "\x7b", ".", "=", "?"].map p)),
       .ahead (.test fun src i => (src.get? i).isNone),
       .test (closes d.flavour .expression)])))

/-- An expression taken further by members and calls. -/
def chainRule (pos : Position) : R :=
  .seq (.call .base) (.many (onward d pos (.alt (memberStep d) (callStep d))))

/-- What can be assigned to: a name, a member, a pattern, or such a thing in parentheses. -/
def targetRule (pos : Position) : R :=
  let step : R :=
    .seq (.many (onward d pos (callStep d))) (onward d pos (memberStep d))
  let first : R := .alt (parens (.call (.expressions .enclosed))) (ordinaryName d)
  .any
    [.seq (.call .base) (.some1 step), .call .objectPattern, .call .arrayPattern,
     .seq (.ahead first) (.call .base)]

/-- A function written with an arrow. -/
def arrowRule (pos : Position) : R :=
  let single : R := .seq (ordinaryName d) (.ahead (op "=>"))
  let head : R := .alt single
    (.call (.signature (match pos with | .branch => .branch | .closing | .enclosed => .enclosed)))
  let body : R := .alt (.call .block) (.call (.expression pos))
  .alt (.all [softWord d "async", head, op "=>", body]) (.all [head, op "=>", body])

/-- One operand: what stands between two operators. -/
def operandRule (pos : Position) : R :=
  let sign : R := .any ((["!", "~", "-", "+", "++", "--"].map op) ++
    (["typeof", "void", "delete"].map kw))
  let assigned : R :=
    .all [.call (.target pos),
      onward d pos (.alt (op "=") (.token (longestOf operators updatingOperators))),
      .call (.expression pos)]
  .any ([.seq (kw "yield") (.any [.seq (p "*") (.call (.expression pos)),
      onward d pos (.call (.expression pos)), .empty]),
    .seq (kw "await") (.call (.operand pos)),
    .call (.arrow pos)] ++
    (if d.hasMarkup then [.call .markup]
     else [.seq (.call .typeArguments) (.call (.operand pos))]) ++
    [.seq sign (.call (.operand pos)), assigned,
     .seq (.call (.chain pos)) (.opt (onward d pos (.alt (op "++") (op "--"))))])

/-- Operands with operators between them. -/
def expressionRule (pos : Position) : R :=
  let choice (between : Position) : R :=
    .all [.token choiceMark, .call (.expression between), p ":", .call (.expression pos)]
  .seq (.call (.operand pos)) (.many (onward d pos (.any
    ([.seq (.alt (.token (longestOf operators infixOperators)) (kws ["in", "instanceof"]))
        (.call (.operand pos)),
      choice .enclosed] ++
     typed d (choice .branch) ++
     typed d (.seq (kw "as") (.alt (.seq (kw "const") (.unless (p "."))) (.call (.type pos)))) ++
     typed d (.seq (kw "satisfies") (.call (.type pos)))))))

/-! ## Markup -/

/-- The name of an element: a path or a name in a space of names. -/
def markupPath : R :=
  let part : R := .token markupName
  .seq part (.alt (.seq (p ":") part) (.many (.seq dot part)))

/-- An attribute of an element. -/
def markupAttributeRule : R :=
  let spread : R :=
    braces (.opt (.alt (.seq dots (.call (.expression .enclosed))) (.call (.expressions .enclosed))))
  let value : R := .any [.token markupString, spread, .call .markup]
  .alt spread (.all [.token markupName, .opt (.seq (p ":") (.token markupName)),
    .opt (.seq (p "=") value)])

/-- What stands between the two tags of an element. -/
def markupChildRule : R :=
  .any
    [.raw markupText, .raw characterReference, .token characterReference,
     .seq (.unless (p "</")) (.call .markup),
     braces (.opt (.alt (.seq dots (.call (.expression .enclosed)))
       (.call (.expressions .enclosed))))]

/-- An element: one closed tag, or two tags and what is between them. -/
def markupRule : R :=
  let head : R :=
    .all [markupPath, .all (typed d (.opt (.call .typeArguments))),
          .many (.call .markupAttribute)]
  .all [p "<", .alt
    (.all [head, p "/", p ">"])
    (.all [.opt head, p ">", .many (.call .markupChild), p "<", p "/", .opt markupPath, p ">"])]

/-! ## Functions and classes -/

/-- Decorations before a class, a member or a parameter. -/
def decoratorsRule : R :=
  .many (.seq (p "@") (.alt (parens (.call (.expressions .enclosed)))
    (.all [anyName, .many (.seq dot (.alt anyName (.token privateName))),
      .all (typed d (.opt (.call .typeArguments))), .opt (.call .arguments)])))

/-- What a class is made from. -/
def heritage : R :=
  if d.isTyped then
    let parent : R := .seq (.call (.chain .enclosed)) (.opt (.call .typeArguments))
    .seq (.opt (.seq (kw "extends") (.sep1 (p ",") parent)))
      (.opt (.seq (kw "implements") (.sep1 (p ",") (.call (.type .enclosed)))))
  else .opt (.seq (kw "extends") (.call (.expression .enclosed)))

/-- The rest of a class without a name. -/
def classTail : R :=
  .all [.all (typed d (.opt (.call .typeParameters))), heritage d, .call .classBody]

/-- The rest of a class expression after its first word. -/
def classRestRule : R :=
  .seq (.opt (.seq (.unless (kws ["extends", "implements"])) (boundName d))) (classTail d)

/-- One member of a class. -/
def classMemberRule : R :=
  let close (before : Ending) : R := .any (ending d before :: typed d (p ","))
  let named : R := .seq (modifiers d) (.call .propertyName)
  let method : R :=
    .all [named, .all (typed d (.opt (p "?"))), .call (.signature .enclosed), .call .block,
          .opt (p ";")]
  let methodHead : R :=
    .all [named, .opt (p "?"), .call (.signature .closing), close .heading]
  let certainty : R := .all (typed d (.opt (.alt (p "?") (op "!"))))
  let field : R :=
    .all [named, certainty, annotated d .closing, .alt
      (.all [op "=", .call (.expression .closing), close .expression]) (close .plain)]
  .any ([p ";", .seq (kw "static") (.call .block)] ++
    typed d (.seq (indexSignature .closing) (close .plain)) ++
    [.seq (.call .decorators) (.any (method :: typed d methodHead ++ [field]))])

/-- The members of a class between braces. -/
def classBodyRule : R := braces (.many (.call .classMember))

/-! ## Declarations -/

/-- Variables with their first values, up to the end of the statement. -/
def declaratorsRule : R :=
  let rest : R := .seq (p ",") (.call .declarators)
  let named : R := .alt
    (.mark .declaredPattern (.alt (.call .objectPattern) (.call .arrayPattern)))
    (.mark .declaredName (boundName d))
  let first : R := .all (named :: typed d (.opt (.seq (.opt (op "!")) (typeMark .closing))))
  .seq first (.alt
    (.all [op "=", .call (.expression .closing), .alt rest (ending d .expression)])
    (.alt rest (ending d .plain)))

/-- The name that a declaration gives. -/
def given : R := .mark .declaredName (boundName d)

/-- Declarations of a recorded kind. -/
def recordedDeclarations : List R :=
  let asynchronous : R := .opt (softWord d "async")
  let signed : R := .call (.signature .enclosed)
  let decl (kind : DefinitionKind) (r : R) : R := .mark (.declaration kind) r
  [decl .function (.all [asynchronous, kw "function", .opt (p "*"), given d, signed,
     .call .block]),
   decl .class_ (.all [.call .decorators, .all (typed d (.opt (kw "abstract"))), kw "class",
     given d, classTail d]),
   decl .binding (.seq
     (.any [softWord d "let", .seq (kw "const") (.all (typed d (.unless (kw "enum")))), kw "var"])
     (.call .declarators))] ++
  typed d (decl .interface (.all
    [kw "interface", given d, .opt (.call .typeParameters),
     .opt (.seq (kw "extends") (.sep1 (p ",") (.call (.type .enclosed)))), .call .objectType])) ++
  typed d (decl .typeAlias (.all
    [softWord d "type", given d, .opt (.call .typeParameters), op "=", .call (.type .closing),
     ending d .plain])) ++
  typed d (decl .enumeration (.all
    [.opt (kw "const"), kw "enum", given d,
     braces (trailing (.seq (.call .propertyName) (.opt fallback)))]))

/-- Declarations that are part of no outline. -/
def otherDeclarations : List R :=
  let path : R := .seq anyName (.many (.seq dot anyName))
  if d.isTyped then
    [.all [.opt (softWord d "async"), kw "function", anyName, .call (.signature .closing),
       ending d .heading],
     .all [.alt (softWord d "module") (softWord d "namespace"),
       .alt (.token stringLiteral) path, .opt (.call .block)],
     .all [kw "import", anyName, op "=", path, ending d .plain],
     .all [softWord d "declare", .any
       [.seq (kw "global") (.call .block),
        .all [kw "module", dot, anyName, typeMark .closing, ending d .plain],
        .call .declaration]]]
  else []

/-- A declaration. -/
def declarationRule : R :=
  .any (recordedDeclarations d ++ (otherDeclarations d).map (.mark .otherDeclaration))

/-! ## Imports and exports -/

/-- A string that names a module. -/
def fromClause : R := .seq (kw "from") (.mark .source (.token stringLiteral))

/-- The words that take only the types of what is imported or exported. -/
def typeOnly : List R := typed d (kws ["type", "typeof"])

/-- The end of one entry in a list of names. -/
def entryEnd : R := .ahead (.alt (p ",") (p "\x7d"))

/-- An import statement. -/
def importRule : R :=
  let namespaceImport : R := .all [p "*", kw "as", .mark .importNamespace (boundName d)]
  let entry : R :=
    .seq (.alt
      (.all [.mark .importName (.alt anyName (.token stringLiteral)), kw "as", boundName d])
      (.mark .importName (boundName d))) entryEnd
  let named : R := braces (trailing (.any ((typeOnly d).map (.seq · entry) ++ [entry])))
  let clause : R :=
    .any [namespaceImport, named,
      .seq (.mark .importDefault (boundName d))
        (.opt (.seq (p ",") (.alt namespaceImport named)))]
  let plain : R := .alt (.seq clause fromClause) (.mark .source (.token stringLiteral))
  let required : R :=
    .all [anyName, op "=", kw "require", parens (.token stringLiteral)]
  .mark .importStatement (.all
    [kw "import",
     .any ((typeOnly d).map (.seq · (.alt plain required)) ++ [plain] ++ typed d required),
     .opt (.seq (kw "with") (.call .object)), ending d .plain])

/-- An export statement. -/
def exportRule : R :=
  let start : R := softWord d "export"
  let moduleName : R := .alt anyName (.token stringLiteral)
  let entry : R :=
    .all [.mark .specifierName moduleName,
      .opt (.seq (kw "as") (.mark .specifierAlias moduleName)), entryEnd]
  let list : R :=
    braces (trailing (.mark .specifier (.any ((typeOnly d).map (.seq · entry) ++ [entry]))))
  let spaceName : R :=
    if d.isTyped then .mark .namespaceName moduleName
    else .alt (kw "default") (.mark .namespaceName moduleName)
  let value : R := .alt
    (.seq (.mark .exportedName (.seq (.unless (kw "undefined")) (ordinaryName d)))
      (ending d .expression))
    (.seq (.mark .exportedValue (.call (.expression .closing))) (ending d .expression))
  .mark .exportStatement (.any
    ([.all [start, .any
        [.seq (p "*") fromClause,
         .all [p "*", kw "as", spaceName, fromClause],
         .seq list (.opt fromClause)], ending d .plain]] ++
     typed d (.all [start, kw "type", list, .opt fromClause, ending d .plain]) ++
     typed d (.all [start, op "=", .mark .otherStatement (.call (.expression .closing)),
       ending d .expression]) ++
     typed d (.all [start, kw "as", kw "namespace", anyName, ending d .plain]) ++
     [.all [.call .decorators, start, .alt
        (.all [kw "default", .alt (.call .declaration)
            (.seq (.unless (.any (typed d (kws declarationWords)))) value)]) (.call .declaration)]]))

/-! ## Statements -/

/-- The head of a loop over the members of something. -/
def eachHead : R :=
  let declared : R :=
    .all [.any [softWord d "let", kw "const", kw "var"], .call .binding,
      .opt (.seq (op "=") (.call (.operand .enclosed)))]
  parens (.all [.alt declared (.call (.target .enclosed)), kws ["in", "of"],
    .call (.expressions .enclosed)])

/-- The head of a counting loop. -/
def countHead : R :=
  let exprs : R := .call (.expressions .enclosed)
  parens (.all
    [.any [.seq (.any [softWord d "let", kw "const", kw "var"]) (.call .declarators),
           .seq exprs (p ";"), p ";"],
     .alt (.seq exprs (p ";")) (p ";"), .opt exprs])

/-- Statements that are neither declarations nor imports nor exports, and comments that stand between
    statements. -/
def otherStatements : List R :=
  let condition : R := parens (.call (.expressions .enclosed))
  let condition : R :=
    if d.isTyped then .alt (parens (.seq (.call (.expression .enclosed))
      (.opt (typeMark .enclosed)))) condition
    else condition
  let body : R := .call .statement
  let closing : R := .call (.expressions .closing)
  [.call .block,
   p ";",
   .all [kw "if", condition, body, .opt (.seq (kw "else") body)],
   .all [kw "switch", condition, braces (.many (.seq
     (.alt (.all [kw "case", .call (.expressions .enclosed), p ":"]) (.seq (kw "default") (p ":")))
     (.many body)))],
   .all [kw "for", .alt (.seq (.opt (kw "await")) (eachHead d)) (countHead d), body],
   .all [kw "while", condition, body],
   .all [kw "do", body, kw "while", condition, .opt (ending d .plain)],
   .all [kw "try", .call .block,
     .opt (.all [kw "catch", .opt (parens (.seq (.call .binding) (annotated d .enclosed))),
       .call .block]),
     .opt (.seq (kw "finally") (.call .block))],
   .all [kw "with", condition, body],
   .all [kws ["break", "continue"], .alt (ending d .plain) (.seq anyName (ending d .plain))],
   .seq (kw "debugger") (ending d .plain),
   .seq (kw "return") (.alt (ending d .plain) (.seq closing (ending d .expression))),
   .all [kw "throw", closing, ending d .expression],
   .all [ordinaryName d, p ":", body],
   .all [.unless (kws statementWords), .unless (.any (typed d (kws declarationWords))),
     .unless (.seq (softWord d "export") (.any (p "*" :: typed d (kw "as")))), closing, ending d .expression],
   .token pageComment]

/-- A statement. -/
def statementRule : R :=
  .any [.call .exportStatement, .call .importStatement, .call .declaration,
    .mark .otherStatement (.any (otherStatements d))]

/-- Statements between braces. -/
def blockRule : R := .mark .otherStatement (braces (.many (.call .statement)))

/-- A whole script: perhaps a line for the system that runs it, then statements to the end. -/
def programRule : R :=
  let hashBang : R := .raw fun src i =>
    if i == 0 || (i == 1 && src.code 0 == 0xFEFF) then
      if src.startsWith ['#', '!'] i then some (src.takeWhile (· != 0x0A) i) else none
    else none
  .all [.opt hashBang, .many (.call .statement),
    .unless (.token fun src i => (src.get? i).map fun _ => i)]

/-- The rule that a symbol stands for. -/
def rule : Sym → R
  | .program => programRule
  | .statement => statementRule d
  | .block => blockRule
  | .declaration => declarationRule d
  | .exportStatement => exportRule d
  | .importStatement => importRule d
  | .binding => bindingRule d
  | .declarators => declaratorsRule d
  | .decorators => decoratorsRule d
  | .functionRest => functionRestRule d
  | .classRest => classRestRule d
  | .classBody => classBodyRule
  | .classMember => classMemberRule d
  | .expressions pos => .sep1 (onward d pos (p ",")) (.call (.expression pos))
  | .expression pos => expressionRule d pos
  | .operand pos => operandRule d pos
  | .chain pos => chainRule d pos
  | .target pos => targetRule d pos
  | .arrow pos => arrowRule d pos
  | .base => baseRule d
  | .arguments => argumentsRule
  | .template => templateRule
  | .object => objectRule d
  | .array => arrayRule
  | .objectPattern => objectPatternRule
  | .arrayPattern => arrayPatternRule
  | .pattern => patternRule
  | .propertyName => propertyNameRule
  | .parameters => parametersRule d
  | .signature pos => signatureRule d pos
  | .markup => markupRule d
  | .markupChild => markupChildRule
  | .markupAttribute => markupAttributeRule
  | .type pos => typeRule d pos
  | .typeMember pos => typeMemberRule d pos
  | .primaryType => primaryTypeRule
  | .objectType => objectTypeRule d
  | .objectTypeMember => objectTypeMemberRule d
  | .typeArguments => typeArgumentsRule
  | .typeParameters => typeParametersRule

/-- More than the depth of any reading: between two characters no more rules than this are entered
    one inside the other. -/
def depthPerCharacter : Nat := 400

/-- The marks of a script's statements, or none where the script is ill-formed. -/
def statements (src : Source) : Option (List (Mark Label)) :=
  let fuel := depthPerCharacter * (src.size + 2)
  match (Rule.run (rule d) src fuel (.call .program) 0 ∅).1 with
  | some (_, marks) => some marks
  | none => none

end Grammar

end PatchReview.Script
