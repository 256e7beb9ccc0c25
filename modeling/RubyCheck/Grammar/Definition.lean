import RubyCheck.Grammar.Block
import RubyCheck.Grammar.Literal

/-!
# Definitions

Methods, classes and modules, and the statements that name methods or run at the beginning and the end of
a program. The body of a definition sees none of the variables around it.
-/

namespace RubyCheck.Grammar

/-! ### Methods -/

/-- Whether a token of this kind can be the name of a method. -/
def namesMethod (k : TokenKind) : Bool :=
  k == .identifier || k == .constant || k.isOperatorMethod || k.isKeyword

/-- Whether a token names an object whose own method is defined, as in `def self.name`. -/
def namesOwner (t next : Token) : Bool :=
  (t.kind == .keyword .self_ || t.kind == .identifier || t.kind == .constant) &&
    next.kind == .punct .dot

/-- The object whose own method is defined, if there is one, with its dot. -/
def owner : Parser String := do
  if ← view fun s => namesOwner s.tape.current s.tape.next then
    let name := (← advance).text
    drop
    return name ++ "."
  else return ""

/-- The name behind `def`. -/
def methodName : Parser String := do
  let owner ← owner
  if namesMethod (← kind) then return owner ++ (← advance).text else refuse "method name"

/-- The parameters of a method, in parentheses or without. -/
def methodParameters (g : Grammar) : Parser Node := do
  let start ← here
  let k ← kind
  let parameters ←
    if k == .punct .lParen then (do parameterList g (← advance))
    else if k.isTerminator || k == .punct .eq then pure []
    else bareParameters g
  finish .parameters start parameters

/-- The body of a method: statements up to `end`, or behind an equals sign a single one. -/
def methodBody (g : Grammar) (opener : Token) : Parser (List Node) := do
  if ← accept (.punct .eq) then
    skipBreaks
    let value ← g.parse .statement
    return [.inner .statements value.span [value]]
  else body g opener

/-- A method. -/
def method (g : Grammar) : Parser Node := do
  let opener ← advance
  let name ← methodName
  inScope true <| allowingDo do
    let parameters ← methodParameters g
    let body ← methodBody g opener
    finishNamed .methodDef opener.span.start name (parameters :: body)

/-! ### Classes and modules -/

/-- What follows the first name of a path of constants, as it is written. -/
def constantPathRest (g : Grammar) (path : String) : Parser String :=
  iterate (fun path => do
    if ← view fun s => s.tape.kind == .punct .colonColon && !s.tape.current.spaced then
      drop
      return .again (path ++ "::" ++ (← expect .constant).text)
    else return .done path) g.rounds path

/-- A path of constants, as it is written. -/
def constantPath (g : Grammar) : Parser String := do
  let outermost ← accept (.punct .colonColon)
  let name := (← expect .constant).text
  constantPathRest g (if outermost then "::" ++ name else name)

/-- The body of a class or module. -/
def scopedBody (g : Grammar) (opener : Token) : Parser (List Node) :=
  inScope true (allowingDo (body g opener))

/-- A class, or the body of an object's own class. -/
def classDefinition (g : Grammar) : Parser Node := do
  let opener ← advance
  if ← accept (.punct .shl) then
    let target ← g.parse .expression
    let body ← scopedBody g opener
    finish .singletonClass opener.span.start (target :: body)
  else
    let name ← constantPath g
    let parent ←
      if ← accept (.punct .lt) then (do return [← g.parse .expression]) else pure []
    let body ← scopedBody g opener
    finishNamed .classDef opener.span.start name (parent ++ body)

/-- A module. -/
def moduleDefinition (g : Grammar) : Parser Node := do
  let opener ← advance
  let name ← constantPath g
  let body ← scopedBody g opener
  finishNamed .moduleDef opener.span.start name body

/-! ### Names and hooks -/

/-- A method that is named: bare or as a symbol; or a global variable. -/
def methodReference : Parser Node := do
  let k ← kind
  if k == .globalVariable then takeLeaf .globalVariable
  else if k == .symbol then symbol
  else if namesMethod k then takeLeaf .symbol
  else refuse "method name"

/-- An `alias`. -/
def alias_ : Parser Node := do
  let start ← here
  drop
  let newName ← methodReference
  let oldName ← methodReference
  finish .alias_ start [newName, oldName]

/-- An `undef`. -/
def undef (g : Grammar) : Parser Node := do
  let start ← here
  drop
  finish .undef_ start (← separated g.rounds (pure ()) methodReference)

/-- Statements that run at the beginning or the end of the program. -/
def hook (g : Grammar) (k : NodeKind) : Parser Node := do
  let keyword ← advance
  let opener ← expect (.punct .lBrace)
  let statements ← inScope false (allowingDo (g.parse (.statements [.punct .rBrace])))
  expectCloser opener (.punct .rBrace)
  finish k keyword.span.start [statements]

end RubyCheck.Grammar
