import RubyCheck.Arena.Phrase
import RubyCheck.Grammar.Control

/-!
# Constructs in an arena

Bodies and blocks, control flow and definitions: the constructs that a keyword or a bracket begins.
-/

namespace RubyCheck.Arena

open Grammar (Round bodyStops clauseStops unclosed)

/-! ### Bodies -/

/-- What separates a condition from the statements behind it. -/
def separator (keyword : Token) (doMayStand : Bool) : Parser Unit := do
  match ← kind with
  | .keyword .then_ => drop
  | .newline | .punct .semicolon =>
    skipTerminators
    discard <| accept (.keyword .then_)
  | .eof => pure ()
  | k =>
    if doMayStand && k == .keyword .do_ then drop
    else report ⟨.missingSeparator keyword.text, (← current).span⟩

/-- A condition and what separates it from the statements behind it. -/
def condition (g : Productions) (keyword : Token) (doMayStand : Bool) : Parser NodeId := do
  let p := g.parse .expressionStatement
  let node ← if doMayStand then withholdingDo p else p
  separator keyword doMayStand
  return node

/-- A keyword and the statements behind it. -/
def clause (g : Productions) (k : NodeKind) (stops : List TokenKind) : Parser NodeId := do
  let start ← here
  drop
  finish k start [← g.parse (.statements stops)]

/-- A clause, if the keyword that begins it stands here. -/
def clauseIf (g : Productions) (keyword : Keyword) (k : NodeKind) (stops : List TokenKind) :
    Parser (List NodeId) := do
  if ← check (.keyword keyword) then return [← clause g k stops] else return []

/-- An `else` branch up to `end`, if there is one. -/
def elseBranch (g : Productions) : Parser (List NodeId) :=
  clauseIf g .else_ .else_ [.keyword .end_]

/-- The `end` that closes a construct. -/
def expectEnd (opener : Token) : Parser Unit := expectCloser opener (.keyword .end_)

/-- A `rescue` clause: the classes, perhaps a variable, and the statements. -/
def rescueClause (g : Productions) : Parser NodeId := do
  let keyword ← advance
  let start ← here
  let classes ←
    if Grammar.endsClasses (← kind) then pure [] else separated g.rounds skipBreaks (g.parse .ternary)
  let classes ← finish .arguments start classes
  let target ←
    if ← accept (.punct .fatArrow) then (do return [← assignable (← g.parse .chain)]) else pure []
  separator keyword false
  let body ← g.parse (.statements bodyStops)
  finish .rescueClause keyword.span.start (classes :: target ++ [body])

/-- The `rescue` clauses that stand here. -/
def rescueClauses (g : Productions) : Parser (List NodeId) :=
  iterate (fun seen => do
    if ← check (.keyword .rescue_) then return .again ((← rescueClause g) :: seen)
    else return .done seen.reverse) g.rounds []

/-- A body up to the `end` that closes its opener: the statements and the clauses behind them. -/
def body (g : Productions) (opener : Token) : Parser (List NodeId) := do
  let statements ← g.parse (.statements bodyStops)
  let rescues ← rescueClauses g
  let otherwise ← clauseIf g .else_ .else_ [.keyword .ensure_, .keyword .end_]
  let ensures ← clauseIf g .ensure_ .ensureClause [.keyword .end_]
  expectEnd opener
  return statements :: (rescues ++ otherwise ++ ensures)

/-! ### Blocks and anonymous functions -/

/-- The parameters between bars, up to the bar or semicolon that ends them. -/
def barredParameters (g : Productions) : Parser (List NodeId) :=
  iterate (fun seen => do
    let k ← kind
    if k == .punct .pipe || k == .punct .semicolon then return .done seen.reverse
    else
      let seen := (← parameter g true) :: seen
      unlessComma (pure ()) seen seen.reverse) g.rounds []

/-- A variable of a block. -/
def blockLocal : Parser NodeId := do
  let name := (← expect .identifier).text
  declare name
  leaf .blockLocal name

/-- The variables of a block, behind a semicolon. -/
def blockLocals (g : Productions) : Parser (List NodeId) := do
  if ← accept (.punct .semicolon) then separated g.rounds (pure ()) blockLocal else return []

/-- The bar that ends block parameters. -/
def closingBar (opener : Token) : Parser Unit := do
  if ← check .newline then report (unclosed opener (.punct .pipe) false)
  else discard <| expect (.punct .pipe)

/-- The parameters of a block, if it has any. Two bars are an empty list. -/
def blockParameters (g : Productions) : Parser (List NodeId) := do
  let start ← here
  if ← accept (.punct .pipePipe) then return [← finish .blockParameters start []]
  else if ← check (.punct .pipe) then
    let opener ← advance
    let parameters ← barredParameters g
    let locals ← blockLocals g
    closingBar opener
    return [← finish .blockParameters start (parameters ++ locals)]
  else return []

/-- The statements between braces, with the closing one. -/
def bracedStatements (g : Productions) (opener : Token) : Parser NodeId := do
  let statements ← g.parse (.statements [.punct .rBrace])
  expectCloser opener (.punct .rBrace)
  return statements

/-- A block between braces. -/
def braceBlock (g : Productions) : Parser NodeId := do
  let opener ← advance
  inScope false <| allowingDo do
    let parameters ← blockParameters g
    let statements ← bracedStatements g opener
    finish .block opener.span.start (parameters ++ [statements])

/-- The rest of a block behind `do`, or behind the place where it should have been. -/
def doBlockBehind (g : Productions) (opener : Token) : Parser NodeId :=
  inScope false <| allowingDo do
    let parameters ← blockParameters g
    let body ← body g opener
    finish .block opener.span.start (parameters ++ body)

/-- A block between `do` and `end`. -/
def doBlock (g : Productions) : Parser NodeId := do
  doBlockBehind g (← advance)

/-- The parameters of an anonymous function, if it has any. -/
def lambdaParameters (g : Productions) : Parser (List NodeId) := do
  let start ← here
  let k ← kind
  if k == .punct .lParen then
    let opener ← advance
    return [← finish .blockParameters start (← parameterList g opener)]
  else if k == .punct .lBrace || k == .keyword .do_ then return []
  else return [← finish .blockParameters start (← bareParameters g)]

/-- The body of an anonymous function. -/
def lambdaBody (g : Productions) : Parser (List NodeId) := do
  match ← kind with
  | .punct .lBrace =>
    let opener ← advance
    return [← bracedStatements g opener]
  | .keyword .do_ =>
    let opener ← advance
    body g opener
  | _ => refuse "`\x7b` or `do`"

/-- An anonymous function. -/
def lambda (g : Productions) : Parser NodeId := do
  let arrow ← advance
  inScope false <| allowingDo do
    let parameters ← lambdaParameters g
    let body ← lambdaBody g
    finish .lambda arrow.span.start (parameters ++ body)

/-! ### Conditionals and loops -/

/-- A condition and what follows it, up to `end`; behind `elsif` the same again. -/
def branch (g : Productions) (keyword : Token) : Parser NodeId := do
  let test ← condition g keyword false
  let body ← g.parse (.statements [.keyword .elsif_, .keyword .else_, .keyword .end_])
  let otherwise ←
    if ← check (.keyword .elsif_) then
      let keyword ← advance
      (do return [← nested (g.parse (.branch keyword))])
    else elseBranch g
  finish .if_ keyword.span.start (test :: body :: otherwise)

/-- An `if` with its `end`. -/
def conditional (g : Productions) : Parser NodeId := do
  let opener ← advance
  let id ← branch g opener
  expectEnd opener
  let last ← previous
  change id fun c => { c with span := ⟨c.span.start, last.span.stop⟩ }
  return id

/-- An `unless`. -/
def negatedConditional (g : Productions) : Parser NodeId := do
  let opener ← advance
  let test ← condition g opener false
  let body ← g.parse (.statements [.keyword .else_, .keyword .end_])
  let otherwise ← elseBranch g
  expectEnd opener
  finish .unless_ opener.span.start (test :: body :: otherwise)

/-- The statements of a loop, with its `end`. -/
def loopBody (g : Productions) (opener : Token) : Parser NodeId := do
  let statements ← g.parse (.statements [.keyword .end_])
  expectEnd opener
  return statements

/-- A `while` or `until`. -/
def conditionLoop (g : Productions) (k : NodeKind) : Parser NodeId := do
  let opener ← advance
  let test ← condition g opener true
  let body ← loopBody g opener
  finish k opener.span.start [test, body]

/-- Whether several variables of a `for` stand here. -/
def atTargets : Parser Bool := return (← peek 1).kind == .punct .comma

/-- The variables of a `for`. -/
def loopTarget (g : Productions) : Parser NodeId := do
  if ← atTargets then g.parse (.targets none)
  else assignable (← g.parse .chain)

/-- A `for`. Its variables belong to the scope around it. -/
def iteration (g : Productions) : Parser NodeId := do
  let opener ← advance
  let target ← loopTarget g
  discard <| expect (.keyword .in_)
  let source ← condition g opener true
  let body ← loopBody g opener
  finish .for_ opener.span.start [target, source, body]

/-! ### Choice between clauses -/

/-- What stands in a clause behind its values or its pattern. -/
def clauseBody (g : Productions) (keyword : Token) : Parser NodeId := do
  separator keyword false
  g.parse (.statements clauseStops)

/-- A clause that compares with values. -/
def valueClause (g : Productions) : Parser NodeId := do
  let keyword ← advance
  let start ← here
  let values ← separated g.rounds skipBreaks (g.parse .argument)
  let values ← finish .arguments start values
  let body ← clauseBody g keyword
  finish .when_ keyword.span.start [values, body]

/-- A pattern with its guard, if one follows. -/
def guarded (g : Productions) (start : Position) (pattern : NodeId) : Parser NodeId := do
  match Grammar.guardKind? (← kind) with
  | some k =>
    drop
    finish k start [pattern, ← g.parse .expression]
  | none => return pattern

/-- A clause that matches a pattern. Several elements without brackets are an array. -/
def patternClause (g : Productions) : Parser NodeId := do
  let keyword ← advance
  let start ← here
  let elements ← separated g.rounds (pure ()) (g.parse .argument)
  let pattern ← guarded g start (← arrayOf start elements)
  let body ← clauseBody g keyword
  finish .in_ keyword.span.start [pattern, body]

/-- The clauses that stand here. -/
def clauses (g : Productions) : Parser (List NodeId) :=
  iterate (fun seen => do
    match ← kind with
    | .keyword .when_ => return .again ((← valueClause g) :: seen)
    | .keyword .in_ => return .again ((← patternClause g) :: seen)
    | _ => return .done seen.reverse) g.rounds []

/-- A `case`. -/
def choice (g : Productions) : Parser NodeId := do
  let opener ← advance
  let subject ←
    if Grammar.lacksSubject (← kind) then pure []
    else (do return [← g.parse .expressionStatement])
  skipTerminators
  let clauses ← clauses g
  let otherwise ← elseBranch g
  expectEnd opener
  finish .case_ opener.span.start (subject ++ clauses ++ otherwise)

/-! ### Other keywords -/

/-- A `begin`. -/
def protectedBody (g : Productions) : Parser NodeId := do
  let opener ← advance
  let body ← body g opener
  finish .begin_ opener.span.start body

/-- A keyword that leaves a construct, perhaps with values. Several values are an array. -/
def jump (g : Productions) (k : NodeKind) : Parser NodeId := do
  let start ← here
  drop
  if ← atOperand then
    let valuesStart ← here
    let values ← separated g.rounds skipBreaks (g.parse .argument)
    finish k start [← arrayOf valuesStart values]
  else finish k start []

/-- What stands in the parentheses of `defined?`. -/
def definedOperand (g : Productions) : Parser NodeId := do
  let opener ← advance
  let operand ← allowingDo (g.parse .expressionStatement)
  skipBreaks
  expectCloser opener (.punct .rParen)
  return operand

/-- A `defined?`. -/
def definedTest (g : Productions) : Parser NodeId := do
  let start ← here
  drop
  let operand ← if ← check (.punct .lParen) then definedOperand g else g.parse .unary
  finish .defined start [operand]

/-! ### Definitions -/

/-- Whether an object whose own method is defined is named here. -/
def atOwner : Parser Bool := do
  let t ← current
  return Grammar.namesOwner t (← peek 1)

/-- The object whose own method is defined, if there is one, with its dot. -/
def owner : Parser String := do
  if ← atOwner then
    let name := (← advance).text
    drop
    return name ++ "."
  else return ""

/-- The name behind `def`. -/
def methodName : Parser String := do
  let owner ← owner
  if Grammar.namesMethod (← kind) then return owner ++ (← advance).text else refuse "method name"

/-- The parameters of a method, in parentheses or without. -/
def methodParameters (g : Productions) : Parser NodeId := do
  let start ← here
  let k ← kind
  let parameters ←
    if k == .punct .lParen then (do parameterList g (← advance))
    else if k.isTerminator || k == .punct .eq then pure []
    else bareParameters g
  finish .parameters start parameters

/-- The body of a method: statements up to `end`, or behind an equals sign a single one. -/
def methodBody (g : Productions) (opener : Token) : Parser (List NodeId) := do
  if ← accept (.punct .eq) then
    skipBreaks
    let value ← g.parse .statement
    return [← add ⟨.statements, (← node value).span, none, [value]⟩]
  else body g opener

/-- A method. -/
def method (g : Productions) : Parser NodeId := do
  let opener ← advance
  let name ← methodName
  inScope true <| allowingDo do
    let parameters ← methodParameters g
    let body ← methodBody g opener
    finishNamed .methodDef opener.span.start name (parameters :: body)

/-- Whether two colons that go on with a path of constants stand here. -/
def atPath : Parser Bool := do
  let t ← current
  return t.kind == .punct .colonColon && !t.spaced

/-- What follows the first name of a path of constants, as it is written. -/
def constantPathRest (g : Productions) (path : String) : Parser String :=
  iterate (fun path => do
    if ← atPath then
      drop
      return .again (path ++ "::" ++ (← expect .constant).text)
    else return .done path) g.rounds path

/-- A path of constants, as it is written. -/
def constantPath (g : Productions) : Parser String := do
  let outermost ← accept (.punct .colonColon)
  let name := (← expect .constant).text
  constantPathRest g (if outermost then "::" ++ name else name)

/-- The body of a class or module. -/
def scopedBody (g : Productions) (opener : Token) : Parser (List NodeId) :=
  inScope true (allowingDo (body g opener))

/-- A class, or the body of an object's own class. -/
def classDefinition (g : Productions) : Parser NodeId := do
  let opener ← advance
  if ← accept (.punct .shl) then
    let target ← g.parse .expression
    let body ← scopedBody g opener
    finish .singletonClass opener.span.start (target :: body)
  else
    let name ← constantPath g
    let parent ←
      if ← accept (.punct .lt) then (do return [← g.parse .expression]) else pure []
    let body ← scopedBody g opener
    finishNamed .classDef opener.span.start name (parent ++ body)

/-- A module. -/
def moduleDefinition (g : Productions) : Parser NodeId := do
  let opener ← advance
  let name ← constantPath g
  let body ← scopedBody g opener
  finishNamed .moduleDef opener.span.start name body

/-- A method that is named: bare or as a symbol; or a global variable. -/
def methodReference : Parser NodeId := do
  let k ← kind
  if k == .globalVariable then takeLeaf .globalVariable
  else if k == .symbol then symbol
  else if Grammar.namesMethod k then takeLeaf .symbol
  else refuse "method name"

/-- An `alias`. -/
def alias_ : Parser NodeId := do
  let start ← here
  drop
  let newName ← methodReference
  let oldName ← methodReference
  finish .alias_ start [newName, oldName]

/-- An `undef`. -/
def undef (g : Productions) : Parser NodeId := do
  let start ← here
  drop
  finish .undef_ start (← separated g.rounds (pure ()) methodReference)

/-- Statements that run at the beginning or the end of the program. -/
def hook (g : Productions) (k : NodeKind) : Parser NodeId := do
  let keyword ← advance
  let opener ← expect (.punct .lBrace)
  let statements ← inScope false (allowingDo (g.parse (.statements [.punct .rBrace])))
  expectCloser opener (.punct .rBrace)
  finish k keyword.span.start [statements]

end RubyCheck.Arena
