import RubyCheck.Grammar.Body
import RubyCheck.Grammar.Parameter

/-!
# Blocks and anonymous functions

A block stands between braces, or between `do` and `end`, and may begin with parameters between bars. Names
that it declares are not seen outside it.
-/

namespace RubyCheck.Grammar

/-- The parameters between bars, up to the bar or semicolon that ends them. -/
def barredParameters (g : Grammar) : Parser (List Node) :=
  iterate (fun seen => do
    let k ← kind
    if k == .punct .pipe || k == .punct .semicolon then return .done seen.reverse
    else
      let seen := (← parameter g true) :: seen
      unlessComma (pure ()) seen seen.reverse) g.rounds []

/-- A variable of a block. -/
def blockLocal : Parser Node := do
  let name := (← expect .identifier).text
  declare name
  leaf .blockLocal name

/-- The variables of a block, behind a semicolon. -/
def blockLocals (g : Grammar) : Parser (List Node) := do
  if ← accept (.punct .semicolon) then separated g.rounds (pure ()) blockLocal else return []

/-- The bar that ends block parameters. At a line break the bar that opened them is reported, and the body
follows. -/
def closingBar (opener : Token) : Parser Unit := do
  if ← check .newline then report (unclosed opener (.punct .pipe) false)
  else discard <| expect (.punct .pipe)

/-- The parameters of a block, if it has any. Two bars are an empty list. -/
def blockParameters (g : Grammar) : Parser (List Node) := do
  let start ← here
  if ← accept (.punct .pipePipe) then return [← finish .blockParameters start []]
  else if ← check (.punct .pipe) then
    let opener ← advance
    let parameters ← barredParameters g
    let locals ← blockLocals g
    closingBar opener
    return [← finish .blockParameters start (parameters ++ locals)]
  else return []

/-- The statements between braces, with the closing one. -/
def bracedStatements (g : Grammar) (opener : Token) : Parser Node := do
  let statements ← g.parse (.statements [.punct .rBrace])
  expectCloser opener (.punct .rBrace)
  return statements

/-- A block between braces. -/
def braceBlock (g : Grammar) : Parser Node := do
  let opener ← advance
  inScope false <| allowingDo do
    let parameters ← blockParameters g
    let statements ← bracedStatements g opener
    finish .block opener.span.start (parameters ++ [statements])

/-- The rest of a block behind `do`, or behind the place where it should have been. -/
def doBlockBehind (g : Grammar) (opener : Token) : Parser Node :=
  inScope false <| allowingDo do
    let parameters ← blockParameters g
    let body ← body g opener
    finish .block opener.span.start (parameters ++ body)

/-- A block between `do` and `end`. -/
def doBlock (g : Grammar) : Parser Node := do
  doBlockBehind g (← advance)

/-- The parameters of an anonymous function, if it has any. -/
def lambdaParameters (g : Grammar) : Parser (List Node) := do
  let start ← here
  let k ← kind
  if k == .punct .lParen then
    let opener ← advance
    return [← finish .blockParameters start (← parameterList g opener)]
  else if k == .punct .lBrace || k == .keyword .do_ then return []
  else return [← finish .blockParameters start (← bareParameters g)]

/-- The body of an anonymous function. -/
def lambdaBody (g : Grammar) : Parser (List Node) := do
  match ← kind with
  | .punct .lBrace =>
    let opener ← advance
    return [← bracedStatements g opener]
  | .keyword .do_ =>
    let opener ← advance
    body g opener
  | _ => refuse "`\x7b` or `do`"

/-- An anonymous function. -/
def lambda (g : Grammar) : Parser Node := do
  let arrow ← advance
  inScope false <| allowingDo do
    let parameters ← lambdaParameters g
    let body ← lambdaBody g
    finish .lambda arrow.span.start (parameters ++ body)

end RubyCheck.Grammar
