import RubyCheck.Arena.Machine
import RubyCheck.Grammar.Definition

/-!
# Lists, arguments, parameters and literals in an arena

What the other constructs are made of: items with commas between them, targets of assignments, arguments of
calls, parameters, and literals.
-/

namespace RubyCheck.Arena

open Grammar (Goal Round unclosed)

/-- The productions one level further in. -/
structure Productions where
  /-- How often a repetition may go round. -/
  rounds : Nat
  parse : Goal → Parser NodeId

/-! ### Repetition -/

/-- Goes round from a seed until the repetition is over. -/
def iterate {σ α : Type} (body : σ → Parser (Round σ α)) : Nat → σ → Parser α
  | 0, _ => throw .exhausted
  | rounds + 1, s => do
    match ← body s with
    | .again s => iterate body rounds s
    | .done a => pure a

/-- The end of a round that goes on if a comma follows. -/
def unlessComma {σ α : Type} (behindComma : Parser Unit) (s : σ) (a : α) : Parser (Round σ α) := do
  if ← accept (.punct .comma) then
    behindComma
    return .again s
  else return .done a

/-- Items with commas between them; `behindComma` is read behind each comma. -/
def separated (rounds : Nat) (behindComma : Parser Unit) (item : Parser NodeId) :
    Parser (List NodeId) :=
  iterate (fun seen => do
    let seen := (← item) :: seen
    unlessComma behindComma seen seen.reverse) rounds []

/-- Several values between which commas stood are one array. -/
def arrayOf (start : Position) (values : List NodeId) : Parser NodeId := do
  if values.length == 1 then inRange values[0]? else finish .array start values

/-! ### Items between brackets -/

/-- What stands behind an item and a line break. -/
def behindBreak (opener : Token) (closer : TokenKind) (seen : List NodeId) :
    Parser (Round (List NodeId) (List NodeId)) := do
  let k ← kindBehindBreaks
  if k == closer then return .again seen
  else if k == .punct .comma then
    skipBreaks
    drop
    return .again seen
  else if k == .eof then fail (unclosed opener closer true)
  else
    report (unclosed opener closer false)
    return .done seen.reverse

/-- What stands behind an item. -/
def behindItem (opener : Token) (closer : TokenKind) (seen : List NodeId) :
    Parser (Round (List NodeId) (List NodeId)) := do
  let k ← kind
  if k == .punct .comma then
    drop
    return .again seen
  else if k == closer then return .again seen
  else if k == .newline then behindBreak opener closer seen
  else if k == .eof then fail (unclosed opener closer true)
  else refuse s!"`,` or `{closer.display}`"

/-- One item, or the closer. -/
def itemOrCloser (opener : Token) (closer : TokenKind) (item : Parser NodeId) (seen : List NodeId) :
    Parser (Round (List NodeId) (List NodeId)) := do
  skipBreaks
  if ← accept closer then return .done seen.reverse
  else if ← atEnd then fail (unclosed opener closer true)
  else behindItem opener closer ((← item) :: seen)

/-- The items behind an opener, with their closer. -/
def items (g : Productions) (opener : Token) (closer : TokenKind) (item : Parser NodeId) :
    Parser (List NodeId) :=
  iterate (itemOrCloser opener closer item) g.rounds []

/-! ### What can be assigned to -/

/-- Whether a node is the attribute of a receiver and no more. -/
def isAttribute (c : Cell) : Parser Bool := do
  if c.children.length == 1 then
    let receiver ← node (← inRange c.children[0]?)
    return receiver.kind != .arguments && receiver.kind != .block
  else return false

/-- Makes a node that was read as an expression the target of an assignment. -/
def assignable (id : NodeId) : Parser NodeId := do
  let c ← node id
  match c.kind with
  | .localVariable | .localTarget =>
    change id fun c => { c with kind := .localTarget }
    return id
  | .instanceVariable | .classVariable | .globalVariable | .constant | .scopedConstant | .index =>
    return id
  | .call =>
    if c.children.isEmpty && Grammar.isVariableName (c.text.getD "") then
      declare (c.text.getD "")
      change id fun c => { c with kind := .localTarget }
      return id
    else if ← isAttribute c then return id
    else fail ⟨.cannotAssign (Grammar.targetName c.kind), c.span⟩
  | k => fail ⟨.cannotAssign (Grammar.targetName k), c.span⟩

/-! ### Arguments -/

/-- Whether an operand begins here. -/
def atOperand : Parser Bool := return Grammar.startsOperand (← kind)

/-- Whether the parenthesis of arguments opens here. -/
def atParenArguments : Parser Bool := return Grammar.opensArguments (← current)

/-- Whether the first argument of a call without parentheses begins here. -/
def atCommandArguments : Parser Bool := do
  let t ← current
  return Grammar.beginsArgument t (← peek 1)

/-- Arguments in parentheses. -/
def parenArguments (g : Productions) : Parser NodeId := do
  let opener ← advance
  let nodes ← allowingDo (items g opener (.punct .rParen) (g.parse .argument))
  finish .arguments opener.span.start nodes

/-- Arguments without parentheses. -/
def commandArguments (g : Productions) : Parser NodeId := do
  let start ← here
  let nodes ← withholdingDo (separated g.rounds skipBreaks (g.parse .argument))
  finish .arguments start nodes

/-- The arguments behind a name, if there are any. -/
def callArguments (g : Productions) : Parser (List NodeId) := do
  if ← atParenArguments then
    return [← parenArguments g]
  else if ← atCommandArguments then
    return [← commandArguments g]
  else return []

/-- Whether a name is a local variable here and no parenthesis follows. -/
def atVariable (name : String) : Parser Bool := do
  let known ← isLocal name
  return known && !(← atParenArguments)

/-- A bare name: a local variable if it is one here and no parenthesis follows, else a call. -/
def bareName (g : Productions) : Parser NodeId := do
  let start ← here
  let name := (← advance).text
  if ← atVariable name then
    leaf .localVariable name
  else finishNamed .call start name (← callArguments g)

/-- A constant, or a call of a method that is named like one. -/
def constant (g : Productions) : Parser NodeId := do
  let start ← here
  let name := (← advance).text
  if ← atParenArguments then
    finishNamed .call start name [← parenArguments g]
  else leaf .constant name

/-- A call that a keyword makes, such as `yield`. -/
def keywordCall (g : Productions) (k : NodeKind) : Parser NodeId := do
  let start ← here
  drop
  finish k start (← callArguments g)

/-- A key with its value; a key alone reads the variable or method of its name. -/
def labelPair (g : Productions) : Parser NodeId := do
  let start ← here
  let name := Grammar.labelName (← advance).text
  let key ← leaf .symbol name
  let value ←
    if Grammar.endsLabel (← kind) then
      leaf (if ← isLocal name then .localVariable else .call) name
    else g.parse .expression
  finish .pair start [key, value]

/-! ### Parameters -/

/-- A default value. -/
def defaultValue (g : Productions) (inBlock : Bool) : Parser NodeId :=
  g.parse (if inBlock then .unary else .ternary)

/-- The parameters behind a parenthesis, with the one that closes it. -/
def parameterList (g : Productions) (opener : Token) : Parser (List NodeId) :=
  items g opener (.punct .rParen) (g.parse (.parameter false))

/-- A parameter. -/
def parameter (g : Productions) (inBlock : Bool) : Parser NodeId := do
  let start ← here
  match ← kind with
  | .identifier =>
    let name := (← advance).text
    declare name
    let value ← if ← accept (.punct .eq) then (do return [← defaultValue g inBlock]) else pure []
    finishNamed .parameter start name value
  | .label =>
    let name := Grammar.labelName (← advance).text
    declare name
    let value ←
      if Grammar.endsParameter (← kind) then pure [] else (do return [← defaultValue g inBlock])
    finishNamed .parameter start name value
  | .punct .star | .punct .pow | .punct .amp =>
    drop
    if ← check .identifier then
      let name := (← advance).text
      declare name
      finishNamed .parameter start name []
    else finishNamed .parameter start "" []
  | .punct .dotDotDot => takeAs .parameter "..."
  | .punct .lParen =>
    let opener ← advance
    finish .multiTargets start (← parameterList g opener)
  | _ => refuse "parameter"

/-- Parameters without parentheses. -/
def bareParameters (g : Productions) : Parser (List NodeId) :=
  separated g.rounds (pure ()) (parameter g false)

/-! ### Literals -/

/-- Code inside a literal. -/
def interpolation (g : Productions) : Parser NodeId := do
  let start ← here
  drop
  let statements ← allowingDo (g.parse (.statements [.interpolationEnd]))
  discard <| expect .interpolationEnd
  finish .interpolation start [statements]

/-- One piece of a literal behind the content and the code read so far, or its end. -/
def piece (g : Productions) (seen : String × List NodeId) :
    Parser (Round (String × List NodeId) (String × List NodeId)) := do
  match ← kind with
  | .stringContent => return .again (seen.1 ++ (← advance).text, seen.2)
  | .interpolationBegin => return .again (seen.1, (← interpolation g) :: seen.2)
  | .stringEnd =>
    drop
    return .done (seen.1, seen.2.reverse)
  | _ => refuse "end of string"

/-- A string or regular expression. Its text is its content, unless code stands in it. -/
def quoted (g : Productions) (k : NodeKind) : Parser NodeId := do
  let start ← here
  drop
  let (content, code) ← iterate (piece g) g.rounds ("", [])
  if code.isEmpty then finishNamed k start content [] else finish k start code

/-- A percent literal that is one token: a string, or a list of words. -/
def percentLiteral : Parser NodeId := do
  let text := (← advance).text
  leaf (if text.startsWith "%q" then .string else .words) text

/-- A symbol. -/
def symbol : Parser NodeId := do
  leaf .symbol (Grammar.symbolName (← advance).text)

/-- An array. -/
def array (g : Productions) : Parser NodeId := do
  let opener ← advance
  let nodes ← allowingDo (items g opener (.punct .rBracket) (g.parse .argument))
  finish .array opener.span.start nodes

/-- A key with its value, or a hash to be merged. -/
def hashItem (g : Productions) : Parser NodeId := do
  let start ← here
  match ← kind with
  | .label => labelPair g
  | .punct .pow =>
    drop
    finish .doubleSplat start [← g.parse .ternary]
  | _ =>
    let key ← g.parse .expression
    discard <| expect (.punct .fatArrow)
    skipBreaks
    finish .pair start [key, ← g.parse .expression]

/-- A hash. -/
def hash (g : Productions) : Parser NodeId := do
  let opener ← advance
  let nodes ← allowingDo (items g opener (.punct .rBrace) (hashItem g))
  finish .hash opener.span.start nodes

/-- Statements in parentheses. -/
def paren (g : Productions) : Parser NodeId := do
  let opener ← advance
  let statements ← allowingDo (g.parse (.statements [.punct .rParen]))
  expectCloser opener (.punct .rParen)
  finish .paren opener.span.start [statements]

end RubyCheck.Arena
