import RubyCheck.Arena.Construct
import RubyCheck.Grammar.Statement

/-!
# Expressions and statements in an arena

Operands and what is chained to them, operations, assignments, and lists of statements. A list is where
reading recovers: the nodes of a statement that fails are taken out again before the node that stands in for
it is added.
-/

namespace RubyCheck.Arena

open Grammar (Goal Level Round)

/-! ### Operands -/

/-- A constant of the outermost scope. -/
def outermostConstant : Parser NodeId := do
  let start ← here
  drop
  let name := (← expect .constant).text
  finishNamed .scopedConstant start name []

/-- A negation by keyword inside an expression. -/
def negation (g : Productions) : Parser NodeId := do
  let start ← here
  drop
  finish .not_ start [← g.parse .expression]

/-- What a keyword begins. -/
def keywordOperand (g : Productions) : Keyword → Parser NodeId
  | .nil_ => takeAs .nil_ "nil"
  | .true_ => takeAs .true_ "true"
  | .false_ => takeAs .false_ "false"
  | .self_ => takeAs .self_ "self"
  | .redo_ => takeAs .redo_ "redo"
  | .retry_ => takeAs .retry_ "retry"
  | .def_ => method g
  | .class_ => classDefinition g
  | .module_ => moduleDefinition g
  | .alias_ => alias_
  | .undef_ => undef g
  | .beginHook => hook g .beginBlock
  | .endHook => hook g .endBlock
  | .if_ => conditional g
  | .unless_ => negatedConditional g
  | .while_ => conditionLoop g .while_
  | .until_ => conditionLoop g .until_
  | .for_ => iteration g
  | .case_ => choice g
  | .begin_ => protectedBody g
  | .return_ => jump g .return_
  | .break_ => jump g .break_
  | .next_ => jump g .next_
  | .yield_ => keywordCall g .yield_
  | .super_ => keywordCall g .super_
  | .defined_ => definedTest g
  | .not_ => negation g
  | .and_ | .do_ | .else_ | .elsif_ | .end_ | .ensure_ | .in_ | .or_ | .rescue_ | .then_
  | .when_ => refuse "expression"

/-- What a mark begins. -/
def markOperand (g : Productions) : Punct → Parser NodeId
  | .colonColon => outermostConstant
  | .lBracket => array g
  | .lBrace => hash g
  | .lParen => paren g
  | .arrow => lambda g
  | _ => refuse "expression"

/-- An operand. -/
def operand (g : Productions) : Parser NodeId := do
  match ← kind with
  | .integer | .legacyOctal => takeLeaf .integer
  | .float => takeLeaf .float
  | .character => takeLeaf .character
  | .percentLiteral => percentLiteral
  | .stringBegin => quoted g .string
  | .regexBegin => quoted g .regex
  | .symbol => symbol
  | .identifier => bareName g
  | .constant => constant g
  | .instanceVariable => takeLeaf .instanceVariable
  | .classVariable => takeLeaf .classVariable
  | .globalVariable => takeLeaf .globalVariable
  | .keyword word => keywordOperand g word
  | .punct mark => markOperand g mark
  | .stringContent | .stringEnd | .interpolationBegin | .interpolationEnd | .label | .opAssign
  | .newline | .eof => refuse "expression"

/-! ### Chains -/

/-- Whether a node takes a block: a call that has none yet. -/
def takesBlock (id : NodeId) : Parser Bool := do
  let c ← node id
  if c.kind == .call || c.kind == .super_ then
    match c.children.getLast? with
    | some last => return (← node last).kind != .block
    | none => return true
  else return false

/-- A call with a block behind it that reaches up to a position. -/
def Cell.withBlock (block : NodeId) (stop : Position) (c : Cell) : Cell :=
  { c with children := c.children ++ [block], span := ⟨c.span.start, stop⟩ }

/-- Puts a block behind a call. -/
def attach (call block : NodeId) : Parser Unit := do
  let stop := (← node block).span.stop
  change call (Cell.withBlock block stop)

/-- The place of the bar that ends block parameters, if nothing else stands up to it, some places ahead and
on. -/
def closingBarFrom (offset : Nat) : Nat → Parser (Option Nat)
  | 0 => throw .exhausted
  | rounds + 1 => do
    match (← peek offset).kind with
    | .identifier | .punct .comma | .punct .star | .punct .amp => closingBarFrom (offset + 1) rounds
    | .punct .pipe => return some offset
    | _ => return none

/-- Whether the tokens behind a bar are the parameters of a block that was never opened, as in `each |x|` at
the end of a line. -/
def lacksBlockOpener : Parser Bool := do
  match ← closingBarFrom 1 (← lookRounds) with
  | none => return false
  | some offset =>
    if offset == 1 then return false
    else
      let bar ← peek offset
      let next ← peek (offset + 1)
      return next.kind == .newline || next.kind == .eof || bar.span.stop.line < next.span.start.line

/-- The name of the method behind a dot. A parenthesis there calls the receiver. -/
def calledName : Parser String := do
  let k ← kind
  if k == .punct .lParen then return "call"
  else if Grammar.namesMethod k then return (← advance).text
  else refuse "method name"

/-- A call with a receiver, behind the dot. -/
def methodCall (g : Productions) (receiver : NodeId) (start : Position) : Parser NodeId := do
  let name ← calledName
  finishNamed .call start name (receiver :: (← callArguments g))

/-- What stands behind two colons: a constant, unless it is called like a method. -/
def scopedName (g : Productions) (scope : NodeId) (start : Position) : Parser NodeId := do
  let next ← peek 1
  let k ← kind
  if k == .constant && !Grammar.opensArguments next then
    let name := (← advance).text
    finishNamed .scopedConstant start name [scope]
  else if k == .constant || k == .identifier then methodCall g scope start
  else refuse "constant or method name"

/-- An element of a receiver. -/
def element (g : Productions) (receiver : NodeId) (start : Position) : Parser NodeId := do
  let opener ← advance
  let nodes ← allowingDo (items g opener (.punct .rBracket) (g.parse .argument))
  let arguments ← finish .arguments opener.span.start nodes
  finish .index start [receiver, arguments]

/-- A block whose opener is missing. -/
def openerlessBlock (g : Productions) : Parser NodeId := do
  let bar ← current
  report ⟨.missingBlockOpener, bar.span⟩
  doBlockBehind g { Token.empty (.keyword .do_) bar.span.start with text := "do", span := bar.span }

/-- One more link behind a chain, or its end. -/
def link (g : Productions) (start : Position) (id : NodeId) : Parser (Round NodeId NodeId) := do
  let t ← current
  match t.kind with
  | .punct .dot | .punct .ampDot =>
    drop
    return .again (← methodCall g id start)
  | .punct .colonColon =>
    if t.spaced then return .done id
    else
      drop
      return .again (← scopedName g id start)
  | .punct .lBracket =>
    if t.spaced && (← node id).kind == .call then return .done id
    else return .again (← element g id start)
  | .punct .lBrace =>
    if ← takesBlock id then
      let block ← braceBlock g
      attach id block
      return .again id
    else return .done id
  | .keyword .do_ =>
    if (← takesBlock id) && (← doAllowed) then
      let block ← doBlock g
      attach id block
      return .again id
    else return .done id
  | .punct .pipe =>
    if (← takesBlock id) && (← lacksBlockOpener) then
      let block ← openerlessBlock g
      attach id block
      return .again id
    else return .done id
  | _ => return .done id

/-- An operand with everything that is chained to it. -/
def chain (g : Productions) : Parser NodeId := do
  let start ← here
  iterate (link g start) g.rounds (← operand g)

/-! ### Operations -/

/-- An operand and perhaps its exponent. -/
def power (g : Productions) : Parser NodeId := do
  let start ← here
  let base ← chain g
  if ← accept (.punct .pow) then
    let exponent ← nested (g.parse .unary)
    finishNamed .binary start "**" [base, exponent]
  else return base

/-- An operand with its prefix operators, all of which bind looser than a power. -/
def unary (g : Productions) : Parser NodeId := do
  let start ← here
  match ← kind with
  | .punct .bang =>
    drop
    finish .not_ start [← nested (g.parse .unary)]
  | .punct .minus | .punct .plus | .punct .tilde =>
    let operator := (← advance).text
    finishNamed .unary start operator [← nested (g.parse .unary)]
  | _ => power g

/-- The node of a binary operation. -/
def joined (start : Position) (operator : Punct) (left right : NodeId) : Parser NodeId :=
  match operator with
  | .ampAmp => finish .and_ start [left, right]
  | .pipePipe => finish .or_ start [left, right]
  | mark => finishNamed .binary start mark.text [left, right]

/-- One more operator behind an operation and its right side, unless it binds looser than a level. -/
def operatorRound (g : Productions) (least : Level) (start : Position) (left : NodeId) :
    Parser (Round NodeId NodeId) := do
  match Level.ofToken? (← kind) with
  | some (l, operator) =>
    if l.rank < least.rank then return .done left
    else
      drop
      let right ← nested (g.parse (Grammar.rightGoal l))
      return .again (← joined start operator left right)
  | none => return .done left

/-- An operation whose binary operators bind at least as tightly as a level. -/
def binary (g : Productions) (least : Level) : Parser NodeId := do
  let start ← here
  iterate (operatorRound g least start) g.rounds (← unary g)

/-- A range, either end of which may be missing, or what stands at its lower end alone. -/
def range (g : Productions) : Parser NodeId := do
  let start ← here
  if Grammar.isRangeOperator (← kind) then
    let operator := (← advance).text
    finishNamed .range start operator [← binary g .disjunction]
  else
    let lower ← binary g .disjunction
    if Grammar.isRangeOperator (← kind) then
      let operator := (← advance).text
      let upper ← if ← atOperand then (do return [← binary g .disjunction]) else pure []
      finishNamed .range start operator (lower :: upper)
    else return lower

/-- A choice between two values, or the condition alone. -/
def ternary (g : Productions) : Parser NodeId := do
  let start ← here
  let test ← range g
  if ← accept (.punct .question) then
    skipBreaks
    let yes ← nested (g.parse .ternary)
    skipBreaks
    discard <| expect (.punct .colon)
    skipBreaks
    let no ← nested (g.parse .ternary)
    finish .ternary start [test, yes, no]
  else return test

/-! ### Expressions and arguments -/

/-- What is assigned: an expression, or a splatted value. -/
def assignedValue (g : Productions) : Parser NodeId := do
  if ← check (.punct .star) then
    let start ← here
    drop
    finish .splat start [← g.parse .ternary]
  else g.parse .expression

/-- An assignment, or a value alone. -/
def assignment (g : Productions) : Parser NodeId := do
  let start ← here
  let left ← ternary g
  match ← kind with
  | .punct .eq =>
    let target ← assignable left
    drop
    finish .assignment start [target, ← assignedValue g]
  | .opAssign =>
    let target ← assignable left
    let operator := (← advance).text
    finishNamed .opAssignment start operator [target, ← assignedValue g]
  | _ => return left

/-- An expression, one level deeper than what it stands in. -/
def expression (g : Productions) : Parser NodeId := nested (assignment g)

/-- An argument that an operator spreads. -/
def spreadArgument (g : Productions) (k : NodeKind) : Parser NodeId := do
  let start ← here
  drop
  if ← atOperand then finish k start [← g.parse .ternary] else finish k start []

/-- An argument without an operator in front: an expression, or a key with its value. -/
def plainArgument (g : Productions) : Parser NodeId := do
  let start ← here
  let value ← expression g
  if ← accept (.punct .fatArrow) then
    skipBreaks
    finish .pair start [value, ← g.parse .expression]
  else return value

/-- An argument. -/
def argument (g : Productions) : Parser NodeId := do
  let k ← kind
  match Grammar.spreadKind? k with
  | some spread => spreadArgument g spread
  | none => if k == .label then labelPair g else plainArgument g

/-! ### Multiple assignment -/

/-- Whether targets with commas between them and an equals sign behind them stand some places ahead and
on. -/
def assignsSeveralFrom (offset depth : Nat) (comma afterName : Bool) : Nat → Parser Bool
  | 0 => throw .exhausted
  | rounds + 1 => do
    let t ← peek offset
    if 0 < depth then
      match t.kind with
      | .punct .lParen | .punct .lBracket =>
        assignsSeveralFrom (offset + 1) (depth + 1) comma afterName rounds
      | .punct .rParen | .punct .rBracket =>
        let depth ← inRange (Number.minus? depth 1)
        assignsSeveralFrom (offset + 1) depth comma afterName rounds
      | .eof => return false
      | _ => assignsSeveralFrom (offset + 1) depth comma afterName rounds
    else
      match t.kind with
      | .identifier | .constant | .instanceVariable | .classVariable | .globalVariable
      | .keyword .self_ =>
        if afterName then return false
        else assignsSeveralFrom (offset + 1) 0 comma true rounds
      | .punct .comma => assignsSeveralFrom (offset + 1) 0 true false rounds
      | .punct .star | .punct .dot | .punct .ampDot | .punct .colonColon =>
        assignsSeveralFrom (offset + 1) 0 comma false rounds
      | .punct .lParen | .punct .lBracket => assignsSeveralFrom (offset + 1) 1 comma false rounds
      | .punct .eq => return comma
      | _ => return false

/-- Whether a multiple assignment stands here. -/
def assignsSeveral : Parser Bool := do assignsSeveralFrom 0 0 false false (← lookRounds)

/-- One of several targets: what can be assigned to, a splat of it, or targets in parentheses. -/
def target (g : Productions) : Parser NodeId := do
  let start ← here
  match ← kind with
  | .punct .star =>
    drop
    if Grammar.endsTarget (← kind) then finish .splat start []
    else finish .splat start [← assignable (← chain g)]
  | .punct .lParen =>
    drop
    let inner ← g.parse (.targets (some (.punct .rParen)))
    discard <| expect (.punct .rParen)
    return inner
  | _ => assignable (← chain g)

/-- The targets of a multiple assignment. A comma may stand behind the last one. -/
def targets (g : Productions) (closer : Option TokenKind) : Parser NodeId := do
  let start ← here
  let nodes ← iterate (fun seen => do
    let seen := (← target g) :: seen
    if ← accept (.punct .comma) then
      let k ← kind
      if k == .punct .eq || closer == some k then return .done seen.reverse
      else return .again seen
    else return .done seen.reverse) g.rounds []
  finish .multiTargets start nodes

/-- A multiple assignment. Several values are an array. -/
def multipleAssignment (g : Productions) : Parser NodeId := do
  let start ← here
  let left ← targets g none
  discard <| expect (.punct .eq)
  let valueStart ← here
  let values ← separated g.rounds (pure ()) (assignedValue g)
  finish .multipleAssignment start [left, ← arrayOf valueStart values]

/-! ### Single statements -/

/-- An expression, or the negation of one by a keyword. -/
def notExpression (g : Productions) : Parser NodeId := do
  if ← check (.keyword .not_) then
    let start ← here
    drop
    finish .not_ start [← nested (g.parse .notExpression)]
  else expression g

/-- Expressions with `and` and `or` between them, grouped to the left. -/
def junctions (g : Productions) : Parser NodeId := do
  let start ← here
  iterate (fun left => do
    match Grammar.junctionKind? (← kind) with
    | some k =>
      drop
      let right ← notExpression g
      return .again (← finish k start [left, right])
    | none => return .done left) g.rounds (← notExpression g)

/-- A statement without modifiers. -/
def expressionStatement (g : Productions) : Parser NodeId := do
  if ← assignsSeveral then multipleAssignment g else junctions g

/-- A statement with its modifiers, one level deeper than what it stands in. -/
def statement (g : Productions) : Parser NodeId := nested do
  let start ← here
  iterate (fun inner => do
    match Grammar.modifierKind? (← kind) with
    | some k =>
      drop
      let operand ← expressionStatement g
      return .again (← finish k start [inner, operand])
    | none => return .done inner) g.rounds (← expressionStatement g)

/-! ### Lists -/

/-- Skips the rest of a faulty statement and stands in a node for what was given up from `first` on. -/
def giveUp (first : Nat) : Parser NodeId := do
  synchronize
  errorNode first

/-- What follows a statement that was read: what may stand there, or a region that is given up. -/
def behindStatement (stops : List TokenKind) (seen : List NodeId) :
    Parser (Round (List NodeId) (List NodeId)) := do
  let next ← kind
  if next.isTerminator || stops.contains next then return .again seen
  else
    reportUnexpected "newline or `;`"
    let first ← index
    return .again ((← giveUp first) :: seen)

/-- One statement and what follows it, or a region that is given up for it. -/
def listedStatement (g : Productions) (stops : List TokenKind) (seen : List NodeId) :
    Parser (Round (List NodeId) (List NodeId)) := do
  let first ← index
  let nodes ← mark
  match ← attempt (statement g) with
  | .ok id => behindStatement stops (id :: seen)
  | .error f =>
    report f
    truncate nodes
    return .again ((← giveUp first) :: seen)

/-- One more statement of a list, a token that closes nothing, or the end of the list. -/
def statementRound (g : Productions) (stops : List TokenKind) (seen : List NodeId) :
    Parser (Round (List NodeId) (List NodeId)) := do
  skipTerminators
  let k ← kind
  if k == .eof || stops.contains k then return .done seen.reverse
  else if Grammar.closesConstruct k then
    reportUnexpected "statement"
    drop
    return .again seen
  else listedStatement g stops seen

/-- The span of statements; an empty list stands where it was looked for. -/
def spanOfEach (start : Position) (ids : List NodeId) : Parser Span :=
  match ids.head?, ids.getLast? with
  | some first, some last => do
    let firstStart := (← node first).span.start
    return ⟨firstStart, (← node last).span.stop⟩
  | _, _ => return .point start

/-- Statements up to the end of the text or a token of one of some kinds, which is left. -/
def statements (g : Productions) (stops : List TokenKind) : Parser NodeId := do
  let start ← here
  let ids ← iterate (statementRound g stops) g.rounds []
  let span ← spanOfEach start ids
  add ⟨.statements, span, none, ids⟩

end RubyCheck.Arena
