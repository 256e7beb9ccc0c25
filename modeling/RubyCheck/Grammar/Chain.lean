import RubyCheck.Grammar.Operand

/-!
# Chains

What may follow an operand as often as it likes: calls behind a dot, names behind two colons, elements
between brackets, and blocks behind calls.
-/

namespace RubyCheck.Grammar

/-- Whether a node takes a block: a call that has none yet. -/
def takesBlock (n : Node) : Bool :=
  (n.kind == .call || n.kind == .super_) && n.children.getLast?.all (·.kind != .block)

/-- A call with a block behind it. -/
def withBlock (call block : Node) : Node :=
  { call with
    children := call.children ++ [block]
    span := ⟨call.span.start, block.span.stop⟩ }

/-- Whether block parameters and the bar behind them stand at the head of some tokens, with nothing else on
their line. -/
def endsBareParameters : List Token → Bool
  | [] => false
  | t :: ts =>
    match t.kind with
    | .identifier | .punct .comma | .punct .star | .punct .amp => endsBareParameters ts
    | .punct .pipe =>
      match ts with
      | [] => false
      | next :: _ =>
        next.kind == .newline || next.kind == .eof || t.span.stop.line < next.span.start.line
    | _ => false

/-- Whether the tokens behind a bar are the parameters of a block that was never opened, as in `each |x|` at
the end of a line. -/
def lacksBlockOpener (ahead : List Token) : Bool :=
  ahead.head?.all (·.kind != .punct .pipe) && endsBareParameters ahead

/-- The name of the method behind a dot. A parenthesis there calls the receiver. -/
def calledName : Parser String := do
  let k ← kind
  if k == .punct .lParen then return "call"
  else if namesMethod k then return (← advance).text
  else refuse "method name"

/-- A call with a receiver, behind the dot. -/
def methodCall (g : Grammar) (receiver : Node) (start : Position) : Parser Node := do
  let name ← calledName
  finishNamed .call start name (receiver :: (← callArguments g))

/-- What stands behind two colons: a constant, unless it is called like a method. -/
def scopedName (g : Grammar) (scope : Node) (start : Position) : Parser Node := do
  let next ← view (·.tape.next)
  let k ← kind
  if k == .constant && !opensArguments next then
    let name := (← advance).text
    finishNamed .scopedConstant start name [scope]
  else if k == .constant || k == .identifier then methodCall g scope start
  else refuse "constant or method name"

/-- An element of a receiver. -/
def element (g : Grammar) (receiver : Node) (start : Position) : Parser Node := do
  let opener ← advance
  let nodes ← allowingDo (items g opener (.punct .rBracket) (g.parse .argument))
  let arguments ← finish .arguments opener.span.start nodes
  finish .index start [receiver, arguments]

/-- A block whose opener is missing. That is reported at its first bar, and the rest is read as if `do` stood
there. -/
def openerlessBlock (g : Grammar) : Parser Node := do
  let bar ← current
  report ⟨.missingBlockOpener, bar.span⟩
  doBlockBehind g { Token.empty (.keyword .do_) bar.span.start with text := "do", span := bar.span }

/-- One more link behind a chain, or its end. -/
def link (g : Grammar) (start : Position) (n : Node) : Parser (Round Node Node) := do
  let t ← current
  match t.kind with
  | .punct .dot | .punct .ampDot =>
    drop
    return .again (← methodCall g n start)
  | .punct .colonColon =>
    if t.spaced then return .done n
    else
      drop
      return .again (← scopedName g n start)
  | .punct .lBracket =>
    if t.spaced && n.kind == .call then return .done n
    else return .again (← element g n start)
  | .punct .lBrace =>
    if takesBlock n then return .again (withBlock n (← braceBlock g)) else return .done n
  | .keyword .do_ =>
    if takesBlock n && (← view (·.doWithheld == 0)) then
      return .again (withBlock n (← doBlock g))
    else return .done n
  | .punct .pipe =>
    if takesBlock n && (← view fun s => lacksBlockOpener s.tape.ahead) then
      return .again (withBlock n (← openerlessBlock g))
    else return .done n
  | _ => return .done n

/-- An operand with everything that is chained to it. -/
def chain (g : Grammar) : Parser Node := do
  let start ← here
  iterate (link g start) g.rounds (← operand g)

end RubyCheck.Grammar
