import RubyCheck.Grammar.Item

/-!
# Arguments of calls

Arguments stand in parentheses right behind a name, or behind a blank without parentheses up to the end of
the statement.
-/

namespace RubyCheck.Grammar

/-- Whether a token of this kind begins an operand where one may be missing. A modifier never does, so
`return if done` has no value. -/
def startsOperand : TokenKind → Bool
  | .identifier | .constant | .instanceVariable | .classVariable | .globalVariable
  | .punct .lParen | .punct .lBracket | .punct .colonColon | .punct .arrow | .punct .bang
  | .punct .minus | .punct .tilde | .punct .star
  | .keyword .nil_ | .keyword .true_ | .keyword .false_ | .keyword .self_ | .keyword .not_
  | .keyword .defined_ | .keyword .def_ | .keyword .case_ | .keyword .begin_ | .keyword .yield_
  | .keyword .super_ => true
  | k => k.isLiteral

/-- Whether an operand begins here. -/
def atOperand : Parser Bool := view fun s => startsOperand s.tape.kind

/-- Whether an opening parenthesis stands right behind the token before. -/
def opensArguments (t : Token) : Bool := t.kind == .punct .lParen && !t.spaced

/-- Whether a token begins the first argument of a call without parentheses. A blank has to stand before
it; an operator that is also a prefix counts only if no blank stands behind it. -/
def beginsArgument (t next : Token) : Bool :=
  t.spaced &&
    match t.kind with
    | .identifier | .constant | .instanceVariable | .classVariable | .globalVariable | .label
    | .punct .lBracket | .punct .lParen | .punct .arrow | .punct .bang
    | .keyword .def_ | .keyword .case_ | .keyword .yield_ | .keyword .super_ | .keyword .self_
    | .keyword .nil_ | .keyword .true_ | .keyword .false_ | .keyword .not_
    | .keyword .defined_ => true
    | .punct .minus | .punct .star | .punct .amp | .punct .colonColon | .punct .pow
    | .punct .tilde => !next.spaced
    | k => k.isLiteral

/-- Arguments in parentheses. -/
def parenArguments (g : Grammar) : Parser Node := do
  let opener ← advance
  let nodes ← allowingDo (items g opener (.punct .rParen) (g.parse .argument))
  finish .arguments opener.span.start nodes

/-- Arguments without parentheses. -/
def commandArguments (g : Grammar) : Parser Node := do
  let start ← here
  let nodes ← withholdingDo (separated g.rounds skipBreaks (g.parse .argument))
  finish .arguments start nodes

/-- The arguments behind a name, if there are any. -/
def callArguments (g : Grammar) : Parser (List Node) := do
  if ← view fun s => opensArguments s.tape.current then
    return [← parenArguments g]
  else if ← view fun s => beginsArgument s.tape.current s.tape.next then
    return [← commandArguments g]
  else return []

/-- A bare name: a local variable if it is one here and no parenthesis follows, else a call. -/
def bareName (g : Grammar) : Parser Node := do
  let start ← here
  let name := (← advance).text
  if ← view fun s => s.isLocal name && !opensArguments s.tape.current then
    leaf .localVariable name
  else finishNamed .call start name (← callArguments g)

/-- A constant, or a call of a method that is named like one. -/
def constant (g : Grammar) : Parser Node := do
  let start ← here
  let name := (← advance).text
  if ← view fun s => opensArguments s.tape.current then
    finishNamed .call start name [← parenArguments g]
  else leaf .constant name

/-- A call that a keyword makes, such as `yield`. -/
def keywordCall (g : Grammar) (k : NodeKind) : Parser Node := do
  let start ← here
  drop
  finish k start (← callArguments g)

/-- The name in front of the colon of a label. -/
def labelName (label : String) : String :=
  String.ofList (label.toList.reverse.dropWhile (· == ':')).reverse

/-- Whether nothing stands behind a label, so that its name is also its value. -/
def endsLabel : TokenKind → Bool
  | .punct .comma | .punct .rParen | .punct .rBracket | .punct .rBrace | .newline | .eof => true
  | _ => false

/-- A key with its value; a key alone reads the variable or method of its name. -/
def labelPair (g : Grammar) : Parser Node := do
  let start ← here
  let name := labelName (← advance).text
  let key ← leaf .symbol name
  let value ←
    if endsLabel (← kind) then
      leaf (if ← view (·.isLocal name) then .localVariable else .call) name
    else g.parse .expression
  finish .pair start [key, value]

end RubyCheck.Grammar
