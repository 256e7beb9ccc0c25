import RubyCheck.Grammar.Argument

/-!
# Parameters

Parameters of methods, blocks and anonymous functions. Each is declared as it is read, before its default
value; its text is the bare name, which is empty for an anonymous `*`, `**` or `&`.
-/

namespace RubyCheck.Grammar

/-- Whether a keyword parameter ends here and so has no default value. -/
def endsParameter (k : TokenKind) : Bool :=
  k.isTerminator || k == .punct .comma || k == .punct .rParen || k == .punct .pipe

/-- A default value. Between bars it is no more than an operand, because a bar would end the parameters. -/
def defaultValue (g : Grammar) (inBlock : Bool) : Parser Node :=
  g.parse (if inBlock then .unary else .ternary)

/-- The parameters behind a parenthesis, with the one that closes it. -/
def parameterList (g : Grammar) (opener : Token) : Parser (List Node) :=
  items g opener (.punct .rParen) (g.parse (.parameter false))

/-- A parameter. -/
def parameter (g : Grammar) (inBlock : Bool) : Parser Node := do
  let start ← here
  match ← kind with
  | .identifier =>
    let name := (← advance).text
    declare name
    let value ← if ← accept (.punct .eq) then (do return [← defaultValue g inBlock]) else pure []
    finishNamed .parameter start name value
  | .label =>
    let name := labelName (← advance).text
    declare name
    let value ← if endsParameter (← kind) then pure [] else (do return [← defaultValue g inBlock])
    finishNamed .parameter start name value
  | .punct .star | .punct .pow | .punct .amp =>
    drop
    if ← check .identifier then
      let name := (← advance).text
      declare name
      finishNamed .parameter start name []
    else finishNamed .parameter start "" []
  | .punct .dotDotDot => takeAs .parameter "..."
  | .punct .lParen =>
    let opener ← advance
    finish .multiTargets start (← parameterList g opener)
  | _ => refuse "parameter"

/-- Parameters without parentheses. -/
def bareParameters (g : Grammar) : Parser (List Node) :=
  separated g.rounds (pure ()) (parameter g false)

end RubyCheck.Grammar
