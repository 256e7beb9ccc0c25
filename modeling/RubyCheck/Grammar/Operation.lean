import RubyCheck.Grammar.Chain

/-!
# Operations

Prefix operators, powers, binary operators by level, ranges, and the choice between two values.
-/

namespace RubyCheck.Grammar

/-- An operand and perhaps its exponent. An exponent takes in everything that is no binary operation, so
powers group to the right. -/
def power (g : Grammar) : Parser Node := do
  let start ← here
  let base ← chain g
  if ← accept (.punct .pow) then
    let exponent ← nested (g.parse .unary)
    finishNamed .binary start "**" [base, exponent]
  else return base

/-- An operand with its prefix operators, all of which bind looser than a power. -/
def unary (g : Grammar) : Parser Node := do
  let start ← here
  match ← kind with
  | .punct .bang =>
    drop
    finish .not_ start [← nested (g.parse .unary)]
  | .punct .minus | .punct .plus | .punct .tilde =>
    let operator := (← advance).text
    finishNamed .unary start operator [← nested (g.parse .unary)]
  | _ => power g

/-- What stands to the right of an operator: an operation that binds tighter. -/
def rightGoal (l : Level) : Goal :=
  match l.tighter? with
  | some tighter => .binary tighter
  | none => .unary

/-- The node of a binary operation. -/
def joined (start : Position) (operator : Punct) (left right : Node) : Parser Node :=
  match operator with
  | .ampAmp => finish .and_ start [left, right]
  | .pipePipe => finish .or_ start [left, right]
  | mark => finishNamed .binary start mark.text [left, right]

/-- One more operator behind an operation and its right side, unless it binds looser than a level. -/
def operatorRound (g : Grammar) (least : Level) (start : Position) (left : Node) :
    Parser (Round Node Node) := do
  match Level.ofToken? (← kind) with
  | some (l, operator) =>
    if l.rank < least.rank then return .done left
    else
      drop
      let right ← nested (g.parse (rightGoal l))
      return .again (← joined start operator left right)
  | none => return .done left

/-- An operation whose binary operators bind at least as tightly as a level. -/
def binary (g : Grammar) (least : Level) : Parser Node := do
  let start ← here
  iterate (operatorRound g least start) g.rounds (← unary g)

/-- Whether a token of this kind makes a range. -/
def isRangeOperator (k : TokenKind) : Bool := k == .punct .dotDot || k == .punct .dotDotDot

/-- A range, either end of which may be missing, or what stands at its lower end alone. -/
def range (g : Grammar) : Parser Node := do
  let start ← here
  if isRangeOperator (← kind) then
    let operator := (← advance).text
    finishNamed .range start operator [← binary g .disjunction]
  else
    let lower ← binary g .disjunction
    if isRangeOperator (← kind) then
      let operator := (← advance).text
      let upper ← if ← atOperand then (do return [← binary g .disjunction]) else pure []
      finishNamed .range start operator (lower :: upper)
    else return lower

/-- A choice between two values, or the condition alone. -/
def ternary (g : Grammar) : Parser Node := do
  let start ← here
  let test ← range g
  if ← accept (.punct .question) then
    skipBreaks
    let yes ← nested (g.parse .ternary)
    skipBreaks
    discard <| expect (.punct .colon)
    skipBreaks
    let no ← nested (g.parse .ternary)
    finish .ternary start [test, yes, no]
  else return test

end RubyCheck.Grammar
