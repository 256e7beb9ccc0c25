import RubyCheck.Grammar.Expression

/-!
# Statements

Statements with their modifiers, multiple assignment, and lists of statements. A list is where reading
recovers: a statement that fails is reported, what was read of it is dropped, and a node for the region that
was given up stands in for it.
-/

namespace RubyCheck.Grammar

/-! ### Multiple assignment -/

/-- Whether targets with commas between them and an equals sign behind them stand at the head of some
tokens. Only names, receivers, splats, anything in brackets and commas may precede the sign, and two names
may not be neighbours, because then the first one is a call. -/
def assignsSeveral (depth : Nat) (comma afterName : Bool) : List Token → Bool
  | [] => false
  | t :: ts =>
    if 0 < depth then
      match t.kind with
      | .punct .lParen | .punct .lBracket => assignsSeveral (depth + 1) comma afterName ts
      | .punct .rParen | .punct .rBracket => assignsSeveral (depth - 1) comma afterName ts
      | .eof => false
      | _ => assignsSeveral depth comma afterName ts
    else
      match t.kind with
      | .identifier | .constant | .instanceVariable | .classVariable | .globalVariable
      | .keyword .self_ => !afterName && assignsSeveral 0 comma true ts
      | .punct .comma => assignsSeveral 0 true false ts
      | .punct .star | .punct .dot | .punct .ampDot | .punct .colonColon =>
        assignsSeveral 0 comma false ts
      | .punct .lParen | .punct .lBracket => assignsSeveral 1 comma false ts
      | .punct .eq => comma
      | _ => false

/-- Whether a splat among targets has no target of its own. -/
def endsTarget (k : TokenKind) : Bool :=
  k == .punct .comma || k == .punct .eq || k == .punct .rParen

/-- One of several targets: what can be assigned to, a splat of it, or targets in parentheses. -/
def target (g : Grammar) : Parser Node := do
  let start ← here
  match ← kind with
  | .punct .star =>
    drop
    if endsTarget (← kind) then finish .splat start []
    else finish .splat start [← assignable (← chain g)]
  | .punct .lParen =>
    drop
    let inner ← g.parse (.targets (some (.punct .rParen)))
    discard <| expect (.punct .rParen)
    return inner
  | _ => assignable (← chain g)

/-- The targets of a multiple assignment. A comma may stand behind the last one. -/
def targets (g : Grammar) (closer : Option TokenKind) : Parser Node := do
  let start ← here
  let nodes ← iterate (fun seen => do
    let seen := (← target g) :: seen
    if ← accept (.punct .comma) then
      let k ← kind
      if k == .punct .eq || closer == some k then return .done seen.reverse
      else return .again seen
    else return .done seen.reverse) g.rounds []
  finish .multiTargets start nodes

/-- A multiple assignment. Several values are an array. -/
def multipleAssignment (g : Grammar) : Parser Node := do
  let start ← here
  let left ← targets g none
  discard <| expect (.punct .eq)
  let valueStart ← here
  let values ← separated g.rounds (pure ()) (assignedValue g)
  finish .multipleAssignment start [left, ← arrayOf valueStart values]

/-! ### Single statements -/

/-- An expression, or the negation of one by a keyword. -/
def notExpression (g : Grammar) : Parser Node := do
  if ← check (.keyword .not_) then
    let start ← here
    drop
    finish .not_ start [← nested (g.parse .notExpression)]
  else expression g

/-- What a keyword between two expressions makes of them. -/
def junctionKind? : TokenKind → Option NodeKind
  | .keyword .and_ => some .and_
  | .keyword .or_ => some .or_
  | _ => none

/-- Expressions with `and` and `or` between them, grouped to the left. -/
def junctions (g : Grammar) : Parser Node := do
  let start ← here
  iterate (fun left => do
    match junctionKind? (← kind) with
    | some k =>
      drop
      let right ← notExpression g
      return .again (← finish k start [left, right])
    | none => return .done left) g.rounds (← notExpression g)

/-- A statement without modifiers. -/
def expressionStatement (g : Grammar) : Parser Node := do
  if ← view fun s => assignsSeveral 0 false false (s.tape.current :: s.tape.ahead) then
    multipleAssignment g
  else junctions g

/-- The modifier that a keyword begins. -/
def modifierKind? : TokenKind → Option NodeKind
  | .keyword .if_ => some .ifModifier
  | .keyword .unless_ => some .unlessModifier
  | .keyword .while_ => some .whileModifier
  | .keyword .until_ => some .untilModifier
  | .keyword .rescue_ => some .rescueModifier
  | _ => none

/-- A statement with its modifiers, one level deeper than what it stands in. -/
def statement (g : Grammar) : Parser Node := nested do
  let start ← here
  iterate (fun inner => do
    match modifierKind? (← kind) with
    | some k =>
      drop
      let operand ← expressionStatement g
      return .again (← finish k start [inner, operand])
    | none => return .done inner) g.rounds (← expressionStatement g)

/-! ### Lists -/

/-- Whether a token of this kind closes some construct, so that no statement begins with it. -/
def closesConstruct : TokenKind → Bool
  | .keyword .end_ | .keyword .else_ | .keyword .elsif_ | .keyword .when_ | .keyword .in_
  | .keyword .rescue_ | .keyword .ensure_ | .keyword .then_ | .punct .rBrace | .punct .rParen
  | .punct .rBracket | .interpolationEnd => true
  | _ => false

/-- Skips the rest of a faulty statement and stands in a node for what was given up from `first` on. -/
def giveUp (first : Token) : Parser Node := do
  move Tape.synchronize
  view (·.errorNode first)

/-- What follows a statement that was read: what may stand there, or a region that is given up. -/
def behindStatement (stops : List TokenKind) (seen : List Node) :
    Parser (Round (List Node) (List Node)) := do
  let next ← kind
  if next.isTerminator || stops.contains next then return .again seen
  else
    reportUnexpected "newline or `;`"
    let first ← current
    return .again ((← giveUp first) :: seen)

/-- One statement and what follows it, or a region that is given up for it. -/
def listedStatement (g : Grammar) (stops : List TokenKind) (seen : List Node) :
    Parser (Round (List Node) (List Node)) := do
  let first ← current
  match ← attempt (statement g) with
  | .ok node => behindStatement stops (node :: seen)
  | .error f =>
    report f
    return .again ((← giveUp first) :: seen)

/-- One more statement of a list, a token that closes nothing, or the end of the list. -/
def statementRound (g : Grammar) (stops : List TokenKind) (seen : List Node) :
    Parser (Round (List Node) (List Node)) := do
  skipTerminators
  let k ← kind
  if k == .eof || stops.contains k then return .done seen.reverse
  else if closesConstruct k then
    reportUnexpected "statement"
    drop
    return .again seen
  else listedStatement g stops seen

/-- The span of statements; an empty list stands where it was looked for. -/
def spanOfEach (start : Position) (nodes : List Node) : Span :=
  match nodes.head?, nodes.getLast? with
  | some first, some last => ⟨first.span.start, last.span.stop⟩
  | _, _ => .point start

/-- Statements up to the end of the text or a token of one of some kinds, which is left. -/
def statements (g : Grammar) (stops : List TokenKind) : Parser Node := do
  let start ← here
  let nodes ← iterate (statementRound g stops) g.rounds []
  return .inner .statements (spanOfEach start nodes) nodes

end RubyCheck.Grammar
