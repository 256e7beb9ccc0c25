import RubyCheck.Grammar.Argument
import RubyCheck.Grammar.Body

/-!
# Control flow

Conditionals, loops, `case`, `begin`, the keywords that leave a construct, and `defined?`.
-/

namespace RubyCheck.Grammar

/-! ### Conditionals -/

/-- A condition and what follows it, up to `end`; behind `elsif` the same again. -/
def branch (g : Grammar) (keyword : Token) : Parser Node := do
  let test ← condition g keyword false
  let body ← g.parse (.statements [.keyword .elsif_, .keyword .else_, .keyword .end_])
  let otherwise ←
    if ← check (.keyword .elsif_) then
      let keyword ← advance
      (do return [← nested (g.parse (.branch keyword))])
    else elseBranch g
  finish .if_ keyword.span.start (test :: body :: otherwise)

/-- An `if` with its `end`. -/
def conditional (g : Grammar) : Parser Node := do
  let opener ← advance
  let node ← branch g opener
  expectEnd opener
  let last ← view (·.tape.previous)
  return { node with span := ⟨node.span.start, last.span.stop⟩ }

/-- An `unless`. -/
def negatedConditional (g : Grammar) : Parser Node := do
  let opener ← advance
  let test ← condition g opener false
  let body ← g.parse (.statements [.keyword .else_, .keyword .end_])
  let otherwise ← elseBranch g
  expectEnd opener
  finish .unless_ opener.span.start (test :: body :: otherwise)

/-! ### Loops -/

/-- The statements of a loop, with its `end`. -/
def loopBody (g : Grammar) (opener : Token) : Parser Node := do
  let statements ← g.parse (.statements [.keyword .end_])
  expectEnd opener
  return statements

/-- A `while` or `until`. -/
def conditionLoop (g : Grammar) (k : NodeKind) : Parser Node := do
  let opener ← advance
  let test ← condition g opener true
  let body ← loopBody g opener
  finish k opener.span.start [test, body]

/-- The variables of a `for`. -/
def loopTarget (g : Grammar) : Parser Node := do
  if ← view fun s => s.tape.next.kind == .punct .comma then g.parse (.targets none)
  else assignable (← g.parse .chain)

/-- A `for`. Its variables belong to the scope around it. -/
def iteration (g : Grammar) : Parser Node := do
  let opener ← advance
  let target ← loopTarget g
  discard <| expect (.keyword .in_)
  let source ← condition g opener true
  let body ← loopBody g opener
  finish .for_ opener.span.start [target, source, body]

/-! ### Choice between clauses -/

/-- Where the statements of a clause end. -/
def clauseStops : List TokenKind :=
  [.keyword .when_, .keyword .in_, .keyword .else_, .keyword .end_]

/-- What stands in a clause behind its values or its pattern. -/
def clauseBody (g : Grammar) (keyword : Token) : Parser Node := do
  separator keyword false
  g.parse (.statements clauseStops)

/-- A clause that compares with values. -/
def valueClause (g : Grammar) : Parser Node := do
  let keyword ← advance
  let start ← here
  let values ← separated g.rounds skipBreaks (g.parse .argument)
  let values ← finish .arguments start values
  let body ← clauseBody g keyword
  finish .when_ keyword.span.start [values, body]

/-- The modifier that a keyword begins behind a pattern. -/
def guardKind? : TokenKind → Option NodeKind
  | .keyword .if_ => some .ifModifier
  | .keyword .unless_ => some .unlessModifier
  | _ => none

/-- A pattern with its guard, if one follows. -/
def guarded (g : Grammar) (start : Position) (pattern : Node) : Parser Node := do
  match guardKind? (← kind) with
  | some k =>
    drop
    finish k start [pattern, ← g.parse .expression]
  | none => return pattern

/-- A clause that matches a pattern. Several elements without brackets are an array. -/
def patternClause (g : Grammar) : Parser Node := do
  let keyword ← advance
  let start ← here
  let elements ← separated g.rounds (pure ()) (g.parse .argument)
  let pattern ← guarded g start (← arrayOf start elements)
  let body ← clauseBody g keyword
  finish .in_ keyword.span.start [pattern, body]

/-- The clauses that stand here. -/
def clauses (g : Grammar) : Parser (List Node) :=
  iterate (fun seen => do
    match ← kind with
    | .keyword .when_ => return .again ((← valueClause g) :: seen)
    | .keyword .in_ => return .again ((← patternClause g) :: seen)
    | _ => return .done seen.reverse) g.rounds []

/-- Whether no subject stands behind `case`. A line break behind a bare `case` is no token, so a clause may
follow at once. -/
def lacksSubject (k : TokenKind) : Bool :=
  k.isTerminator || k == .keyword .when_ || k == .keyword .in_

/-- A `case`. -/
def choice (g : Grammar) : Parser Node := do
  let opener ← advance
  let subject ←
    if lacksSubject (← kind) then pure [] else (do return [← g.parse .expressionStatement])
  skipTerminators
  let clauses ← clauses g
  let otherwise ← elseBranch g
  expectEnd opener
  finish .case_ opener.span.start (subject ++ clauses ++ otherwise)

/-! ### Other keywords -/

/-- A `begin`. -/
def protectedBody (g : Grammar) : Parser Node := do
  let opener ← advance
  let body ← body g opener
  finish .begin_ opener.span.start body

/-- A keyword that leaves a construct, perhaps with values. Several values are an array. -/
def jump (g : Grammar) (k : NodeKind) : Parser Node := do
  let start ← here
  drop
  if ← atOperand then
    let valuesStart ← here
    let values ← separated g.rounds skipBreaks (g.parse .argument)
    finish k start [← arrayOf valuesStart values]
  else finish k start []

/-- What stands in the parentheses of `defined?`. -/
def definedOperand (g : Grammar) : Parser Node := do
  let opener ← advance
  let operand ← allowingDo (g.parse .expressionStatement)
  skipBreaks
  expectCloser opener (.punct .rParen)
  return operand

/-- A `defined?`. -/
def definedTest (g : Grammar) : Parser Node := do
  let start ← here
  drop
  let operand ← if ← check (.punct .lParen) then definedOperand g else g.parse .unary
  finish .defined start [operand]

end RubyCheck.Grammar
