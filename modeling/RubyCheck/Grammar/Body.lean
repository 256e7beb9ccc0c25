import RubyCheck.Grammar.Assignable
import RubyCheck.Grammar.Goal

/-!
# Conditions and bodies

The pieces that constructs ending in `end` are made of: a condition with its separator, an `else` branch,
and a body with its `rescue`, `else` and `ensure` clauses.
-/

namespace RubyCheck.Grammar

/-- Where the statements of a body end. -/
def bodyStops : List TokenKind :=
  [.keyword .rescue_, .keyword .else_, .keyword .ensure_, .keyword .end_]

/-- What separates a condition from the statements behind it: `then`, a line break or a semicolon, and
where `do` may stand also that. If it is missing, that is reported and the statements follow; at the end of
the text only the missing `end` is. -/
def separator (keyword : Token) (doMayStand : Bool) : Parser Unit := do
  match ← kind with
  | .keyword .then_ => drop
  | .newline | .punct .semicolon =>
    skipTerminators
    discard <| accept (.keyword .then_)
  | .eof => pure ()
  | k =>
    if doMayStand && k == .keyword .do_ then drop
    else report ⟨.missingSeparator keyword.text, (← current).span⟩

/-- A condition and what separates it from the statements behind it. -/
def condition (g : Grammar) (keyword : Token) (doMayStand : Bool) : Parser Node := do
  let p := g.parse .expressionStatement
  let node ← if doMayStand then withholdingDo p else p
  separator keyword doMayStand
  return node

/-- A keyword and the statements behind it. -/
def clause (g : Grammar) (k : NodeKind) (stops : List TokenKind) : Parser Node := do
  let start ← here
  drop
  finish k start [← g.parse (.statements stops)]

/-- A clause, if the keyword that begins it stands here. -/
def clauseIf (g : Grammar) (keyword : Keyword) (k : NodeKind) (stops : List TokenKind) :
    Parser (List Node) := do
  if ← check (.keyword keyword) then return [← clause g k stops] else return []

/-- An `else` branch up to `end`, if there is one. -/
def elseBranch (g : Grammar) : Parser (List Node) :=
  clauseIf g .else_ .else_ [.keyword .end_]

/-- The `end` that closes a construct. -/
def expectEnd (opener : Token) : Parser Unit := expectCloser opener (.keyword .end_)

/-- Whether no exception class follows `rescue`. -/
def endsClasses : TokenKind → Bool
  | .punct .fatArrow | .keyword .then_ | .newline | .punct .semicolon | .eof => true
  | _ => false

/-- A `rescue` clause: the classes, perhaps a variable, and the statements. -/
def rescueClause (g : Grammar) : Parser Node := do
  let keyword ← advance
  let start ← here
  let classes ←
    if endsClasses (← kind) then pure [] else separated g.rounds skipBreaks (g.parse .ternary)
  let classes ← finish .arguments start classes
  let target ←
    if ← accept (.punct .fatArrow) then (do return [← assignable (← g.parse .chain)]) else pure []
  separator keyword false
  let body ← g.parse (.statements bodyStops)
  finish .rescueClause keyword.span.start (classes :: target ++ [body])

/-- The `rescue` clauses that stand here. -/
def rescueClauses (g : Grammar) : Parser (List Node) :=
  iterate (fun seen => do
    if ← check (.keyword .rescue_) then return .again ((← rescueClause g) :: seen)
    else return .done seen.reverse) g.rounds []

/-- A body up to the `end` that closes its opener: the statements and the clauses behind them. -/
def body (g : Grammar) (opener : Token) : Parser (List Node) := do
  let statements ← g.parse (.statements bodyStops)
  let rescues ← rescueClauses g
  let otherwise ← clauseIf g .else_ .else_ [.keyword .ensure_, .keyword .end_]
  let ensures ← clauseIf g .ensure_ .ensureClause [.keyword .end_]
  expectEnd opener
  return statements :: (rescues ++ otherwise ++ ensures)

end RubyCheck.Grammar
