import RubyCheck.Grammar.Level
import RubyCheck.Grammar.State

/-!
# Goals

The productions of the grammar refer to one another. Each is written against a `Grammar`, which knows how
to read the goals that stand inside it and how many rounds a repetition may take; a production asks it only
behind a token that it has consumed, so the number of tokens bounds how far this goes. Repetition in the
grammar is always `iterate`.
-/

namespace RubyCheck

namespace Grammar

/-- What a production can be asked for. -/
inductive Goal where
  /-- Statements, up to the end of the text or one of some kinds of tokens. -/
  | statements (stops : List TokenKind)
  | statement
  /-- Expressions joined by `and` and `or`, or a multiple assignment. -/
  | expressionStatement
  /-- An expression, perhaps behind `not`. -/
  | notExpression
  | expression
  /-- An expression without assignment. -/
  | ternary
  /-- An operation whose binary operators bind at least as tightly as a level. -/
  | binary (level : Level)
  /-- An operand with its prefix operators and powers. -/
  | unary
  /-- An operand with calls, elements, scopes and blocks behind it. -/
  | chain
  /-- The targets of a multiple assignment, up to a closer if they stand in parentheses. -/
  | targets (closer : Option TokenKind)
  | argument
  /-- A parameter; between bars its default value is no more than an operand. -/
  | parameter (inBlock : Bool)
  /-- A condition and what follows it up to `end`, behind `if` or `elsif`. -/
  | branch (keyword : Token)
deriving DecidableEq, Inhabited, Repr

end Grammar

/-- The productions one level further in. -/
structure Grammar where
  /-- How often a repetition may go round. -/
  rounds : Nat
  parse : Grammar.Goal → Grammar.Parser Node

namespace Grammar

/-! ### Repetition -/

/-- What one round of a repetition comes to. -/
inductive Round (σ α : Type) where
  /-- Another round follows. -/
  | again (s : σ)
  /-- The repetition is over. -/
  | done (a : α)

/-- Goes round from a seed until the repetition is over. -/
def iterate {σ α : Type} (body : σ → Parser (Round σ α)) : Nat → σ → Parser α
  | 0, _ => throw .exhausted
  | rounds + 1, s => do
    match ← body s with
    | .again s => iterate body rounds s
    | .done a => pure a

/-- The end of a round that goes on if a comma follows. -/
def unlessComma {σ α : Type} (behindComma : Parser Unit) (s : σ) (a : α) : Parser (Round σ α) := do
  if ← accept (.punct .comma) then
    behindComma
    return .again s
  else return .done a

/-- Items with commas between them; `behindComma` is read behind each comma. -/
def separated (rounds : Nat) (behindComma : Parser Unit) (item : Parser Node) :
    Parser (List Node) :=
  iterate (fun seen => do
    let seen := (← item) :: seen
    unlessComma behindComma seen seen.reverse) rounds []

/-- Several values between which commas stood are one array. -/
def arrayOf (start : Position) : List Node → Parser Node
  | [value] => pure value
  | values => finish .array start values

end Grammar

end RubyCheck
