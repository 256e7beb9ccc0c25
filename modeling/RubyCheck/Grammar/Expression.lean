import RubyCheck.Grammar.Assignable
import RubyCheck.Grammar.Operation

/-!
# Expressions and arguments

An expression is an assignment, or a value without one. An argument may also be splatted, a key with its
value, or a block passed on.
-/

namespace RubyCheck.Grammar

/-- What is assigned: an expression, or a splatted value. -/
def assignedValue (g : Grammar) : Parser Node := do
  if ← check (.punct .star) then
    let start ← here
    drop
    finish .splat start [← g.parse .ternary]
  else g.parse .expression

/-- An assignment, or a value alone. -/
def assignment (g : Grammar) : Parser Node := do
  let start ← here
  let left ← ternary g
  match ← kind with
  | .punct .eq =>
    let target ← assignable left
    drop
    finish .assignment start [target, ← assignedValue g]
  | .opAssign =>
    let target ← assignable left
    let operator := (← advance).text
    finishNamed .opAssignment start operator [target, ← assignedValue g]
  | _ => return left

/-- An expression, one level deeper than what it stands in. -/
def expression (g : Grammar) : Parser Node := nested (assignment g)

/-- What an operator in front of an argument makes of it. -/
def spreadKind? : TokenKind → Option NodeKind
  | .punct .star => some .splat
  | .punct .pow => some .doubleSplat
  | .punct .amp => some .blockPass
  | _ => none

/-- An argument that an operator spreads; alone, the operator passes on what the method around it got. -/
def spreadArgument (g : Grammar) (k : NodeKind) : Parser Node := do
  let start ← here
  drop
  if ← atOperand then finish k start [← g.parse .ternary] else finish k start []

/-- An argument without an operator in front: an expression, or a key with its value. -/
def plainArgument (g : Grammar) : Parser Node := do
  let start ← here
  let value ← expression g
  if ← accept (.punct .fatArrow) then
    skipBreaks
    finish .pair start [value, ← g.parse .expression]
  else return value

/-- An argument. -/
def argument (g : Grammar) : Parser Node := do
  let k ← kind
  match spreadKind? k with
  | some spread => spreadArgument g spread
  | none => if k == .label then labelPair g else plainArgument g

end RubyCheck.Grammar
