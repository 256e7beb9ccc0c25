import RubyCheck.Arena.Expression
import RubyCheck.Grammar.Program

/-!
# Programs in an arena

The productions tied together, and what a machine makes of some tokens: the arena with the id of its root.
-/

namespace RubyCheck

namespace Arena

open Grammar (Goal)

/-- The production for a goal. -/
def step (g : Productions) : Goal → Parser NodeId
  | .statements stops => statements g stops
  | .statement => statement g
  | .expressionStatement => expressionStatement g
  | .notExpression => notExpression g
  | .expression => expression g
  | .ternary => ternary g
  | .binary level => binary g level
  | .unary => unary g
  | .chain => chain g
  | .targets closer => targets g closer
  | .argument => argument g
  | .parameter inBlock => parameter g inBlock
  | .branch keyword => branch g keyword

/-- The production for a goal, when goals inside it may go a number of levels further in. -/
def production : Nat → Goal → Parser NodeId
  | 0, _ => throw .exhausted
  | levels + 1, goal => step ⟨levels + 1, production levels⟩ goal

/-- The root of the tree. -/
def program (levels : Nat) : Parser NodeId := do
  let start ← here
  let list ← inScope true (production levels (.statements []))
  let last ← current
  let children := (← node list).children
  add ⟨.program, ⟨start, last.span.stop.later start⟩, none, children⟩

/-- Reads some tokens with so many levels. -/
def read (greatestId : Option Nat) (limits : Limits) (tokens : List Token) (levels : Nat) :
    EStateM.Result Stop Machine NodeId :=
  program levels (.ofTokens greatestId limits tokens)

end Arena

end RubyCheck
