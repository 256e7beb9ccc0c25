import RubyCheck.Grammar.Statement
import RubyCheck.Token.Stream

/-!
# Programs

The productions tied together, and the tree of a whole text. Every production that is asked for inside
another one stands behind a token that was consumed, so as many levels as there are tokens suffice.
-/

namespace RubyCheck

namespace Grammar

/-- The production for a goal. -/
def step (g : Grammar) : Goal → Parser Node
  | .statements stops => statements g stops
  | .statement => statement g
  | .expressionStatement => expressionStatement g
  | .notExpression => notExpression g
  | .expression => expression g
  | .ternary => ternary g
  | .binary level => binary g level
  | .unary => unary g
  | .chain => chain g
  | .targets closer => targets g closer
  | .argument => argument g
  | .parameter inBlock => parameter g inBlock
  | .branch keyword => branch g keyword

/-- The production for a goal, when goals inside it may go a number of levels further in. -/
def production : Nat → Goal → Parser Node
  | 0, _ => throw .exhausted
  | levels + 1, goal => step ⟨levels + 1, production levels⟩ goal

/-- The root of the tree. -/
def program (levels : Nat) : Parser Node := do
  let start ← here
  let list ← inScope true (production levels (.statements []))
  let last ← current
  return .inner .program ⟨start, last.span.stop.later start⟩ list.children

/-- More levels than reading some tokens takes. -/
def levelsFor (tokens : List Token) : Nat := tokens.length + 3

end Grammar

namespace SyntaxTree

/-- What reading came to. -/
def ofResult : EStateM.Result Grammar.Failure Grammar.State Node → SyntaxTree
  | .ok root s => ⟨root, s.faults.toList⟩
  | .error _ s => ⟨.inner .program (.point .origin) [], s.faults.toList⟩

/-- The tree of some tokens. A missing end of the text is supplied. -/
def ofTokens (limits : Limits) (tokens : List Token) : SyntaxTree :=
  ofResult (Grammar.program (Grammar.levelsFor tokens) (.ofTokens limits tokens))

/-- The tree of the tokens of a text. Their lexical faults come before those of the grammar. -/
def ofStream (limits : Limits) (stream : TokenStream) : SyntaxTree :=
  let tree := ofTokens limits stream.tokens
  { tree with faults := stream.faults ++ tree.faults }

/-- The tree of a text. -/
def ofText (limits : Limits) (source : List Char) : SyntaxTree :=
  ofStream limits (.ofText source)

end SyntaxTree

end RubyCheck
