import RubyCheck.Number.Bounded
import RubyCheck.Tree.LiteralValue

/-!
# What literals denote to a machine

The value of a literal once more, with integers of 128 bits. There is none at all where the digits of an
integer cannot be cut out of its text, or where a negation goes beyond what 128 bits hold; what denotes
nothing is a value like any other here.
-/

namespace RubyCheck

/-- The value that a node denotes if it is a plain literal, or the negation of a number. -/
def Node.boundedLiteral? : Node → Option (Option LiteralValue)
  | ⟨.integer, _, some text, _⟩ => (Number.ofText? text.toList).map (·.map .integer)
  | ⟨.unary, _, some text, operand :: _⟩ =>
    if text == "-" then
      operand.boundedLiteral?.bind fun value =>
        match value with
        | some (.integer n) => (Number.negated? n).map fun n => some (.integer n)
        | value => some (value.bind LiteralValue.negated?)
    else some none
  | n => some n.literal?

end RubyCheck
