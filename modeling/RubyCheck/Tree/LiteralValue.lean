import RubyCheck.Number.Binary64
import RubyCheck.Tree.Basic

/-!
# What literals denote

Two literals are the same value if they denote the same, however they are spelled: `8` and `0x8` are, `"a"`
and `:a` are not. Literals with code in them and whatever has to be computed denote nothing here.
-/

namespace RubyCheck

/-- The value of a literal. -/
inductive LiteralValue where
  | integer (value : Int)
  /-- A float, by its bits. -/
  | float (bits : Nat)
  | string (text : String)
  | symbol (name : String)
  | regex (source : String)
  | nil_
  | true_
  | false_
deriving DecidableEq, Inhabited, Repr

namespace LiteralValue

/-- The number with the opposite sign. -/
def negated? : LiteralValue → Option LiteralValue
  | integer value => some (integer (-value))
  | float bits => some (float (Number.negateBits bits))
  | _ => none

/-- The value of an integer as it is written. -/
def ofInteger? (text : String) : Option LiteralValue :=
  (Number.integer? text.toList).map fun n => integer n

/-- The value of a float as it is written. -/
def ofFloat? (text : String) : Option LiteralValue :=
  (Number.floatBits? text.toList).map float

/-- The value of a character literal as it is written. -/
def ofCharacter? (text : String) : Option LiteralValue :=
  match text.toList with
  | '?' :: name => some (string (String.ofList name))
  | _ => none

end LiteralValue

namespace Node

/-- The value that a node denotes if it is a plain literal, or the negation of a number. -/
def literal? : Node → Option LiteralValue
  | ⟨.integer, _, some text, _⟩ => LiteralValue.ofInteger? text
  | ⟨.float, _, some text, _⟩ => LiteralValue.ofFloat? text
  | ⟨.string, _, some text, _⟩ => some (.string text)
  | ⟨.character, _, some text, _⟩ => LiteralValue.ofCharacter? text
  | ⟨.symbol, _, some text, []⟩ => some (.symbol text)
  | ⟨.regex, _, some text, _⟩ => some (.regex text)
  | ⟨.nil_, _, _, _⟩ => some .nil_
  | ⟨.true_, _, _, _⟩ => some .true_
  | ⟨.false_, _, _, _⟩ => some .false_
  | ⟨.unary, _, some text, operand :: _⟩ =>
    if text == "-" then operand.literal?.bind LiteralValue.negated? else none
  | _ => none

/-- How a message writes a literal. -/
def spelling : Node → String
  | ⟨.unary, _, _, operand :: _⟩ => "-" ++ operand.spelling
  | ⟨.unary, _, _, []⟩ => "-"
  | ⟨.string, _, text, _⟩ => "\"" ++ text.getD "" ++ "\""
  | ⟨.symbol, _, text, _⟩ => ":" ++ text.getD ""
  | ⟨.regex, _, text, _⟩ => "/" ++ text.getD "" ++ "/"
  | ⟨.nil_, _, _, _⟩ => "nil"
  | ⟨.true_, _, _, _⟩ => "true"
  | ⟨.false_, _, _, _⟩ => "false"
  | ⟨_, _, text, _⟩ => text.getD ""

end Node

end RubyCheck
