import RubyCheck.Number.Integer
import RubyCheck.Source.Slice

/-!
# Numbers of bounded width

Arithmetic as a machine does it, with numbers that have a least and a greatest value. Counts are never
negative, and the values of literals have 128 bits and a sign. What goes beyond that has no result here.
-/

namespace RubyCheck.Number

/-- A difference that is not negative. -/
def minus? (m n : Nat) : Option Nat := if n ≤ m then some (m - n) else none

/-- Whether an integer has 128 bits. -/
def has128Bits (n : Int) : Bool := -Int.pow 2 127 ≤ n && n < Int.pow 2 127

/-- The integer with the opposite sign, which one integer of 128 bits does not have. -/
def negated? (n : Int) : Option Int := if has128Bits (-n) then some (-n) else none

/-- A character that may stand in front of digits. -/
def isSign (c : Char) : Bool := c == '+' || c == '-'

/-- The value of digits with a sign or without one, if they are some and it has 128 bits. -/
def signed? (base : Nat) (cs : List Char) : Option Int :=
  let value? : Option Int :=
    match cs with
    | '+' :: digits => (digits? base digits).map (Int.ofNat ·)
    | '-' :: digits => (digits? base digits).map fun n => -Int.ofNat n
    | digits => (digits? base digits).map (Int.ofNat ·)
  value?.filter has128Bits

/-- The value of an integer as it is written, if it is one. The zero that makes an integer octal is cut
off by its bytes, which gives nothing if no character ends there. -/
def ofText? (cs : List Char) : Option (Option Int) :=
  match (withoutUnderscores cs).map Char.toLower with
  | '0' :: 'x' :: digits => some (signed? 16 digits)
  | '0' :: 'b' :: digits => some (signed? 2 digits)
  | '0' :: 'o' :: digits => some (signed? 8 digits)
  | '0' :: 'd' :: digits => some (signed? 10 digits)
  | '0' :: c :: digits => (Source.dropBytes? ('0' :: c :: digits) 1).map (signed? 8)
  | digits => some (signed? 10 digits)

end RubyCheck.Number
