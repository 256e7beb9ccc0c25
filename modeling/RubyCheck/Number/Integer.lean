import RubyCheck.Text.Letter

/-!
# The value of an integer

An integer is written in base sixteen, two, eight or ten behind a prefix, in base eight behind a zero and
in base ten else, with underscores between its digits wherever one likes. Values that take more than 127 bits
are not told apart, so they count as unknown.
-/

namespace RubyCheck.Number

/-- The value of a digit, which is a decimal one or a letter of either case. -/
def digitValue? (c : Char) : Option Nat :=
  if '0' ≤ c && c ≤ '9' then some (c.toNat - '0'.toNat)
  else if 'a' ≤ c && c ≤ 'z' then some (c.toNat - 'a'.toNat + 10)
  else if 'A' ≤ c && c ≤ 'Z' then some (c.toNat - 'A'.toNat + 10)
  else none

/-- The value of some digits behind a value, if all of them are digits of the base. -/
def digitsFrom? (base value : Nat) : List Char → Option Nat
  | [] => some value
  | c :: cs =>
    match digitValue? c with
    | some d => if d < base then digitsFrom? base (value * base + d) cs else none
    | none => none

/-- The value of one or more digits. -/
def digits? (base : Nat) : List Char → Option Nat
  | [] => none
  | cs => digitsFrom? base 0 cs

/-- The base of an integer without underscores, and its digits. -/
def baseAndDigits : List Char → Nat × List Char
  | '0' :: [] => (10, ['0'])
  | '0' :: c :: cs =>
    match c.toLower with
    | 'x' => (16, cs)
    | 'b' => (2, cs)
    | 'o' => (8, cs)
    | 'd' => (10, cs)
    | _ => (8, c :: cs)
  | cs => (10, cs)

/-- What stays of a number when underscores are left out. -/
def withoutUnderscores (cs : List Char) : List Char := cs.filter (· != '_')

/-- The value of an integer as it is written, if it is one and less than `2 ^ 127`. -/
def integer? (cs : List Char) : Option Nat :=
  let (base, digits) := baseAndDigits (withoutUnderscores cs)
  (digits? base digits).filter (· < Nat.pow 2 127)

end RubyCheck.Number
