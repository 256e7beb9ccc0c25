import RubyCheck.Number.Integer

/-!
# Binary floating point with 64 bits

The double nearest to a decimal number, in exact arithmetic; of two that are equally near, the one with an
even significand. A double is given by its bits, as a natural number.
-/

namespace RubyCheck.Number

/-- The significand that normal doubles begin with. -/
def leastSignificand : Nat := Nat.pow 2 52

/-- The bit of the sign. -/
def signBit : Nat := Nat.pow 2 63

/-- The bits of infinity. -/
def infinityBits : Nat := 2047 * leastSignificand

/-- The bits of the double of opposite sign. -/
def negateBits (bits : Nat) : Nat := if bits < signBit then bits + signBit else bits - signBit

/-- A quotient rounded to an integer; a half goes to the even neighbour. -/
def roundDiv (num den : Nat) : Nat :=
  let q := num / den
  let r := num % den
  if den < 2 * r || (2 * r == den && q % 2 == 1) then q + 1 else q

/-- A quotient over a power of two. -/
def scaled (num den : Nat) : Int → Nat × Nat
  | .ofNat q => (num, den * Nat.pow 2 q)
  | .negSucc q => (num * Nat.pow 2 (q + 1), den)

/-- The exponent of the last place of the double nearest to a positive quotient. A double has 53 places, and
none beyond the one for two to the power of -1074. -/
def lastPlace (num den : Nat) : Int :=
  let guess : Int := num.log2 - den.log2 - 53
  let (n, d) := scaled num den guess
  max (if n / d < 2 * leastSignificand then guess else guess + 1) (-1074)

/-- The bits of the double nearest to a quotient. A significand that rounding carries over moves on to the next
exponent by itself. -/
def nearestBits (num den : Nat) : Nat :=
  if num = 0 then 0
  else
    let place := lastPlace num den
    let (n, d) := scaled num den place
    let significand := roundDiv n d
    if significand < leastSignificand then significand
    else
      min infinityBits
        ((place + 1075).toNat * leastSignificand + (significand - leastSignificand))

/-- The bits of the double nearest to `value` times ten to a power, where `value` has `count` digits. Powers
far out of range are not computed with. -/
def nearestDecimal (value count : Nat) (exponent : Int) : Nat :=
  if value = 0 || exponent + count < -400 then 0
  else if 400 < exponent then infinityBits
  else
    match exponent with
    | .ofNat e => nearestBits (value * Nat.pow 10 e) 1
    | .negSucc e => nearestBits value (Nat.pow 10 (e + 1))

/-- The exponent of a decimal number, behind its digits. -/
def exponent? : List Char → Option Int
  | [] => some 0
  | e :: cs =>
    if e == 'e' || e == 'E' then
      match cs with
      | '-' :: ds => (digits? 10 ds).map fun n => -(n : Int)
      | '+' :: ds => (digits? 10 ds).map fun n => (n : Int)
      | ds => (digits? 10 ds).map fun n => (n : Int)
    else none

/-- The bits of the double that digits before and behind a point and an exponent denote. -/
def decimalBits? (whole fraction rest : List Char) : Option Nat := do
  let value ← digits? 10 (whole ++ fraction)
  let exponent ← exponent? rest
  return nearestDecimal value (whole.length + fraction.length) (exponent - fraction.length)

/-- The bits of the double that a decimal number denotes, if it is one. -/
def floatBits? (cs : List Char) : Option Nat :=
  let cs := withoutUnderscores cs
  let whole := cs.takeWhile Text.isAsciiDigit
  match cs.dropWhile Text.isAsciiDigit with
  | '.' :: rest =>
    decimalBits? whole (rest.takeWhile Text.isAsciiDigit) (rest.dropWhile Text.isAsciiDigit)
  | rest => decimalBits? whole [] rest

end RubyCheck.Number
