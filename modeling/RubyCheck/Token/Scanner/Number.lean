import RubyCheck.Text.Letter
import RubyCheck.Token.Scanner.State

/-!
# Numbers

An integer has a base prefix, or a leading zero that makes it octal, or neither; a float has a fraction or
an exponent. Underscores may separate digits. The lexeme is measured first: its length, its kind, and
whether its digits fit its base.
-/

namespace RubyCheck.Scanner

open Text

/-- A measured numeric lexeme. -/
structure Numeral where
  /-- How many characters it has. -/
  length : Nat
  kind : TokenKind
  /-- Its digits are missing or do not fit its base. -/
  malformed : Bool
deriving DecidableEq, Repr

namespace Numeral

/-- A decimal digit or the underscore that may separate digits. -/
def isDigitOrBar (c : Char) : Bool := isAsciiDigit c || c == '_'

/-- The digits of a number in the base that a letter behind the leading zero announces. -/
def baseDigit? : Char → Option (Char → Bool)
  | 'x' | 'X' => some fun c => isAsciiHexDigit c || c == '_'
  | 'b' | 'B' => some fun c => c == '0' || c == '1' || c == '_'
  | 'o' | 'O' | 'd' | 'D' => some isDigitOrBar
  | _ => none

/-- Whether digits include one that no octal number has. -/
def beyondOctal (digits : List Char) : Bool := digits.any fun c => c == '8' || c == '9'

/-- A number that begins with a zero, from the characters behind the zero: one with a base letter, or a
legacy octal number. -/
def ofPrefixed? : List Char → Option Numeral
  | [] => none
  | c :: cs =>
    match baseDigit? c with
    | some isDigit =>
      let digits := cs.takeWhile isDigit
      let octal := c == 'o' || c == 'O'
      some ⟨2 + digits.length, .integer, digits.isEmpty || (octal && beyondOctal digits)⟩
    | none =>
      if isDigitOrBar c then
        let digits := (c :: cs).takeWhile isDigitOrBar
        if beyondOctal digits then some ⟨1 + digits.length, .integer, true⟩
        else some ⟨1 + digits.length, .legacyOctal, false⟩
      else none

/-- The length of a fraction: a point with digits behind it. -/
def fractionLength : List Char → Nat
  | '.' :: c :: cs => if isAsciiDigit c then 1 + ((c :: cs).takeWhile isDigitOrBar).length else 0
  | _ => 0

/-- The length of an exponent: its letter, perhaps a sign, and digits. -/
def exponentLength : List Char → Nat
  | e :: c :: cs =>
    if e == 'e' || e == 'E' then
      if isAsciiDigit c then 1 + ((c :: cs).takeWhile isAsciiDigit).length
      else if (c == '+' || c == '-') && cs.head?.any isAsciiDigit then
        2 + (cs.takeWhile isAsciiDigit).length
      else 0
    else 0
  | _ => 0

/-- A decimal number: digits, perhaps a fraction, perhaps an exponent. -/
def ofDecimal (cs : List Char) : Numeral :=
  let whole := (cs.takeWhile isDigitOrBar).length
  let fraction := fractionLength (cs.drop whole)
  let exponent := exponentLength (cs.drop (whole + fraction))
  ⟨whole + fraction + exponent,
    if fraction == 0 && exponent == 0 then .integer else .float, false⟩

/-- The length of a suffix for rational and imaginary numbers. -/
def suffixLength : List Char → Nat
  | c :: cs => if (c == 'r' || c == 'i') && !cs.head?.any continuesName then 1 else 0
  | [] => 0

/-- Whether two underscores stand side by side. -/
def hasDoubleBar : List Char → Bool
  | '_' :: '_' :: _ => true
  | _ :: cs => hasDoubleBar cs
  | [] => false

/-- The number that a text begins with, given that it begins with a digit. -/
def ofText (cs : List Char) : Numeral :=
  let bare := ((if cs.head? == some '0' then ofPrefixed? cs.tail else none).getD (ofDecimal cs))
  let length := bare.length + suffixLength (cs.drop bare.length)
  let lexeme := cs.take length
  { bare with
    length := length
    malformed := bare.malformed || hasDoubleBar lexeme || lexeme.getLast? == some '_' }

end Numeral

/-- Reads a number. -/
def scanNumber (s : Scanner) (spaced : Bool) : Scanner :=
  let n := Numeral.ofText s.cursor.rest
  let s :=
    if n.malformed then s.complain (.invalidNumber (s.textOf n.length)) (s.spanOf n.length) else s
  (s.emit n.kind n.length spaced).expecting .operator

end RubyCheck.Scanner
