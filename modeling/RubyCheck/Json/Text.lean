/-!
# Strings of JSON

What stands between the quotes of a string. Writing puts quotes, backslashes and control characters behind a
backslash and leaves all else as it is. Reading knows every escape of the format; a character beyond the
first plane may be written as two surrogates, and a surrogate alone is refused.
-/

namespace RubyCheck.Json

/-- The digit of a number below sixteen, in lower case. -/
def hexDigit (n : Nat) : Char := Nat.digitChar (n % 16)

/-- How a character is written in a string. -/
def escapeChar (c : Char) : List Char :=
  match c with
  | '"' => ['\\', '"']
  | '\\' => ['\\', '\\']
  | '\x08' => ['\\', 'b']
  | '\x0c' => ['\\', 'f']
  | '\n' => ['\\', 'n']
  | '\r' => ['\\', 'r']
  | '\t' => ['\\', 't']
  | _ => if c.toNat < 32 then ['\\', 'u', '0', '0', hexDigit (c.toNat / 16), hexDigit c.toNat] else [c]

/-- A text as it is written in a string. -/
def escape (cs : List Char) : List Char := cs.flatMap escapeChar

/-- The value of a digit in base sixteen. -/
def hexValue? (c : Char) : Option Nat :=
  if '0' ≤ c && c ≤ '9' then some (c.toNat - '0'.toNat)
  else if 'a' ≤ c && c ≤ 'f' then some (c.toNat - 'a'.toNat + 10)
  else if 'A' ≤ c && c ≤ 'F' then some (c.toNat - 'A'.toNat + 10)
  else none

/-- The value of four digits in base sixteen. -/
def fourDigits? (a b c d : Char) : Option Nat := do
  return (((← hexValue? a) * 16 + (← hexValue? b)) * 16 + (← hexValue? c)) * 16 + (← hexValue? d)

/-- The character behind a backslash that stands for another one. -/
def shortEscape? : Char → Option Char
  | '"' => some '"'
  | '\\' => some '\\'
  | '/' => some '/'
  | 'b' => some '\x08'
  | 'f' => some '\x0c'
  | 'n' => some '\n'
  | 'r' => some '\r'
  | 't' => some '\t'
  | _ => none

/-- Whether a number is a surrogate that begins a pair. -/
def isHighSurrogate (n : Nat) : Bool := 0xd800 ≤ n && n < 0xdc00

/-- Whether a number is a surrogate that ends a pair. -/
def isLowSurrogate (n : Nat) : Bool := 0xdc00 ≤ n && n < 0xe000

/-- The character of a pair of surrogates. -/
def pairChar (high low : Nat) : Char :=
  Char.ofNat (0x10000 + (high - 0xd800) * 0x400 + (low - 0xdc00))

/-- The text that is written between quotes, if every escape in it stands for a character. -/
def unescape : List Char → Option (List Char)
  | [] => some []
  | '\\' :: 'u' :: a :: b :: c :: d :: rest =>
    match fourDigits? a b c d with
    | none => none
    | some n =>
      if isHighSurrogate n then
        match rest with
        | '\\' :: 'u' :: e :: f :: g :: h :: rest =>
          match fourDigits? e f g h with
          | some m =>
            if isLowSurrogate m then (unescape rest).map (pairChar n m :: ·) else none
          | none => none
        | _ => none
      else if isLowSurrogate n then none
      else (unescape rest).map (Char.ofNat n :: ·)
  | c :: rest =>
    if c = '\\' then
      match rest with
      | [] => none
      | e :: rest =>
        match shortEscape? e with
        | some ch => (unescape rest).map (ch :: ·)
        | none => none
    else (unescape rest).map (c :: ·)

example : unescape ['a', '\\', 'n'] = some ['a', '\n'] := by cbv

/-- Whether every escape in a string has the right form, even if it stands for no character. -/
def wellEscaped : List Char → Bool
  | [] => true
  | '\\' :: 'u' :: a :: b :: c :: d :: rest => (fourDigits? a b c d).isSome && wellEscaped rest
  | c :: rest =>
    if c = '\\' then
      match rest with
      | [] => false
      | e :: rest => (shortEscape? e).isSome && wellEscaped rest
    else wellEscaped rest

example : wellEscaped ['\\', 'x'] = false := by cbv

end RubyCheck.Json
