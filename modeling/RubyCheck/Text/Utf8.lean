/-!
# UTF-8

Bytes as characters. Reading stops at the first byte that begins no character, so what was read is the
longest prefix that is well-formed. The forms are those of the standard: none is longer than it need be, and
no surrogate and nothing beyond the last code point has one.
-/

namespace RubyCheck.Text.Utf8

/-- Whether a byte continues a character. -/
def isTail (b : UInt8) : Bool := 0x80 ≤ b && b ≤ 0xbf

/-- Whether a second byte may follow a first one in a form of three bytes. -/
def secondOfThree (a b : UInt8) : Bool :=
  if a == 0xe0 then 0xa0 ≤ b && b ≤ 0xbf
  else if a == 0xed then 0x80 ≤ b && b ≤ 0x9f
  else isTail b

/-- Whether a second byte may follow a first one in a form of four bytes. -/
def secondOfFour (a b : UInt8) : Bool :=
  if a == 0xf0 then 0x90 ≤ b && b ≤ 0xbf
  else if a == 0xf4 then 0x80 ≤ b && b ≤ 0x8f
  else isTail b

/-- The six bits that a continuing byte carries. -/
def tailBits (b : UInt8) : Nat := b.toNat - 0x80

/-- The character of a form of two bytes. -/
def two? (a b : UInt8) : Option Char :=
  if 0xc2 ≤ a && a ≤ 0xdf && isTail b then
    some (Char.ofNat ((a.toNat - 0xc0) * 64 + tailBits b))
  else none

/-- The character of a form of three bytes. -/
def three? (a b c : UInt8) : Option Char :=
  if 0xe0 ≤ a && a ≤ 0xef && secondOfThree a b && isTail c then
    some (Char.ofNat (((a.toNat - 0xe0) * 64 + tailBits b) * 64 + tailBits c))
  else none

/-- The character of a form of four bytes. -/
def four? (a b c d : UInt8) : Option Char :=
  if 0xf0 ≤ a && a ≤ 0xf4 && secondOfFour a b && isTail c && isTail d then
    some (Char.ofNat ((((a.toNat - 0xf0) * 64 + tailBits b) * 64 + tailBits c) * 64 + tailBits d))
  else none

/-- The character that bytes begin with and the bytes behind it. -/
def first? : List UInt8 → Option (Char × List UInt8)
  | [] => none
  | a :: rest =>
    if a < 0x80 then some (Char.ofNat a.toNat, rest)
    else match rest with
      | [] => none
      | b :: rest =>
        match two? a b, rest with
        | some ch, _ => some (ch, rest)
        | none, [] => none
        | none, c :: rest =>
          match three? a b c, rest with
          | some ch, _ => some (ch, rest)
          | none, [] => none
          | none, d :: rest => (four? a b c d).map (·, rest)

theorem length_of_first? {bytes rest : List UInt8} {ch : Char}
    (h : first? bytes = some (ch, rest)) : rest.length < bytes.length := by
  unfold first? at h
  split at h
  · cases h
  · split at h
    · cases h; simp
    · split at h
      · cases h
      · split at h
        · cases h; simp only [List.length_cons]; omega
        · cases h
        · split at h
          · cases h; simp only [List.length_cons]; omega
          · cases h
          · obtain ⟨_, _, h⟩ := Option.map_eq_some_iff.1 h
            cases h; simp only [List.length_cons]; omega

/-- Reads characters as long as bytes begin with one, behind the characters read already, last first. -/
def readFrom (seen : List Char) (bytes : List UInt8) : List Char × List UInt8 :=
  match _h : first? bytes with
  | some (c, rest) => readFrom (c :: seen) rest
  | none => (seen.reverse, bytes)
termination_by bytes.length
decreasing_by exact length_of_first? _h

/-- The characters of some bytes; if they are not well-formed, the length of their longest well-formed
prefix. -/
def decode (bytes : List UInt8) : Except Nat (List Char) :=
  match readFrom [] bytes with
  | (cs, []) => .ok cs
  | (_, b :: rest) => .error (bytes.length - (b :: rest).length)

end RubyCheck.Text.Utf8
