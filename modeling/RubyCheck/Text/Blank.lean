/-!
# Blank characters

The characters with the Unicode property `White_Space`. A text is trimmed of them on the left before a
heredoc terminator is compared, and a line that continues its predecessor may begin with any of them.
-/

namespace RubyCheck.Text

/-- Whether a character has the property `White_Space`. -/
def isBlank (c : Char) : Bool :=
  let n := c.toNat
  (0x09 ≤ n && n ≤ 0x0D) || n == 0x20 || n == 0x85 || n == 0xA0 || n == 0x1680 ||
    (0x2000 ≤ n && n ≤ 0x200A) || n == 0x2028 || n == 0x2029 || n == 0x202F || n == 0x205F ||
    n == 0x3000

/-- A text without the blank characters it begins with. -/
def trimLeft (cs : List Char) : List Char :=
  cs.dropWhile isBlank

end RubyCheck.Text
