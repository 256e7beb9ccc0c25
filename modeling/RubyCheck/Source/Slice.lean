/-!
# Slices by byte offset

Offsets into a text count bytes of UTF-8. An offset inside a character names no point of the text, and a
slice with such an end does not exist.
-/

namespace RubyCheck.Source

/-- The number of bytes of a text. -/
def byteLength (cs : List Char) : Nat :=
  cs.foldl (fun n c => n + c.utf8Size) 0

/-- What is left of a text behind its first `n` bytes, if a character ends there. -/
def dropBytes? : List Char → Nat → Option (List Char)
  | cs, 0 => some cs
  | [], _ + 1 => none
  | c :: cs, n + 1 => if c.utf8Size ≤ n + 1 then dropBytes? cs (n + 1 - c.utf8Size) else none

/-- How many characters make up the first `n` bytes of a text, if a character ends there. -/
def charsIn? : List Char → Nat → Option Nat
  | _, 0 => some 0
  | [], _ + 1 => none
  | c :: cs, n + 1 =>
    if c.utf8Size ≤ n + 1 then (charsIn? cs (n + 1 - c.utf8Size)).map (· + 1) else none

/-- The slice of a text between two byte offsets, if both are points of the text and in order. -/
def slice? (cs : List Char) (start stop : Nat) : Option (List Char) :=
  if start ≤ stop then do
    let rest ← dropBytes? cs start
    let count ← charsIn? rest (stop - start)
    return rest.take count
  else none

end RubyCheck.Source
