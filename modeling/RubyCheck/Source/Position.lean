/-!
# Positions and spans

A position counts the bytes, the line breaks and the characters since the last line break that precede a
point of a text; a span is the half-open stretch between two positions. Counting starts at zero here and at
one where a position is shown.
-/

namespace RubyCheck

/-- A point of a text. -/
structure Position where
  /-- Bytes of UTF-8 before the point. -/
  byte : Nat
  /-- Line breaks before the point. -/
  line : Nat
  /-- Characters since the last line break, or since the beginning. -/
  column : Nat
deriving DecidableEq, Ord, Inhabited, Repr

namespace Position

/-- The beginning of a text. -/
def origin : Position := ⟨0, 0, 0⟩

/-- The point behind one more character. -/
def advance (p : Position) (c : Char) : Position :=
  if c = '\n' then ⟨p.byte + c.utf8Size, p.line + 1, 0⟩
  else ⟨p.byte + c.utf8Size, p.line, p.column + 1⟩

/-- The point behind a run of characters. -/
def advanceOver (p : Position) (cs : List Char) : Position :=
  cs.foldl advance p

@[simp] theorem advanceOver_nil (p : Position) : p.advanceOver [] = p := rfl

@[simp] theorem advanceOver_cons (p : Position) (c : Char) (cs : List Char) :
    p.advanceOver (c :: cs) = (p.advance c).advanceOver cs := rfl

/-- The line number shown for a position. -/
def shownLine (p : Position) : Nat := p.line + 1

/-- The column number shown for a position. -/
def shownColumn (p : Position) : Nat := p.column + 1

/-- A position as it is shown, `line:column`. -/
def shown (p : Position) : String :=
  s!"{p.shownLine}:{p.shownColumn}"

/-- The later of two positions, compared by byte, then line, then column. -/
def later (p q : Position) : Position :=
  if compare p q = .gt then p else q

end Position

/-- The stretch of text from one position up to another. -/
structure Span where
  /-- Where the stretch begins. -/
  start : Position
  /-- Where it ends; the character there is no part of it. -/
  stop : Position
deriving DecidableEq, Inhabited, Repr

namespace Span

/-- The empty span at a position. -/
def point (p : Position) : Span := ⟨p, p⟩

/-- The number of bytes of a span; none if it ends before it begins. -/
def length (s : Span) : Nat := s.stop.byte - s.start.byte

/-- Whether a span covers no byte. -/
def isEmpty (s : Span) : Bool := s.length == 0

/-- The smallest span that covers both. -/
def merge (s t : Span) : Span where
  start := if t.start.byte < s.start.byte then t.start else s.start
  stop := if s.stop.byte < t.stop.byte then t.stop else s.stop

/-- Whether a byte offset lies in a span. -/
def contains (s : Span) (byte : Nat) : Bool :=
  s.start.byte ≤ byte && byte < s.stop.byte

end Span

end RubyCheck
