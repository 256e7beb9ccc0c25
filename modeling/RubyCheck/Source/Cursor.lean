import RubyCheck.Source.Position
import RubyCheck.Source.Slice

/-!
# Cursors

A cursor stands at a position of a text and sees the characters from there up to a limit. Reading moves it
forward over whole characters, and its position counts what it has passed. All movement is by a number of
characters, so every operation is a case of `advanceBy`.
-/

namespace RubyCheck

/-- A place in a text and the characters ahead of it. -/
structure Cursor where
  /-- Where the cursor stands. -/
  position : Position
  /-- The characters from here up to the limit. -/
  rest : List Char
  /-- The byte offset that the cursor may not pass. -/
  limit : Nat
deriving DecidableEq, Inhabited, Repr

namespace Cursor

/-- A cursor at the beginning of a text, free to read all of it. -/
def ofText (source : List Char) : Cursor :=
  ⟨.origin, source, Source.byteLength source⟩

/-- A cursor at a given position of a text that reads up to a limit. It sees nothing if either end is no
point of the text. -/
def within (source : List Char) (start : Position) (limit : Nat) : Cursor :=
  let limit := min limit (Source.byteLength source)
  ⟨start, (Source.slice? source start.byte limit).getD [], limit⟩

/-- Whether the cursor has reached its limit. -/
def atLimit (c : Cursor) : Bool := c.limit ≤ c.position.byte

/-- Whether the cursor stands in the first column of a line. -/
def atLineStart (c : Cursor) : Bool := c.position.column == 0

/-- The character `n` places ahead; `peekAt 0` is the one under the cursor. -/
def peekAt (c : Cursor) (n : Nat) : Option Char := c.rest[n]?

/-- The character under the cursor. -/
def peek (c : Cursor) : Option Char := c.rest.head?

/-- Whether the text ahead begins with the given characters. -/
def startsWith (c : Cursor) (text : List Char) : Bool := text.isPrefixOf c.rest

/-- The cursor one character further, or where it is if there is none. -/
def advance (c : Cursor) : Cursor :=
  match c.rest with
  | [] => c
  | x :: xs => { c with position := c.position.advance x, rest := xs }

/-- The cursor a number of characters further, or at the last one. -/
def advanceBy : Nat → Cursor → Cursor
  | 0, c => c
  | n + 1, c => advanceBy n c.advance

/-- How many characters ahead of the cursor, in a row, satisfy a test. -/
def run (c : Cursor) (p : Char → Bool) : Nat := (c.rest.takeWhile p).length

/-- The cursor behind the longest run of characters that satisfy a test. -/
def skipWhile (c : Cursor) (p : Char → Bool) : Cursor := advanceBy (c.run p) c

/-- How many characters it takes to reach a byte offset, or to pass it if it lies inside a character. -/
def charsUpTo : List Char → Nat → Nat
  | [], _ => 0
  | _, 0 => 0
  | c :: cs, n + 1 => charsUpTo cs (n + 1 - c.utf8Size) + 1

/-- The cursor moved on until it reaches a byte offset or its limit. -/
def advanceTo (c : Cursor) (byte : Nat) : Cursor :=
  advanceBy (charsUpTo c.rest (byte - c.position.byte)) c

/-- The text of the source between a byte offset and the cursor; nothing if the offset is no point of the
source or lies ahead of the cursor. -/
def sliceFrom (c : Cursor) (source : List Char) (start : Nat) : List Char :=
  (Source.slice? source start c.position.byte).getD []

/-- The cursor behind the end of the current line, over the line break if there is one. -/
def nextLine (c : Cursor) : Cursor :=
  (advanceBy (c.run (· != '\n')) c).advance

/-- A cursor at the same place that sees only the next `n` characters. -/
def narrow (c : Cursor) (n : Nat) : Cursor where
  position := c.position
  rest := c.rest.take n
  limit := (advanceBy n c).position.byte

@[simp] theorem advanceBy_zero (c : Cursor) : advanceBy 0 c = c := rfl

theorem advanceBy_succ (n : Nat) (c : Cursor) : advanceBy (n + 1) c = advanceBy n c.advance := rfl

theorem rest_advance (c : Cursor) : c.advance.rest = c.rest.tail := by
  cases h : c.rest <;> simp [advance, h]

@[simp] theorem rest_advanceBy (n : Nat) (c : Cursor) : (advanceBy n c).rest = c.rest.drop n := by
  induction n generalizing c with
  | zero => rfl
  | succ n ih => rw [advanceBy_succ, ih, rest_advance, List.drop_tail]

@[simp] theorem limit_advance (c : Cursor) : c.advance.limit = c.limit := by
  cases h : c.rest <;> simp [advance, h]

@[simp] theorem limit_advanceBy (n : Nat) (c : Cursor) : (advanceBy n c).limit = c.limit := by
  induction n generalizing c with
  | zero => rfl
  | succ n ih => rw [advanceBy_succ, ih, limit_advance]

/-- Moving by a count of characters moves the position over exactly those characters. -/
theorem position_advanceBy (n : Nat) (c : Cursor) :
    (advanceBy n c).position = c.position.advanceOver (c.rest.take n) := by
  induction n generalizing c with
  | zero => simp
  | succ n ih =>
    rw [advanceBy_succ, ih]
    cases h : c.rest <;> simp [advance, h]

end Cursor

end RubyCheck
