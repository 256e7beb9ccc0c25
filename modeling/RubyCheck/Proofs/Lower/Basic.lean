import Mathlib.Data.List.Basic
import RubyCheck.Fault
import RubyCheck.Source.Cursor
import RubyCheck.Token.Basic

/-!
# Further down in a text

With empty lines in front of a text every place in it is further down by as many lines, and by as
many bytes; its column is the same.  This file moves places, spans, cursors, tokens and faults down, and
says that reading on and comparing places make no difference between a text and the same text further down.
-/

namespace RubyCheck

variable (n : ℕ)

/-! ### Places -/

namespace Position

/-- The place in a text with `n` empty lines in front of it. -/
def lower (p : Position) : Position := ⟨p.byte + n, p.line + n, p.column⟩

variable (p q : Position)

@[simp] lemma byte_lower : (p.lower n).byte = p.byte + n := rfl

@[simp] lemma line_lower : (p.lower n).line = p.line + n := rfl

@[simp] lemma column_lower : (p.lower n).column = p.column := rfl

@[simp] lemma shownLine_lower : (p.lower n).shownLine = p.shownLine + n :=
  Nat.add_right_comm p.line n 1

@[simp] lemma shownColumn_lower : (p.lower n).shownColumn = p.shownColumn := rfl

/-- Behind a character a position is as far down as in front of it. -/
@[simp] lemma advance_lower (c : Char) : (p.lower n).advance c = (p.advance c).lower n := by
  unfold advance
  split
  · simp [lower, Nat.add_right_comm]
  · simp [lower, Nat.add_right_comm]

/-- Positions that are further down compare as they did. -/
lemma compare_lower : compare (p.lower n) (q.lower n) = compare p q := by
  have hnat (a b : ℕ) : compare (a + n) (b + n) = compare a b := by
    simp [Nat.compare_eq_ite_lt]
  obtain ⟨b, l, c⟩ := p
  obtain ⟨b', l', c'⟩ := q
  change (compare (b + n) (b' + n)).then ((compare (l + n) (l' + n)).then _) =
    (compare b b').then ((compare l l').then _)
  rw [hnat, hnat]

/-- The later of two positions is the same one further down. -/
@[simp] lemma later_lower : (p.lower n).later (q.lower n) = (p.later q).lower n := by
  unfold later
  rw [compare_lower]
  split
  · rfl
  · rfl

end Position

/-! ### Spans -/

namespace Span

/-- The span in a text with `n` empty lines in front of it. -/
def lower (s : Span) : Span := ⟨s.start.lower n, s.stop.lower n⟩

variable (s : Span)

@[simp] lemma start_lower : (s.lower n).start = s.start.lower n := rfl

@[simp] lemma stop_lower : (s.lower n).stop = s.stop.lower n := rfl

/-- A span contains the same bytes further down. -/
@[simp] lemma contains_lower (byte : ℕ) : (s.lower n).contains (byte + n) = s.contains byte := by
  simp [contains]

end Span

/-! ### Cursors -/

namespace Cursor

/-- The cursor in a text with `n` empty lines in front of it. -/
def lower (c : Cursor) : Cursor := ⟨c.position.lower n, c.rest, c.limit + n⟩

variable (c : Cursor)

@[simp] lemma position_lower : (c.lower n).position = c.position.lower n := rfl

@[simp] lemma rest_lower : (c.lower n).rest = c.rest := rfl

@[simp] lemma atLineStart_lower : (c.lower n).atLineStart = c.atLineStart := rfl

@[simp] lemma peek_lower : (c.lower n).peek = c.peek := rfl

@[simp] lemma peekAt_lower (k : ℕ) : (c.lower n).peekAt k = c.peekAt k := rfl

@[simp] lemma startsWith_lower (text : List Char) :
    (c.lower n).startsWith text = c.startsWith text := rfl

@[simp] lemma run_lower (p : Char → Bool) : (c.lower n).run p = c.run p := rfl

/-- A cursor moves on further down as it does further up. -/
@[simp] lemma advance_lower : (c.lower n).advance = c.advance.lower n := by
  obtain ⟨position, rest, limit⟩ := c
  cases rest with
  | nil => rfl
  | cons x xs => simp [advance, lower]

/-- A cursor moves on by any number of characters further down. -/
@[simp] lemma advanceBy_lower (k : ℕ) : advanceBy k (c.lower n) = (advanceBy k c).lower n := by
  induction k generalizing c with
  | zero => rfl
  | succ k ih => rw [advanceBy_succ, advanceBy_succ, advance_lower, ih]

/-- The next line begins further down. -/
@[simp] lemma nextLine_lower : (c.lower n).nextLine = c.nextLine.lower n := by
  simp [nextLine]

/-- A cursor sees a part of the text further down. -/
@[simp] lemma narrow_lower (k : ℕ) : (c.lower n).narrow k = (c.narrow k).lower n := by
  unfold narrow
  rw [advanceBy_lower]
  rfl

end Cursor

/-! ### Tokens and faults -/

/-- The token in a text with `n` empty lines in front of it. -/
def Token.lower (n : ℕ) (t : Token) : Token := { t with span := t.span.lower n }

/-- The fault in a text with `n` empty lines in front of it. -/
def Fault.lower (n : ℕ) (f : Fault) : Fault := ⟨f.cause, f.span.lower n⟩

namespace Token

variable (n : ℕ) (t : Token)

@[simp] lemma kind_lower : (t.lower n).kind = t.kind := rfl

@[simp] lemma spaced_lower : (t.lower n).spaced = t.spaced := rfl

@[simp] lemma span_lower : (t.lower n).span = t.span.lower n := rfl

end Token

end RubyCheck
