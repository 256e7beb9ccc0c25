import Mathlib.Data.List.Infix
import RubyCheck.Source.Cursor

/-!
# Exact positions

A position is exact when its three counts are those of the text in front of it: the bytes, the line
breaks, and the characters behind the last line break.  `Position.behind` reads them off that text
at once; `Position.advanceOver` carries them along character by character, which is what cursors do,
and the two agree (`Position.behind_append`).  A cursor that stands at an exact position keeps
standing at one wherever it is moved, and so do the cursors that see only a part of the text ahead.
-/

namespace RubyCheck

namespace Source

/-- The empty text has no bytes. -/
@[simp] theorem byteLength_nil : byteLength [] = 0 := rfl

/-- Counting bytes may begin with any number already counted. -/
private lemma foldl_utf8Size (cs : List Char) (n : ℕ) :
    cs.foldl (fun n c => n + c.utf8Size) n = n + byteLength cs := by
  induction cs generalizing n with
  | nil => rfl
  | cons c cs ih =>
    simp only [byteLength, List.foldl_cons]
    rw [ih, ih (0 + c.utf8Size)]
    omega

/-- A text has the bytes of its first character and those of the rest. -/
@[simp] theorem byteLength_cons (c : Char) (cs : List Char) :
    byteLength (c :: cs) = c.utf8Size + byteLength cs := by
  rw [byteLength, List.foldl_cons, foldl_utf8Size, Nat.zero_add]

/-- Texts put together have the bytes of both. -/
@[simp] theorem byteLength_append (cs ds : List Char) :
    byteLength (cs ++ ds) = byteLength cs + byteLength ds := by
  induction cs with
  | nil => simp
  | cons c cs ih => simp only [List.cons_append, byteLength_cons, ih]; omega

/-- Dropping at least the bytes of the first character drops that character. -/
lemma dropBytes?_cons_add (c : Char) (cs : List Char) (n : ℕ) :
    dropBytes? (c :: cs) (c.utf8Size + n) = dropBytes? cs n := by
  obtain ⟨k, hk⟩ := Nat.exists_eq_succ_of_ne_zero (Char.utf8Size_pos c).ne'
  rw [hk, show k.succ + n = k + n + 1 by omega, dropBytes?, if_pos (by omega)]
  congr 1
  omega

/-- Counting at least the bytes of the first character counts that character. -/
lemma charsIn?_cons_add (c : Char) (cs : List Char) (n : ℕ) :
    charsIn? (c :: cs) (c.utf8Size + n) = (charsIn? cs n).map (· + 1) := by
  obtain ⟨k, hk⟩ := Nat.exists_eq_succ_of_ne_zero (Char.utf8Size_pos c).ne'
  rw [hk, show k.succ + n = k + n + 1 by omega, charsIn?, if_pos (by omega)]
  congr 2
  omega

/-- Behind the bytes of its beginning stands the rest of a text. -/
@[simp] theorem dropBytes?_append (before rest : List Char) :
    dropBytes? (before ++ rest) (byteLength before) = some rest := by
  induction before with
  | nil => cases rest <;> rfl
  | cons c before ih => rw [List.cons_append, byteLength_cons, dropBytes?_cons_add, ih]

/-- The bytes of the beginning of a text are those of its characters. -/
@[simp] theorem charsIn?_append (middle rest : List Char) :
    charsIn? (middle ++ rest) (byteLength middle) = some middle.length := by
  induction middle with
  | nil => cases rest <;> rfl
  | cons c middle ih =>
    rw [List.cons_append, byteLength_cons, charsIn?_cons_add, ih]
    rfl

/-- The slice between the two ends of a part of a text is that part. -/
theorem slice?_append (before middle rest : List Char) :
    slice? (before ++ middle ++ rest) (byteLength before) (byteLength (before ++ middle)) =
      some middle := by
  rw [slice?, if_pos (by simp), List.append_assoc, dropBytes?_append]
  simp

end Source

namespace Position

open Source

/-- The position behind a text: its bytes, its line breaks, and its characters behind the last line
break. -/
def behind (before : List Char) : Position where
  byte := byteLength before
  line := before.count '\n'
  column := (before.reverse.takeWhile (· != '\n')).length

@[simp] theorem behind_nil : behind [] = .origin := rfl

/-- Behind one more character stands the next position. -/
lemma behind_concat (before : List Char) (c : Char) :
    behind (before ++ [c]) = (behind before).advance c := by
  unfold behind advance
  by_cases hc : c = '\n'
  · subst hc
    simp
  · have hne : (c != '\n') = true := by simpa using hc
    simp [hc, hne]

/-- Carrying a position over more of a text gives the position behind it. -/
theorem behind_append (before cs : List Char) :
    behind (before ++ cs) = (behind before).advanceOver cs := by
  induction cs generalizing before with
  | nil => simp
  | cons c cs ih =>
    rw [advanceOver_cons, ← behind_concat, ← ih, List.append_assoc, List.singleton_append]

/-- Carried over a text, a position counts the line breaks of that text. -/
theorem line_advanceOver (p : Position) (cs : List Char) :
    (p.advanceOver cs).line = p.line + cs.count '\n' := by
  induction cs generalizing p with
  | nil => rfl
  | cons c cs ih =>
    rw [advanceOver_cons, ih, List.count_cons]
    unfold advance
    split
    · rename_i hc
      simp [hc, Nat.add_comm, Nat.add_left_comm]
    · rename_i hc
      simp [hc]

/-- The byte of a position is the number of bytes in front of it. -/
@[simp] theorem byte_behind (before : List Char) : (behind before).byte = byteLength before := rfl

/-- A position of a text: the one behind some beginning of it. -/
def Exact (source : List Char) (p : Position) : Prop :=
  ∃ before, before <+: source ∧ p = behind before

end Position

namespace Span

/-- A span of a text: it reaches from the position in front of a part of the text to the one behind
that part. -/
def Exact (source : List Char) (span : Span) : Prop :=
  ∃ before middle rest, source = before ++ middle ++ rest ∧
    span = ⟨.behind before, .behind (before ++ middle)⟩

/-- An exact span begins at an exact position. -/
lemma Exact.start {source : List Char} {span : Span} (h : span.Exact source) :
    span.start.Exact source := by
  obtain ⟨before, middle, rest, rfl, rfl⟩ := h
  exact ⟨before, ⟨middle ++ rest, by simp⟩, rfl⟩

/-- An exact span ends at an exact position. -/
lemma Exact.stop {source : List Char} {span : Span} (h : span.Exact source) :
    span.stop.Exact source := by
  obtain ⟨before, middle, rest, rfl, rfl⟩ := h
  exact ⟨before ++ middle, ⟨rest, by simp⟩, rfl⟩

/-- An exact span does not end before it begins. -/
lemma Exact.start_le_stop {source : List Char} {span : Span} (h : span.Exact source) :
    span.start.byte ≤ span.stop.byte := by
  obtain ⟨before, middle, rest, rfl, rfl⟩ := h
  simp

/-- No byte is in both of two spans. -/
def Apart (s t : Span) : Prop := ∀ byte, s.contains byte = true → t.contains byte = false

/-- A span that ends where another one begins or before is apart from it. -/
lemma apart_of_le {s t : Span} (h : s.stop.byte ≤ t.start.byte) : s.Apart t := by
  intro byte hbyte
  simp only [contains, Bool.and_eq_true, decide_eq_true_eq, Bool.and_eq_false_iff,
    decide_eq_false_iff_not, Nat.not_le] at hbyte ⊢
  omega

end Span

namespace Cursor

/-- A cursor on a text: it stands at an exact position, and what it sees is the text from there on,
perhaps cut short. -/
def On (source : List Char) (c : Cursor) : Prop :=
  ∃ before behind, source = before ++ c.rest ++ behind ∧ c.position = .behind before

/-- The first cursor is on the text. -/
lemma on_ofText (source : List Char) : (ofText source).On source :=
  ⟨[], [], by simp [ofText], rfl⟩

/-- A cursor on the text stands at an exact position. -/
lemma On.exact {source : List Char} {c : Cursor} (h : c.On source) : c.position.Exact source := by
  obtain ⟨before, rest, hsource, hposition⟩ := h
  exact ⟨before, ⟨c.rest ++ rest, by rw [hsource, List.append_assoc]⟩, hposition⟩

/-- A cursor on the text sees no more than the text. -/
lemma On.length_le {source : List Char} {c : Cursor} (h : c.On source) :
    c.rest.length ≤ source.length := by
  obtain ⟨before, rest, rfl, -⟩ := h
  simp only [List.length_append]
  omega

/-- Moving a cursor keeps it on its text. -/
lemma On.advanceBy {source : List Char} {c : Cursor} (h : c.On source) (n : ℕ) :
    (Cursor.advanceBy n c).On source := by
  obtain ⟨before, rest, hsource, hposition⟩ := h
  refine ⟨before ++ c.rest.take n, rest, ?_, ?_⟩
  · rw [rest_advanceBy, List.append_assoc before, List.take_append_drop, hsource]
  · rw [position_advanceBy, hposition, Position.behind_append]

/-- A single step forward is a move by one. -/
lemma advance_eq_advanceBy (c : Cursor) : c.advance = Cursor.advanceBy 1 c := rfl

/-- Going on by two numbers of characters is going on by both. -/
lemma advanceBy_add (m n : ℕ) (c : Cursor) :
    Cursor.advanceBy (m + n) c = Cursor.advanceBy n (Cursor.advanceBy m c) := by
  induction m generalizing c with
  | zero => rw [Nat.zero_add, advanceBy_zero]
  | succ m ih => rw [Nat.succ_add, advanceBy_succ, ih, ← advanceBy_succ]

/-- The beginning of the next line is a move away. -/
lemma nextLine_eq_advanceBy (c : Cursor) :
    c.nextLine = Cursor.advanceBy (c.run (· != '\n') + 1) c := by
  rw [nextLine, advance_eq_advanceBy, advanceBy_add]

/-- On a line, moving on leaves the next line where it is. -/
lemma nextLine_advance {c : Cursor} (h : c.rest.head? ≠ some '\n') :
    c.advance.nextLine = c.nextLine := by
  cases hrest : c.rest with
  | nil => simp [advance, hrest]
  | cons x xs =>
    have hx : x ≠ '\n' := by simpa [hrest] using h
    have hrun : c.run (· != '\n') = c.advance.run (· != '\n') + 1 := by
      simp [run, advance, hrest, hx]
    rw [nextLine, nextLine, hrun, advanceBy_succ]

/-- The next line is the same from every place of the line. -/
lemma nextLine_advanceBy {c : Cursor} {n : ℕ} (h : '\n' ∉ c.rest.take n) :
    (advanceBy n c).nextLine = c.nextLine := by
  induction n generalizing c with
  | zero => rfl
  | succ n ih =>
    cases hrest : c.rest with
    | nil =>
      have hstay : c.advance = c := by simp [advance, hrest]
      rw [advanceBy_succ, hstay]
      exact ih (by simp [hrest])
    | cons x xs =>
      rw [hrest, List.take_succ_cons, List.mem_cons, not_or] at h
      have hrest' : c.advance.rest = xs := by rw [rest_advance, hrest, List.tail_cons]
      rw [advanceBy_succ, ih (hrest' ▸ h.2)]
      exact nextLine_advance (by simp [hrest, Ne.symm h.1])

/-- Seeing less keeps a cursor on its text. -/
lemma On.narrow {source : List Char} {c : Cursor} (h : c.On source) (n : ℕ) :
    (c.narrow n).On source := by
  obtain ⟨before, rest, hsource, hposition⟩ := h
  refine ⟨before, c.rest.drop n ++ rest, ?_, hposition⟩
  have hrest : c.rest = (c.narrow n).rest ++ c.rest.drop n := (List.take_append_drop n c.rest).symm
  rw [hsource, List.append_assoc before (c.narrow n).rest, ← List.append_assoc (c.narrow n).rest,
    ← hrest, List.append_assoc]

/-- What a cursor reads next is a part of its text, between two exact positions. -/
lemma On.split {source : List Char} {c : Cursor} (h : c.On source) (n : ℕ) :
    ∃ before rest, source = before ++ c.rest.take n ++ rest ∧ c.position = .behind before ∧
      (Cursor.advanceBy n c).position = .behind (before ++ c.rest.take n) := by
  obtain ⟨before, rest, hsource, hposition⟩ := h
  refine ⟨before, c.rest.drop n ++ rest, ?_, hposition, ?_⟩
  · rw [← List.append_assoc, List.append_assoc before, List.take_append_drop, hsource]
  · rw [position_advanceBy, hposition, Position.behind_append]

/-- What stands between a cursor and another one further on is an exact span. -/
lemma On.span {source : List Char} {c : Cursor} (h : c.On source) (n : ℕ) :
    Span.Exact source ⟨c.position, (Cursor.advanceBy n c).position⟩ := by
  obtain ⟨before, rest, hsource, hstart, hstop⟩ := h.split n
  exact ⟨before, c.rest.take n, rest, hsource, by rw [hstart, hstop]⟩

/-- The cursor is on the text and surveys it to its end. -/
def Surveys (source : List Char) (c : Cursor) : Prop :=
  ∃ before, source = before ++ c.rest ∧ c.position = .behind before

/-- The first cursor surveys the text to its end. -/
lemma surveys_ofText (source : List Char) : (ofText source).Surveys source := ⟨[], rfl, rfl⟩

/-- Every cursor further on surveys the text to its end. -/
lemma Surveys.advanceBy {source : List Char} {c : Cursor} (h : c.Surveys source) (n : ℕ) :
    (Cursor.advanceBy n c).Surveys source := by
  obtain ⟨before, hsource, hposition⟩ := h
  refine ⟨before ++ c.rest.take n, ?_, ?_⟩
  · rw [rest_advanceBy, List.append_assoc, List.take_append_drop, hsource]
  · rw [position_advanceBy, hposition, Position.behind_append]

/-- Moving forward counts the line breaks on the way. -/
lemma line_advanceBy (n : ℕ) (c : Cursor) :
    (Cursor.advanceBy n c).position.line = c.position.line + (c.rest.take n).count '\n' := by
  rw [position_advanceBy, Position.line_advanceOver]

/-- Moving forward never lowers the byte offset. -/
lemma byte_le_byte_advanceBy (n : ℕ) (c : Cursor) :
    c.position.byte ≤ (Cursor.advanceBy n c).position.byte := by
  rw [position_advanceBy]
  generalize c.rest.take n = cs
  induction cs generalizing c with
  | nil => rfl
  | cons d cs ih =>
    rw [Position.advanceOver_cons]
    have hstep : c.position.byte ≤ (c.position.advance d).byte := by
      unfold Position.advance
      split <;> exact Nat.le_add_right _ _
    exact hstep.trans (ih { c with position := c.position.advance d })

/-- Moving forward over at least one character raises the byte offset. -/
lemma byte_lt_byte_advanceBy {n : ℕ} {c : Cursor} (hn : 0 < n) (hrest : c.rest ≠ []) :
    c.position.byte < (Cursor.advanceBy n c).position.byte := by
  obtain ⟨n, rfl⟩ := Nat.exists_eq_succ_of_ne_zero hn.ne'
  refine Nat.lt_of_lt_of_le ?_ (byte_le_byte_advanceBy n c.advance)
  cases h : c.rest with
  | nil => exact absurd h hrest
  | cons d cs =>
    have hpos := Char.utf8Size_pos d
    unfold advance
    rw [h]
    dsimp only [Position.advance]
    split <;> (dsimp only; omega)

end Cursor

end RubyCheck
