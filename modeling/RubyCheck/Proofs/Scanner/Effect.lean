import RubyCheck.Proofs.Scanner.Move

/-!
# What the moves do to a snapshot

For each way in which a move changes the scanner: which fields of its snapshot change, and to
what.  The proofs about moves read these equations instead of the functions of the scanner.
-/

namespace RubyCheck.Scanner

variable {s s' t : Scanner} {nested : Scanner → Option Scanner}

/-! ### Literals -/

/-- The literal that an opening at the cursor begins. -/
def openedLiteral (s : Scanner) (o : Opening) : OpenLiteral where
  flavor := o.flavor
  bracket := o.bracket
  close := some o.close
  interpolates := o.interpolates
  opener := s.spanOf o.width
  singleLine := o.singleLine || s.singleLine.contains s.cursor.position.byte
  hasNewline := false
  nesting := 0

/-- The token that an opening at the cursor begins with. -/
def openingToken (s : Scanner) (o : Opening) (spaced : Bool) : Token :=
  ⟨o.flavor.beginKind, s.textOf o.width, s.spanOf o.width, spaced, o.ambiguous⟩

/-- The number of characters that end a literal: its delimiter, and the options of a regular
expression. -/
def closingWidth (s : Scanner) (l : OpenLiteral) : ℕ :=
  1 + if l.flavor == .regex then (s.cursor.rest.tail.takeWhile Text.isAsciiLetter).length else 0

/-- An opener that is to end on its line is among those that do. -/
lemma mem_singleLine_endOnItsLine (opener : ℕ) : opener ∈ (s.endOnItsLine opener).singleLine := by
  unfold endOnItsLine
  split
  · rename_i h
    simpa using h
  · simp

/-- Nothing that is brought back depends on which openers end on their lines. -/
lemma snapshot_endOnItsLine (opener : ℕ) : (s.endOnItsLine opener).snapshot = s.snapshot := by
  unfold endOnItsLine
  split <;> rfl

/-- Beginning a literal emits its opener and puts it on top of the modes, with its checkpoint. -/
lemma snapshot_beginLiteral (o : Opening) (spaced : Bool) :
    (s.beginLiteral o spaced).snapshot =
      { s.snapshot with
        cursor := Cursor.advanceBy o.width s.cursor
        tokens := s.openingToken o spaced :: s.tokens
        modes := .literal (s.openedLiteral o) :: s.modes
        openLiterals := s.checkpoint spaced :: s.openLiterals } := by
  have hopener : (s.checkpoint spaced).opener = s.cursor.position.byte := rfl
  cases hsingle : o.singleLine with
  | false =>
    simp [beginLiteral, openedLiteral, hsingle, hopener, snapshot, emitFlagged, openingToken]
  | true =>
    have hmem := mem_singleLine_endOnItsLine (s := s) s.cursor.position.byte
    have hsnapshot := snapshot_endOnItsLine (s := s) s.cursor.position.byte
    simp only [snapshot, Snapshot.mk.injEq] at hsnapshot
    simp [beginLiteral, openedLiteral, hsingle, hopener, snapshot, emitFlagged, openingToken, hmem,
      hsnapshot, spanOf, textOf]

/-- Taking off a checkpoint leaves the rest of the snapshot. -/
lemma snapshot_popLiteral (promote : Bool) :
    (s.popLiteral promote).2.snapshot =
      { s.snapshot with openLiterals := s.openLiterals.tail } := by
  unfold popLiteral
  split <;> rename_i h <;> simp [snapshot, h]

/-- A literal that is given up gets a closing token without text and a fault. -/
lemma snapshot_abandonLiteral (l : OpenLiteral) (outer : List Mode) :
    (s.abandonLiteral l outer).snapshot =
      { s.snapshot with
        tokens := .empty .stringEnd s.cursor.position :: s.tokens
        faults := ⟨l.flavor.unterminated, l.opener⟩ :: s.faults
        modes := outer
        openLiterals := s.openLiterals.tail } :=
  snapshot_popLiteral false

/-- A literal that is closed gets its closing token. -/
lemma snapshot_closeLiteral (l : OpenLiteral) (outer : List Mode) :
    (s.closeLiteral l outer).snapshot =
      { s.snapshot with
        cursor := Cursor.advanceBy (s.closingWidth l) s.cursor
        tokens :=
          ⟨.stringEnd, s.textOf (s.closingWidth l), s.spanOf (s.closingWidth l), false, false⟩ ::
            s.tokens
        modes := outer
        openLiterals := s.openLiterals.tail } := by
  have hpop := snapshot_popLiteral
    (s := { s with modes := outer }.emit .stringEnd (s.closingWidth l) false)
    (l.flavor == Flavor.string)
  have hclose : (s.closeLiteral l outer).snapshot =
      (({ s with modes := outer }.emit .stringEnd (s.closingWidth l) false).popLiteral
        (l.flavor == Flavor.string)).2.snapshot := by
    unfold closeLiteral closingWidth
    dsimp only
    split_ifs <;> rfl
  exact hclose.trans hpop

/-- Content is emitted as one token if there is any. -/
lemma snapshot_emitContent (n : ℕ) :
    (s.emitContent n).snapshot = s.snapshot ∧ n = 0 ∨
      0 < n ∧ (s.emitContent n).snapshot =
        { s.snapshot with
          cursor := Cursor.advanceBy n s.cursor
          tokens := ⟨.stringContent, s.textOf n, s.spanOf n, false, false⟩ :: s.tokens } := by
  unfold emitContent
  split
  · rename_i hn
    exact .inl ⟨rfl, by simpa using hn⟩
  · rename_i hn
    exact .inr ⟨Nat.pos_of_ne_zero (by simpa using hn), rfl⟩

/-! ### The end of the text -/

/-- The scanner after the innermost of its modes is closed at the end of the text. -/
def dropMode (s : Scanner) (m : Mode) (outer : List Mode) : Scanner :=
  { s.closeMode m with modes := outer }

/-- At the end of the text, code in a literal gets its closing mark. -/
lemma snapshot_dropMode_code (d : ℕ) (outer : List Mode) :
    (s.dropMode (.code d) outer).snapshot =
      { s.snapshot with
        tokens := .empty .interpolationEnd s.cursor.position :: s.tokens
        modes := outer } := rfl

/-- At the end of the text, a literal gets its closing token. -/
lemma snapshot_dropMode_literal {l : OpenLiteral} (hclose : l.close.isSome = true)
    (outer : List Mode) :
    (s.dropMode (.literal l) outer).snapshot =
      { s.snapshot with
        tokens := .empty .stringEnd s.cursor.position :: s.tokens
        faults := ⟨l.flavor.unterminated, l.opener⟩ :: s.faults
        modes := outer
        openLiterals := s.openLiterals.tail } := by
  have hpop := snapshot_popLiteral
    (s := (s.complain l.flavor.unterminated l.opener).emitEmpty .stringEnd s.cursor.position) false
  have hdrop : (s.dropMode (.literal l) outer).snapshot =
      { (((s.complain l.flavor.unterminated l.opener).emitEmpty .stringEnd
          s.cursor.position).popLiteral false).2.snapshot with modes := outer } := by
    simp only [dropMode, closeMode, if_pos hclose]
    rfl
  rw [hdrop, hpop]
  rfl

/-- At the end of its text, the body of a heredoc gets no token. -/
lemma snapshot_dropMode_body {l : OpenLiteral} (hclose : l.close = none) (outer : List Mode) :
    (s.dropMode (.literal l) outer).snapshot = { s.snapshot with modes := outer } := by
  simp [dropMode, closeMode, hclose, snapshot]

/-- Modes are closed from the innermost one outwards. -/
lemma closeModes_cons_cons (m m' : Mode) (outer : List Mode) :
    closeModes (m :: m' :: outer) s = closeModes (m' :: outer) (s.closeMode m) := rfl

/-- Closing the modes from the inside out is dropping one after the other, whatever the modes were
before. -/
lemma closeModes_eq (m m' : Mode) (outer : List Mode) :
    closeModes (m :: m' :: outer) s = closeModes (m' :: outer) (s.dropMode m (m' :: outer)) := by
  have hmodes : ∀ (ms : List Mode) (s : Scanner) (ms' : List Mode), ms ≠ [] →
      closeModes ms { s with modes := ms' } = closeModes ms s := by
    intro ms
    induction ms with
    | nil => exact fun _ _ h => absurd rfl h
    | cons m ms ih =>
      intro s ms' _
      cases ms with
      | nil => rfl
      | cons m' ms =>
        have hclose : ({ s with modes := ms' } : Scanner).closeMode m =
            { s.closeMode m with modes := ms' } := by
          cases m with
          | code d => rfl
          | literal l =>
            simp only [closeMode]
            split
            · unfold popLiteral complain emitEmpty
              dsimp only
              cases s.openLiterals <;> rfl
            · rfl
        rw [closeModes_cons_cons, hclose, ih _ _ (List.cons_ne_nil _ _), closeModes_cons_cons]
  exact (hmodes (m' :: outer) (s.closeMode m) (m' :: outer) (List.cons_ne_nil _ _)).symm

/-- What holds of a scanner and is kept by dropping a mode holds when all modes but the outermost
are dropped. -/
theorem closeModes_induction {P : Scanner → Prop}
    (hdrop : ∀ s m m' outer, s.modes = m :: m' :: outer → P s → P (s.dropMode m (m' :: outer)))
    (hne : s.modes ≠ []) (h : P s) :
    P (closeModes s.modes s) ∧ (closeModes s.modes s).modes.length = 1 := by
  generalize hms : s.modes = ms at hne
  induction ms generalizing s with
  | nil => exact absurd rfl hne
  | cons m ms ih =>
    cases ms with
    | nil =>
      have hsame : closeModes [m] s = s := by
        rw [closeModes, ← hms]
      rw [hsame]
      exact ⟨h, by simp [hms]⟩
    | cons m' outer =>
      rw [closeModes_eq]
      exact ih (hdrop s m m' outer hms h) rfl (List.cons_ne_nil _ _)

end RubyCheck.Scanner
