import RubyCheck.Proofs.Grammar.Order
import RubyCheck.Proofs.Likeness.Basic
import RubyCheck.Proofs.Position
import RubyCheck.Proofs.Scanner.Bare
import RubyCheck.Proofs.Scanner.LineEnd

/-!
# Scanning a text whose lines end differently

A text without literals is scanned alike if a carriage return is put in front of every line break: where
the one scanner reads a line break, the other one passes over the carriage return first, and everything
else they do together (`run_returned`).  Tokens are the same but for the bytes in front of them.
-/

namespace RubyCheck

open Source Scanner

/-! ### Places -/

/-- The text in front of a place, with the carriage return that may stand there too. -/
def returnedTo (before rest : List Char) : List Char := returned before ++ returnBefore rest

/-- A carriage return in front of every line break adds no line break. -/
lemma count_returned (cs : List Char) : (returned cs).count '\n' = cs.count '\n' := by
  induction cs with
  | nil => rfl
  | cons c cs ih =>
    by_cases hc : c = '\n'
    · subst hc
      simp [ih]
    · rw [returned_cons hc, List.count_cons_of_ne hc, List.count_cons_of_ne hc, ih]

/-- The carriage return at the place itself adds no line break. -/
lemma count_returnBefore (cs : List Char) : (returnBefore cs).count '\n' = 0 := by
  unfold returnBefore
  split <;> rfl

/-- The place behind the carriage return is no earlier than the one in front of it. -/
lemma byteLength_le_returnedTo (before rest : List Char) :
    byteLength (returned before) ≤ byteLength (returnedTo before rest) := by
  rw [returnedTo, byteLength_append]
  exact Nat.le_add_right _ _

/-- In front of more text there are fewer bytes, with a carriage return there or not. -/
lemma byteLength_returnedTo_lt {before middle rest : List Char} (h : middle ≠ []) :
    byteLength (returnedTo before (middle ++ rest)) < byteLength (returned (before ++ middle)) := by
  obtain ⟨c, middle, rfl⟩ := List.exists_cons_of_ne_nil h
  rw [returnedTo, returned_append, byteLength_append, byteLength_append, Nat.add_lt_add_iff_left]
  by_cases hc : c = '\n'
  · subst hc
    simp only [returned_lineBreak, byteLength_cons, returnBefore, List.cons_append, List.head?_cons,
      if_true, byteLength_nil]
    have hbreak := Char.utf8Size_pos '\n'
    omega
  · have hhead : returnBefore (c :: middle ++ rest) = [] := by simp [returnBefore, hc]
    rw [hhead, returned_cons hc, byteLength_cons, byteLength_nil]
    exact Nat.add_pos_left (Char.utf8Size_pos c) _

/-- A longer beginning of a text takes more bytes. -/
lemma byteLength_lt {before middle : List Char} (h : middle ≠ []) :
    byteLength before < byteLength (before ++ middle) := by
  obtain ⟨c, middle, rfl⟩ := List.exists_cons_of_ne_nil h
  have hc := Char.utf8Size_pos c
  rw [byteLength_append, byteLength_cons]
  omega

/-- Two places of a text are the same, or one is behind the other. -/
lemma places_of_append {before rest before' rest' : List Char}
    (h : before ++ rest = before' ++ rest') :
    before = before' ∧ rest = rest' ∨
      (∃ middle, middle ≠ [] ∧ before' = before ++ middle ∧ rest = middle ++ rest') ∨
        ∃ middle, middle ≠ [] ∧ before = before' ++ middle ∧ rest' = middle ++ rest := by
  rcases List.append_eq_append_iff.mp h with ⟨middle, hbefore, hrest⟩ | ⟨middle, hbefore, hrest⟩
  · rcases eq_or_ne middle [] with rfl | hne
    · exact .inl ⟨by simpa using hbefore.symm, by simpa using hrest⟩
    · exact .inr (.inl ⟨middle, hne, hbefore, hrest⟩)
  · rcases eq_or_ne middle [] with rfl | hne
    · exact .inl ⟨by simpa using hbefore, by simpa using hrest.symm⟩
    · exact .inr (.inr ⟨middle, hne, hbefore, hrest⟩)

namespace Position

variable {p q : Position}

/-- A position with a later byte is greater. -/
lemma compare_eq_gt_of_lt (h : q.byte < p.byte) : compare p q = .gt := by
  by_contra hne
  have hle : p ≤ q := hne
  rw [le_iff] at hle
  omega

/-- A position with an earlier byte is not greater. -/
lemma compare_ne_gt_of_lt (h : p.byte < q.byte) : compare p q ≠ .gt := (le_iff p q).mpr (.inl h)

/-- No position is greater than itself. -/
lemma compare_self_ne_gt (p : Position) : compare p p ≠ .gt := le_refl p

end Position

/-- The places of a text and of the text with a carriage return in front of every line break.  A token
that begins at a line break begins behind the carriage return, a token that ends there in front of it. -/
def Likeness.returned (source : List Char) : Likeness where
  start p p' := ∃ before rest, source = before ++ rest ∧ p = .behind before ∧
    p' = .behind (returnedTo before rest)
  place p p' := ∃ before rest, source = before ++ rest ∧ p = .behind before ∧
    (p' = .behind (RubyCheck.returned before) ∨ p' = .behind (returnedTo before rest))
  lines := 0
  onOneLine := False
  place_of_start := by
    rintro p p' ⟨before, rest, hsource, hp, hp'⟩
    exact ⟨before, rest, hsource, hp, .inr hp'⟩
  compare_eq_gt := by
    rintro p p' q q' ⟨before, rest, rfl, rfl, hp'⟩ ⟨before', rest', hsource, rfl, rfl⟩
    have hleft : p'.byte ≤ byteLength (returnedTo before rest) ∧
        byteLength (RubyCheck.returned before) ≤ p'.byte := by
      have hle := byteLength_le_returnedTo before rest
      rcases hp' with rfl | rfl
      · exact ⟨hle, le_rfl⟩
      · exact ⟨le_rfl, hle⟩
    have hright := byteLength_le_returnedTo before' rest'
    rcases places_of_append hsource with ⟨rfl, rfl⟩ | ⟨middle, hne, rfl, rfl⟩ | ⟨middle, hne, rfl, rfl⟩
    · refine iff_of_false ?_ (Position.compare_self_ne_gt _)
      rcases hp' with rfl | rfl
      · rcases hright.lt_or_eq with hlt | heq
        · exact Position.compare_ne_gt_of_lt hlt
        · unfold returnedTo at heq ⊢
          have hnone : returnBefore rest = [] := by
            by_contra hsome
            exact absurd heq (byteLength_lt hsome).ne
          rw [hnone, List.append_nil]
          exact Position.compare_self_ne_gt _
      · exact Position.compare_self_ne_gt _
    · refine iff_of_false (Position.compare_ne_gt_of_lt ?_)
        (Position.compare_ne_gt_of_lt (byteLength_lt hne))
      exact (hleft.1.trans_lt (byteLength_returnedTo_lt hne)).trans_le hright
    · refine iff_of_true (Position.compare_eq_gt_of_lt ?_)
        (Position.compare_eq_gt_of_lt (byteLength_lt hne))
      exact (byteLength_returnedTo_lt hne).trans_le hleft.2
  byte_lt := by
    rintro p p' q q' ⟨before, rest, rfl, rfl, rfl⟩ ⟨before', rest', hsource, rfl, hq'⟩
    have hright : q'.byte ≤ byteLength (returnedTo before' rest') ∧
        byteLength (RubyCheck.returned before') ≤ q'.byte := by
      have hle := byteLength_le_returnedTo before' rest'
      rcases hq' with rfl | rfl
      · exact ⟨hle, le_rfl⟩
      · exact ⟨le_rfl, hle⟩
    have hleft := byteLength_le_returnedTo before rest
    simp only [Position.byte_behind]
    rcases places_of_append hsource with ⟨rfl, rfl⟩ | ⟨middle, hne, rfl, rfl⟩ | ⟨middle, hne, rfl, rfl⟩
    · exact iff_of_false hright.1.not_gt (lt_irrefl _)
    · refine iff_of_true ?_ (byteLength_lt hne)
      exact (byteLength_returnedTo_lt hne).trans_le hright.2
    · refine iff_of_false (not_lt_of_gt ?_) (not_lt_of_gt (byteLength_lt hne))
      exact (hright.1.trans_lt (byteLength_returnedTo_lt hne)).trans_le hleft
  line_eq := by
    rintro p p' ⟨before, rest, -, rfl, rfl | rfl⟩
    · exact count_returned before
    · change (returnedTo before rest).count '\n' = before.count '\n'
      rw [returnedTo, List.count_append, count_returned, count_returnBefore, Nat.add_zero]

/-! ### Cursors -/

namespace Cursor

/-- Two cursors at the same place, neither behind a carriage return that the other text lacks. -/
structure Level (source : List Char) (c c' : Cursor) : Prop where
  exists_before : ∃ before, source = before ++ c.rest ∧ c.position = .behind before ∧
    c'.position = .behind (returned before)
  rest : c'.rest = returned c.rest

/-- Two cursors at the same line break, one of them behind the carriage return. -/
structure AtReturn (source : List Char) (c c' : Cursor) : Prop where
  exists_before : ∃ before, source = before ++ c.rest ∧ c.position = .behind before ∧
    c'.position = .behind (returned before ++ ['\r'])
  exists_rest : ∃ rest, c.rest = '\n' :: rest ∧ c'.rest = '\n' :: returned rest

variable {source : List Char} {c c' : Cursor}

/-- At the beginning both cursors are at the same place. -/
lemma level_ofText (source : List Char) : (ofText source).Level source (ofText (returned source)) :=
  ⟨⟨[], rfl, rfl, rfl⟩, rfl⟩

/-- The cursor moved over the first part of what is ahead. -/
lemma advanceBy_of_append {body rest : List Char} (h : c.rest = body ++ rest) :
    (advanceBy body.length c).rest = rest ∧
      (advanceBy body.length c).position = c.position.advanceOver body := by
  rw [rest_advanceBy, position_advanceBy, h, List.drop_left, List.take_left]
  exact ⟨rfl, rfl⟩

namespace Level

/-- Both cursors pass over a part of the text. -/
lemma advance {body rest : List Char} (h : c.Level source c') (hrest : c.rest = body ++ rest) :
    (advanceBy body.length c).Level source (advanceBy (returned body).length c') := by
  obtain ⟨before, hsource, hp, hp'⟩ := h.exists_before
  have hrest' : c'.rest = returned body ++ returned rest := by rw [h.rest, hrest, returned_append]
  obtain ⟨hahead, hposition⟩ := advanceBy_of_append hrest
  obtain ⟨hahead', hposition'⟩ := advanceBy_of_append hrest'
  refine ⟨⟨before ++ body, ?_, ?_, ?_⟩, ?_⟩
  · rw [hahead, hsource, hrest, List.append_assoc]
  · rw [hposition, hp, Position.behind_append]
  · rw [hposition', hp', returned_append, Position.behind_append]
  · rw [hahead', hahead]

/-- Both cursors pass over a part of the text up to a line break, one over the carriage return too. -/
lemma advance_return {body rest : List Char} (h : c.Level source c')
    (hrest : c.rest = body ++ '\n' :: rest) : (advanceBy body.length c).AtReturn source
      (advanceBy (returned body ++ ['\r']).length c') := by
  obtain ⟨before, hsource, hp, hp'⟩ := h.exists_before
  have hrest' : c'.rest = (returned body ++ ['\r']) ++ '\n' :: returned rest := by
    rw [h.rest, hrest, returned_append, returned_lineBreak, List.append_assoc]
    rfl
  obtain ⟨hahead, hposition⟩ := advanceBy_of_append hrest
  obtain ⟨hahead', hposition'⟩ := advanceBy_of_append hrest'
  refine ⟨⟨before ++ body, ?_, ?_, ?_⟩, rest, hahead, hahead'⟩
  · rw [hahead, hsource, hrest, List.append_assoc]
  · rw [hposition, hp, Position.behind_append]
  · rw [hposition', hp', returned_append, List.append_assoc, ← Position.behind_append]

/-- Both cursors pass over the rest of a line, one over its carriage return too if there is one. -/
lemma advance_line {body rest : List Char} (h : c.Level source c') (hrest : c.rest = body ++ rest)
    (hbreak : AtBreak rest) :
    (advanceBy body.length c).Level source
        (advanceBy (returned body ++ returnBefore rest).length c') ∨
      (advanceBy body.length c).AtReturn source
        (advanceBy (returned body ++ returnBefore rest).length c') := by
  rcases hbreak with rfl | hhead
  · left
    have hlevel := h.advance hrest
    simpa [returnBefore] using hlevel
  · right
    obtain ⟨ds, rfl⟩ := List.head?_eq_some_iff.mp hhead
    exact h.advance_return hrest

/-- Cursors at the same place show places that belong together. -/
lemma place (h : c.Level source c') : (Likeness.returned source).place c.position c'.position := by
  obtain ⟨before, hsource, hp, hp'⟩ := h.exists_before
  exact ⟨before, c.rest, hsource, hp, .inl hp'⟩

/-- A token begins at both cursors, unless a line break comes next. -/
lemma start (h : c.Level source c') (hhead : c.rest.head? ≠ some '\n') :
    (Likeness.returned source).start c.position c'.position := by
  obtain ⟨before, hsource, hp, hp'⟩ := h.exists_before
  refine ⟨before, c.rest, hsource, hp, ?_⟩
  rw [hp', returnedTo, returnBefore, if_neg hhead, List.append_nil]

/-- Both cursors stand in the first column of a line, or neither does. -/
lemma atLineStart (h : c.Level source c') : c'.atLineStart = c.atLineStart := by
  obtain ⟨before, -, hp, hp'⟩ := h.exists_before
  have hcolumn (cs : List Char) : ((Position.behind cs).column == 0) =
      cs.getLast?.all (· == '\n') := by
    rw [Position.behind, ← List.head?_reverse]
    cases cs.reverse with
    | nil => rfl
    | cons d ds =>
      by_cases hd : d = '\n'
      · subst hd
        rfl
      · simp [hd]
  unfold Cursor.atLineStart
  rw [hp, hp', hcolumn, hcolumn]
  -- Both texts end with the same character.
  rcases List.eq_nil_or_concat before with rfl | ⟨ds, d, rfl⟩
  · rfl
  · have hlast : (returned (ds.concat d)).getLast? = (ds.concat d).getLast? := by
      rw [List.concat_eq_append, returned_append]
      by_cases hd : d = '\n'
      · subst hd
        simp
      · rw [returned_cons hd]
        simp
    rw [hlast]

end Level

namespace AtReturn

/-- Cursors at the same line break show places where a token may begin. -/
lemma start (h : c.AtReturn source c') :
    (Likeness.returned source).start c.position c'.position := by
  obtain ⟨before, hsource, hp, hp'⟩ := h.exists_before
  obtain ⟨rest, hrest, -⟩ := h.exists_rest
  refine ⟨before, c.rest, hsource, hp, ?_⟩
  rw [hp', returnedTo, returnBefore, hrest]
  rfl

/-- Behind the line break both cursors are at the same place again. -/
lemma advance (h : c.AtReturn source c') :
    (advanceBy 1 c).Level source (advanceBy 1 c') := by
  obtain ⟨before, hsource, hp, hp'⟩ := h.exists_before
  obtain ⟨rest, hrest, hrest'⟩ := h.exists_rest
  obtain ⟨hahead, hposition⟩ := advanceBy_of_append (show c.rest = ['\n'] ++ rest from hrest)
  obtain ⟨hahead', hposition'⟩ :=
    advanceBy_of_append (show c'.rest = ['\n'] ++ returned rest from hrest')
  refine ⟨⟨before ++ ['\n'], ?_, ?_, ?_⟩, ?_⟩
  · exact hsource.trans (by rw [hrest, List.append_assoc]; exact congrArg _ (congrArg _ hahead.symm))
  · exact hposition.trans (by rw [hp, Position.behind_append])
  · refine hposition'.trans ?_
    rw [hp', ← Position.behind_append, List.append_assoc, returned_append]
    rfl
  · exact hahead'.trans (congrArg returned hahead.symm)

end AtReturn

end Cursor

/-! ### Scanners -/

namespace Scanner

variable {source : List Char} {s t : Scanner}

/-- Two scanners that have read the same and are guided alike, in the outermost code. -/
structure Matches (source : List Char) (s t : Scanner) : Prop where
  tokens : List.Forall₂ (Token.Same (.returned source)) s.tokens t.tokens
  faults : List.Forall₂ (Fault.Like (.returned source)) s.faults t.faults
  outermost : s.Outermost
  same : t = { s with
    cursor := t.cursor, tokens := t.tokens, faults := t.faults, spaceSeen := t.spaceSeen }

/-- The two scanners at the same place. -/
structure Level (source : List Char) (s t : Scanner) : Prop extends Matches source s t where
  cursor : s.cursor.Level source t.cursor
  spaceSeen : t.spaceSeen = s.spaceSeen

/-- The two scanners at the same line break, the second behind its carriage return. -/
structure AtReturn (source : List Char) (s t : Scanner) : Prop extends Matches source s t where
  cursor : s.cursor.AtReturn source t.cursor

/-- At the beginning both scanners are at the same place. -/
lemma level_ofText (source : List Char) : (ofText source).Level source (ofText (returned source)) where
  tokens := .nil
  faults := .nil
  outermost := outermost_ofText source
  same := rfl
  cursor := Cursor.level_ofText source
  spaceSeen := rfl

namespace Matches

variable (h : Matches source s t)

include h

/-- Both scanners expect the same. -/
lemma expects : t.expects = s.expects := by rw [h.same]

/-- Both scanners are naming a definition or neither is. -/
lemma definingName : t.definingName = s.definingName := by rw [h.same]

/-- Both scanners are in the parameters of a block or neither is. -/
lemma inBlockParameters : t.inBlockParameters = s.inBlockParameters := by rw [h.same]

/-- Both scanners know the same names. -/
lemma locals : t.locals = s.locals := by rw [h.same]

/-- Both scanners have the same modes open. -/
lemma modes : t.modes = s.modes := by rw [h.same]

/-- The second scanner has nothing to resume at either. -/
lemma resume : t.resume = none := by rw [h.same, h.outermost.resume]

/-- The second scanner is in the outermost code too. -/
lemma outermost' : t.Outermost :=
  ⟨h.modes ▸ h.outermost.modes, by rw [h.same, h.outermost.inBody], h.resume⟩

/-- The last tokens are of one kind. -/
lemma lastKind? : t.lastKind? = s.lastKind? := by
  have hhead := h.tokens.head?
  unfold Scanner.lastKind?
  generalize s.tokens.head? = last, t.tokens.head? = last' at hhead
  cases hhead with
  | none => rfl
  | some htoken => exact congrArg some htoken.kind

end Matches

/-- Scanners at the same place view the text alike. -/
lemma Level.sameView (h : Level source s t) : SameView s t where
  line := by rw [h.cursor.rest, lineAhead_returned]
  expects := h.expects.symm
  definingName := h.definingName.symm
  inBlockParameters := h.inBlockParameters.symm
  locals := h.locals.symm
  lastKind? := h.lastKind?.symm

/-- Both stand at the beginning of a line or neither does. -/
lemma Level.atTopLine (h : Level source s t) : t.atTopLine = s.atTopLine := by
  rw [h.outermost.atTopLine_eq, h.outermost'.atTopLine_eq, h.cursor.atLineStart]

/-- Both scanners read the same token on their line. -/
lemma Level.stride (h : Level source s t) {d : Stroke} {depth : ℕ}
    (hfits : d.Fits (lineAhead s.cursor.rest).length) (hhead : s.cursor.rest.head? ≠ some '\n') :
    Level source (s.stride d depth) (t.stride d depth) := by
  have hcursor {n : ℕ} (hn : n ≤ (lineAhead s.cursor.rest).length) :
      (Cursor.advanceBy n s.cursor).Level source (Cursor.advanceBy n t.cursor) := by
    have hsplit := (List.take_append_drop n s.cursor.rest).symm
    have hlength : (s.cursor.rest.take n).length = n := by
      rw [List.length_take, Nat.min_eq_left]
      exact hn.trans (lineAhead_isPrefix_self _).length_le
    have hlevel := h.cursor.advance hsplit
    rwa [returned_take hn, hlength] at hlevel
  have hspan {n : ℕ} (hn : n ≤ (lineAhead s.cursor.rest).length) :
      (s.spanOf n).Like (.returned source) (t.spanOf n) :=
    ⟨h.cursor.start hhead, (hcursor hn).place⟩
  refine ⟨⟨?_, ?_, ⟨⟨depth, rfl⟩, h.outermost.inBody, h.outermost.resume⟩, ?_⟩, hcursor hfits.1, rfl⟩
  · refine List.rel_append ?_ h.tokens
    cases d.kind? with
    | none => exact .nil
    | some kind =>
      refine .cons ⟨⟨rfl, ?_, hspan hfits.1, rfl, fun _ => False.elim⟩, h.spaceSeen⟩ .nil
      exact (h.sameView.textOf hfits.1).symm
  · refine List.rel_append ?_ h.faults
    cases hfault : d.fault? with
    | none => exact .nil
    | some f => exact .cons ⟨rfl, h.cursor.place, False.elim⟩ .nil
  · rw [Scanner.stride, perform, h.same]
    rfl

/-- Both scanners pass over something, each to its own place. -/
lemma Matches.skip (h : Matches source s t) (n n' : ℕ) : Matches source (s.skip n) (t.skip n') where
  tokens := h.tokens
  faults := h.faults
  outermost := ⟨h.outermost.modes, h.outermost.inBody, h.outermost.resume⟩
  same := by
    rw [h.same]
    rfl

/-- Blanks may be skipped by either scanner alone. -/
lemma Matches.skipBlank (h : Matches source s t) (n n' : ℕ) :
    Matches source (s.skipBlank n) (t.skipBlank n') where
  tokens := h.tokens
  faults := h.faults
  outermost := ⟨h.outermost.modes, h.outermost.inBody, h.outermost.resume⟩
  same := by
    rw [h.same]
    rfl

/-- Both scanners find the same fault. -/
lemma Matches.complain (h : Matches source s t) (cause : Fault.Cause) {span span' : Span}
    (hspan : (Likeness.returned source).place span.start span'.start) :
    Matches source (s.complain cause span) (t.complain cause span') where
  tokens := h.tokens
  faults := .cons ⟨rfl, hspan, False.elim⟩ h.faults
  outermost := ⟨h.outermost.modes, h.outermost.inBody, h.outermost.resume⟩
  same := by
    rw [h.same]
    rfl

/-- Both scanners end a statement at a line break, or neither does. -/
lemma AtReturn.newlineMatters (h : AtReturn source s t) : t.newlineMatters = s.newlineMatters := by
  obtain ⟨rest, hrest, hrest'⟩ := h.cursor.exists_rest
  unfold Scanner.newlineMatters
  rw [h.expects, h.resume, h.outermost.resume]
  simp only [Option.map_none, Option.getD_none, Cursor.rest_advance, hrest, hrest', List.tail_cons,
    continuesChain_returned]

/-- Both scanners read the same line break. -/
lemma AtReturn.scanNewline (h : AtReturn source s t) : Level source s.scanNewline t.scanNewline := by
  obtain ⟨rest, hrest, hrest'⟩ := h.cursor.exists_rest
  have hresume := h.outermost.resume
  have hresume' := h.resume
  have hspan : (s.spanOf 1).Like (.returned source) (t.spanOf 1) :=
    ⟨h.cursor.start, h.cursor.advance.place⟩
  have htext : t.textOf 1 = s.textOf 1 := by
    rw [textOf, textOf, hrest, hrest']
    rfl
  have hcursor (u : Scanner) (hu : u.resume = none) :
      u.scanNewline.cursor = Cursor.advanceBy 1 u.cursor := by
    unfold Scanner.scanNewline
    split <;> simp [expecting, emit, emitFlagged, skip, hu]
  refine ⟨⟨?_, ?_, ?_, ?_⟩, ?_, rfl⟩
  · unfold Scanner.scanNewline
    rw [h.newlineMatters]
    split
    · exact .cons ⟨⟨rfl, htext, hspan, rfl, fun _ => False.elim⟩, rfl⟩ h.tokens
    · exact h.tokens
  · unfold Scanner.scanNewline
    rw [h.newlineMatters]
    split
    · exact h.faults
    · exact h.faults
  · unfold Scanner.scanNewline
    split
    · exact ⟨h.outermost.modes, h.outermost.inBody, rfl⟩
    · exact ⟨h.outermost.modes, h.outermost.inBody, rfl⟩
  · unfold Scanner.scanNewline
    rw [h.newlineMatters, h.same]
    split <;> rfl
  · rw [hcursor s hresume, hcursor t hresume']
    exact h.cursor.advance

/-- What a text must be so that its lines may end in either way: no literal begins in it, and no line is
continued. -/
structure Steady (source : List Char) : Prop where
  bare : Bare source
  noReturn : '\r' ∉ source
  uncontinued : ¬ ['\\', '\n'] <:+: source

namespace Level

variable {nested nested' : Scanner → Option Scanner}

/-- What is left to read is the end of the text. -/
lemma rest_isSuffix (h : Level source s t) : s.cursor.rest <:+ source := by
  obtain ⟨before, hsource, -⟩ := h.cursor.exists_before
  exact ⟨before, hsource.symm⟩

/-- No literal begins in what is left to read. -/
lemma bare_rest (h : Level source s t) (hsource : Steady source) : Bare s.cursor.rest :=
  hsource.bare.of_part h.rest_isSuffix.isInfix

/-- No carriage return is in what is left to read. -/
lemma noReturn_rest (h : Level source s t) (hsource : Steady source) : '\r' ∉ s.cursor.rest :=
  fun hmem => hsource.noReturn (h.rest_isSuffix.subset hmem)

/-- Where the first scanner stands at a line break, the second passes over the carriage return. -/
lemma step_return (h : Level source s t) {cs : List Char} (hat : s.cursor.rest = '\n' :: cs)
    (nested : Scanner → Option Scanner) : t.step nested = some (.more (t.skipBlank 1)) := by
  have hat' : t.cursor.rest = '\r' :: '\n' :: returned cs := by rw [h.cursor.rest, hat]; rfl
  have hmarker : atEndMarker t.cursor.rest = false := by
    rw [hat']
    rfl
  rw [step_eq h.outermost'.modes, hmarker, Bool.and_false, skipTrivia?_return hat']
  rfl

/-- At a line break the second scanner passes over its carriage return. -/
lemma atReturn (h : Level source s t) {cs : List Char} (hat : s.cursor.rest = '\n' :: cs) :
    AtReturn source s (t.skipBlank 1) := by
  refine ⟨⟨h.tokens, h.faults, h.outermost, ?_⟩, ?_⟩
  · rw [h.same]
    rfl
  · exact h.cursor.advance_return (show s.cursor.rest = [] ++ '\n' :: cs from hat)

/-- Both scanners pass over the rest of a line and what is read with it. -/
lemma of_line (h : Level source s t) {u v : Scanner} (hmatches : Matches source u v)
    {body rest : List Char} (hrest : s.cursor.rest = body ++ rest) (hbreak : AtBreak rest)
    (hu : u.cursor = Cursor.advanceBy body.length s.cursor)
    (hv : v.cursor = Cursor.advanceBy (returned body ++ returnBefore rest).length t.cursor)
    (hspace : v.spaceSeen = u.spaceSeen) : Level source u v ∨ AtReturn source u v := by
  refine (h.cursor.advance_line hrest hbreak).imp (fun hcursor => ⟨hmatches, ?_, hspace⟩)
    fun hcursor => ⟨hmatches, ?_⟩
  · rwa [hu, hv]
  · rwa [hu, hv]

/-- Both scanners pass over a document, to the end of the line that ends it or to the end of the text. -/
lemma skipDocument (h : Level source s t) (hsource : Steady source) :
    Level source s.skipDocument t.skipDocument ∨ AtReturn source s.skipDocument t.skipDocument := by
  obtain ⟨body, rest, found, hrest, hbreak, hend, hend'⟩ :=
    documentEnd_returned (h.noReturn_rest hsource)
  have hspace : t.spaceSeen = s.spaceSeen := h.spaceSeen
  unfold Scanner.skipDocument
  rw [h.cursor.rest, hend, hend', Nat.zero_add, Nat.zero_add]
  cases found with
  | true => exact h.of_line (h.skip _ _) hrest hbreak rfl rfl hspace
  | false => exact h.of_line ((h.complain _ h.cursor.place).skip _ _) hrest hbreak rfl rfl hspace

/-- Both scanners pass over a comment, to the end of its line. -/
lemma skipComment (h : Level source s t) (hsource : Steady source) :
    Level source (s.skipBlank (s.cursor.run (· != '\n'))) (t.skipBlank (t.cursor.run (· != '\n'))) ∨
      AtReturn source (s.skipBlank (s.cursor.run (· != '\n')))
        (t.skipBlank (t.cursor.run (· != '\n'))) := by
  obtain ⟨line, rest, hrest, hbreak, hline, hline'⟩ := takeWhile_returned (h.noReturn_rest hsource)
  unfold Cursor.run
  rw [h.cursor.rest, hline, hline']
  exact h.of_line (h.skipBlank _ _) hrest hbreak rfl rfl rfl

/-- Both scanners pass over one blank. -/
lemma skipOne (h : Level source s t) {c : Char} {cs : List Char} (hat : s.cursor.rest = c :: cs)
    (hc : c ≠ '\n') : Level source (s.skipBlank 1) (t.skipBlank 1) := by
  have hadvance := h.cursor.advance (show s.cursor.rest = [c] ++ cs from hat)
  rw [returned_cons hc] at hadvance
  exact ⟨h.skipBlank 1 1, hadvance, rfl⟩

/-- Away from line breaks both scanners make the same step. -/
theorem step (h : Level source s t) (hsource : Steady source) (hhead : s.cursor.rest.head? ≠ some '\n') :
    (∀ nested, s.step nested = some (.done s)) ∧ (∀ nested, t.step nested = some (.done t)) ∨
      ∃ s' t', (∀ nested, s.step nested = some (.more s')) ∧
        (∀ nested, t.step nested = some (.more t')) ∧ (Level source s' t' ∨ AtReturn source s' t') := by
  have hmarker : (t.atTopLine && atEndMarker t.cursor.rest) =
      (s.atTopLine && atEndMarker s.cursor.rest) := by
    rw [h.atTopLine, h.cursor.rest, atEndMarker_returned (h.noReturn_rest hsource)]
  have hdocument : t.atDocument = s.atDocument := by
    rw [atDocument, atDocument, h.atTopLine, h.cursor.rest, atWord_returned (by decide +kernel)]
  simp only [step_eq h.outermost.modes, step_eq h.outermost'.modes, hmarker]
  by_cases hend : (s.atTopLine && atEndMarker s.cursor.rest) = true
  · left
    simp [hend]
  simp only [hend, Bool.false_eq_true, if_false]
  by_cases hat : s.cursor.rest = []
  · left
    have hat' : t.cursor.rest = [] := by rw [h.cursor.rest, hat, returned_nil]
    simp [skipTrivia?_nil hat, skipTrivia?_nil hat', hat, hat']
  right
  obtain ⟨c, cs, hat⟩ := List.exists_cons_of_ne_nil hat
  have hbreak : c ≠ '\n' := by
    rintro rfl
    simp [hat] at hhead
  have hreturn : c ≠ '\r' := by
    rintro rfl
    exact h.noReturn_rest hsource (hat ▸ List.mem_cons_self)
  have hline : isInLine c = true := by simp [isInLine, hbreak, hreturn]
  have hat' : t.cursor.rest = c :: returned cs := by rw [h.cursor.rest, hat, returned_cons hbreak]
  by_cases hdoc : s.atDocument = true
  · simp only [skipTrivia?_document hdoc, skipTrivia?_document (hdocument.trans hdoc)]
    exact ⟨_, _, fun _ => rfl, fun _ => rfl, h.skipDocument hsource⟩
  by_cases hblank : c ∈ lineBlanks
  · simp only [skipTrivia?_blank hblank hat, skipTrivia?_blank hblank hat']
    exact ⟨_, _, fun _ => rfl, fun _ => rfl, .inl (h.skipOne hat hbreak)⟩
  by_cases hcomment : c = '#'
  · subst hcomment
    simp only [skipTrivia?_comment hat, skipTrivia?_comment hat']
    exact ⟨_, _, fun _ => rfl, fun _ => rfl, h.skipComment hsource⟩
  -- What is left begins a token, or nothing at all: no line is continued.
  rw [Bool.not_eq_true] at hdoc
  have hnone : s.skipTrivia? = none := by
    refine skipTrivia?_token hdoc hat hblank hline hcomment fun hc hnext => hsource.uncontinued ?_
    obtain ⟨ds, rfl⟩ := List.head?_eq_some_iff.mp hnext
    subst hc
    have hahead : ['\\', '\n'] <:+: s.cursor.rest := ⟨[], ds, hat.symm⟩
    exact hahead.trans h.rest_isSuffix.isInfix
  have hnone' : t.skipTrivia? = none := by
    refine skipTrivia?_token (hdocument.trans hdoc) hat' hblank hline hcomment fun hc hnext => ?_
    cases cs with
    | nil => simp at hnext
    | cons d ds =>
      by_cases hd : d = '\n'
      · subst hd
        simp at hnext
      · rw [returned_cons hd, List.head?_cons, Option.some.injEq] at hnext
        exact hd hnext
  obtain ⟨depth, hmodes⟩ := h.outermost.modes
  obtain ⟨s', t', hs', ht', d, depth', hfits, rfl, rfl⟩ :=
    h.sameView.scanToken_of_bare (h.bare_rest hsource) hat hline hmodes (h.modes.trans hmodes)
      h.spaceSeen
  simp only [hnone, hnone', hat, hat', hs', ht', Option.map_some]
  exact ⟨_, _, fun _ => rfl, fun _ => rfl, .inl (h.stride hfits hhead)⟩

end Level

/-- Behind the carriage return both scanners read the line break. -/
lemma AtReturn.step (h : AtReturn source s t) (nested : Scanner → Option Scanner) :
    s.step nested = some (.more s.scanNewline) ∧ t.step nested = some (.more t.scanNewline) := by
  obtain ⟨rest, hrest, hrest'⟩ := h.cursor.exists_rest
  have hstep {u : Scanner} (hu : u.Outermost) {cs : List Char} (hat : u.cursor.rest = '\n' :: cs) :
      u.step nested = some (.more u.scanNewline) := by
    have hmarker : atEndMarker u.cursor.rest = false := by
      rw [hat]
      rfl
    rw [step_eq hu.modes, hmarker, Bool.and_false, skipTrivia?_lineBreak hat]
    rfl
  exact ⟨hstep h.outermost hrest, hstep h.outermost' hrest'⟩

/-- A run that has its like in the other text, up to a place where nothing but the line is to be read. -/
def RunsAlike (source : List Char) (s' t : Scanner) : Prop :=
  ∃ fuel t', run fuel t = some t' ∧ Level source s' t' ∧ s'.cursor.rest.head? ≠ some '\n'

/-- One more step in front of a run. -/
lemma RunsAlike.of_step {s' u : Scanner} (h : RunsAlike source s' u)
    (hstep : ∀ nested, t.step nested = some (.more u)) : RunsAlike source s' t := by
  obtain ⟨fuel, t', hrun, hlevel⟩ := h
  refine ⟨fuel + 1, t', ?_, hlevel⟩
  rw [run, hstep]
  exact hrun

/-- A run to the end of the text has its like in the text with a carriage return in front of every line
break, which takes one step more for each. -/
theorem run_returned (hsource : Steady source) {fuel : ℕ} {s' : Scanner} (hrun : run fuel s = some s')
    (h : Level source s t ∨ AtReturn source s t) : RunsAlike source s' t := by
  induction fuel generalizing s t with
  | zero => simp [run] at hrun
  | succ fuel ih =>
    rw [run] at hrun
    have hreturn {u : Scanner} (hu : AtReturn source s u) : RunsAlike source s' u := by
      rw [(hu.step _).1] at hrun
      exact (ih hrun (.inl hu.scanNewline)).of_step fun nested => (hu.step nested).2
    rcases h with h | h
    · by_cases hhead : s.cursor.rest.head? = some '\n'
      · obtain ⟨cs, hat⟩ := List.head?_eq_some_iff.mp hhead
        exact (hreturn (h.atReturn hat)).of_step (h.step_return hat)
      · rcases h.step hsource hhead with ⟨hs, ht⟩ | ⟨u, v, hs, ht, hnext⟩
        · rw [hs] at hrun
          obtain rfl := Option.some.inj hrun
          exact ⟨1, t, by rw [run, ht], h, hhead⟩
        · rw [hs] at hrun
          exact (ih hrun hnext).of_step ht
    · exact hreturn h

end Scanner

end RubyCheck
