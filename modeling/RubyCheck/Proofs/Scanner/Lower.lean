import RubyCheck.Proofs.Lower.Basic
import RubyCheck.Proofs.Scanner.Guide

/-!
# Scanning further down

A scanner looks at the characters ahead, and at places only to compare them with one another.  So
with empty lines in front of a text it does the same, further down.
-/

namespace RubyCheck.Scanner

variable (n : ℕ)

/-! ### States -/

/-- The literal in a text with `n` empty lines in front of it. -/
def OpenLiteral.lower (l : OpenLiteral) : OpenLiteral := { l with opener := l.opener.lower n }

/-- The mode in a text with `n` empty lines in front of it. -/
def Mode.lower : Mode → Mode
  | .code depth => .code depth
  | .literal l => .literal (l.lower n)

/-- The checkpoint in a text with `n` empty lines in front of it. -/
def Checkpoint.lower (c : Checkpoint) : Checkpoint :=
  { c with
    cursor := c.cursor.lower n
    topModes := c.topModes.map (Mode.lower n)
    resume := c.resume.map (Cursor.lower n)
    opener := c.opener + n
    line := c.line + n }

/-- The scanner in a text with `n` empty lines in front of it. -/
def lower (s : Scanner) : Scanner :=
  { s with
    cursor := s.cursor.lower n
    tokens := s.tokens.map (Token.lower n)
    faults := s.faults.map (Fault.lower n)
    modes := s.modes.map (Mode.lower n)
    openLiterals := s.openLiterals.map (Checkpoint.lower n)
    lastMultiline := s.lastMultiline.map (Checkpoint.lower n)
    singleLine := s.singleLine.map (· + n)
    resume := s.resume.map (Cursor.lower n) }

/-- The step in a text with `n` empty lines in front of it. -/
def Step.lower : Step → Step
  | .more s => .more (s.lower n)
  | .done s => .done (s.lower n)

variable (s : Scanner)

section Fields

@[simp] lemma cursor_lower : (s.lower n).cursor = s.cursor.lower n := rfl

@[simp] lemma tokens_lower : (s.lower n).tokens = s.tokens.map (Token.lower n) := rfl

@[simp] lemma faults_lower : (s.lower n).faults = s.faults.map (Fault.lower n) := rfl

@[simp] lemma modes_lower : (s.lower n).modes = s.modes.map (Mode.lower n) := rfl

@[simp] lemma expects_lower : (s.lower n).expects = s.expects := rfl

@[simp] lemma spaceSeen_lower : (s.lower n).spaceSeen = s.spaceSeen := rfl

@[simp] lemma definingName_lower : (s.lower n).definingName = s.definingName := rfl

@[simp] lemma inBlockParameters_lower :
    (s.lower n).inBlockParameters = s.inBlockParameters := rfl

@[simp] lemma inBody_lower : (s.lower n).inBody = s.inBody := rfl

@[simp] lemma locals_lower : (s.lower n).locals = s.locals := rfl

@[simp] lemma openLiterals_lower :
    (s.lower n).openLiterals = s.openLiterals.map (Checkpoint.lower n) := rfl

@[simp] lemma lastMultiline_lower :
    (s.lower n).lastMultiline = s.lastMultiline.map (Checkpoint.lower n) := rfl

@[simp] lemma singleLine_lower : (s.lower n).singleLine = s.singleLine.map (· + n) := rfl

@[simp] lemma resume_lower : (s.lower n).resume = s.resume.map (Cursor.lower n) := rfl

end Fields

/-- The oldest entries of a stack are lowered with it. -/
lemma keepOldest_map {α β : Type} (f : α → β) (k : ℕ) (stack : List α) :
    keepOldest k (stack.map f) = (keepOldest k stack).map f := by
  simp [keepOldest]

/-! ### Reading -/

variable (k : ℕ) (spaced : Bool)

/-- What is read stands as many lines further down. -/
@[simp] lemma spanOf_lower : (s.lower n).spanOf k = (s.spanOf k).lower n := by
  simp [spanOf, Span.lower]

/-- What is read is the same text. -/
@[simp] lemma textOf_lower : (s.lower n).textOf k = s.textOf k := rfl

/-- Characters are passed over further down. -/
@[simp] lemma skip_lower : (s.lower n).skip k = (s.skip k).lower n := by
  unfold skip
  rw [cursor_lower, Cursor.advanceBy_lower]
  rfl

/-- A token is read further down, flagged as ambiguous or not. -/
@[simp] lemma emitFlagged_lower (kind : TokenKind) (ambiguous : Bool) :
    (s.lower n).emitFlagged kind k spaced ambiguous =
      (s.emitFlagged kind k spaced ambiguous).lower n := by
  unfold emitFlagged
  rw [cursor_lower, Cursor.advanceBy_lower, spanOf_lower]
  rfl

/-- A token is read further down. -/
@[simp] lemma emit_lower (kind : TokenKind) :
    (s.lower n).emit kind k spaced = (s.emit kind k spaced).lower n :=
  emitFlagged_lower n s k spaced kind false

/-- A token that the text never wrote stands further down. -/
@[simp] lemma emitEmpty_lower (kind : TokenKind) (at_ : Position) :
    (s.lower n).emitEmpty kind (at_.lower n) = (s.emitEmpty kind at_).lower n := rfl

/-- A fault is found further down. -/
@[simp] lemma complain_lower (cause : Fault.Cause) (span : Span) :
    (s.lower n).complain cause (span.lower n) = (s.complain cause span).lower n := rfl

@[simp] lemma expecting_lower (e : Expectation) :
    (s.lower n).expecting e = (s.expecting e).lower n := rfl

/-- The last token is of the same kind. -/
@[simp] lemma lastKind?_lower : (s.lower n).lastKind? = s.lastKind? := by
  simp [lastKind?, Function.comp_def]

/-- Whether a value is expected is told by the last token alone. -/
@[simp] lemma valueExpected_lower : (s.lower n).valueExpected spaced = s.valueExpected spaced := rfl

/-! ### Choices -/

section Choices

variable {n}

/-- A choice between two readings is the same choice further down. -/
lemma ite_lower {c c' : Prop} [Decidable c] [Decidable c'] {t u t' u' : Scanner} (hc : c' ↔ c)
    (ht : t' = t.lower n) (hu : u' = u.lower n) :
    (if c' then t' else u') = (if c then t else u).lower n := by
  subst ht hu
  by_cases h : c
  · rw [if_pos h, if_pos (hc.mpr h)]
  · rw [if_neg h, if_neg (mt hc.mp h)]

/-- A reading that may not apply does the same further down. -/
lemma map_lower {α : Type} {f g : α → Scanner} (h : ∀ a, f a = (g a).lower n) (a : Option α) :
    a.map f = (a.map g).map (lower n) := by
  rw [Option.map_map]
  exact Option.map_congr fun a _ => h a

end Choices

/-! ### Numbers and names -/

/-- A number is read in the same way. -/
@[simp] lemma scanNumber_lower : (s.lower n).scanNumber spaced = (s.scanNumber spaced).lower n := by
  unfold scanNumber
  simp only [spanOf_lower, complain_lower, ← apply_ite (lower n), emit_lower]
  rfl

/-- The same name is learnt. -/
lemma remember_lower (name : String) : (s.lower n).remember name = (s.remember name).lower n :=
  ite_lower .rfl rfl rfl

/-- What a name that is no keyword is taken for does not depend on where it stands. -/
@[simp] lemma scanPlainName_lower (dotFollows : Bool) :
    (s.lower n).scanPlainName k spaced dotFollows =
      (s.scanPlainName k spaced dotFollows).lower n := by
  unfold scanPlainName
  simp only [emit_lower, remember_lower, ← apply_ite (lower n)]
  exact ite_lower .rfl rfl <| ite_lower .rfl rfl <| ite_lower .rfl rfl rfl

/-- Whether a name is a keyword does not depend on where it stands. -/
@[simp] lemma keywordHere?_lower (dotFollows : Bool) :
    (s.lower n).keywordHere? k dotFollows = s.keywordHere? k dotFollows := rfl

/-- A name is read in the same way. -/
@[simp] lemma scanName_lower : (s.lower n).scanName spaced = (s.scanName spaced).lower n := by
  unfold scanName
  simp only [emit_lower, scanPlainName_lower, keywordHere?_lower]
  refine ite_lower .rfl rfl ?_
  simp only [cursor_lower, Cursor.rest_lower, definingName_lower]
  by_cases hsetter : (s.definingName && "=(".toList.isPrefixOf
    (s.cursor.rest.drop (nameLength s.cursor.rest))) = true
  all_goals
    simp only [hsetter, Bool.false_eq_true, if_true, if_false]
    generalize s.keywordHere? _ _ = word
    cases word with
    | none => rfl
    | some word => rfl

/-- A variable behind a sigil is read in the same way. -/
@[simp] lemma scanSigil_lower : (s.lower n).scanSigil spaced = (s.scanSigil spaced).lower n := by
  unfold scanSigil
  simp only [emit_lower, spanOf_lower, complain_lower, skip_lower]
  exact ite_lower .rfl rfl rfl

/-- A global variable is read in the same way. -/
@[simp] lemma scanGlobal_lower : (s.lower n).scanGlobal spaced = (s.scanGlobal spaced).lower n := by
  unfold scanGlobal
  simp only [emit_lower, spanOf_lower, complain_lower, skip_lower, cursor_lower, Cursor.rest_lower]
  split
  · rfl
  · rfl

/-- A symbol is read in the same way, or none is in both texts. -/
@[simp] lemma scanSymbol?_lower :
    (s.lower n).scanSymbol? spaced = (s.scanSymbol? spaced).map (lower n) := by
  refine map_lower (fun p => ?_) _
  simp only [lastKind?_lower, spanOf_lower, complain_lower, ← apply_ite (lower n), emit_lower]
  rfl

/-- A character literal is read in the same way, or none is in both texts. -/
@[simp] lemma scanCharacter?_lower :
    (s.lower n).scanCharacter? spaced = (s.scanCharacter? spaced).map (lower n) :=
  map_lower (fun k => by rw [emit_lower, expecting_lower]) _

/-! ### Literals -/

/-- The checkpoint that is taken remembers a place further down. -/
@[simp] lemma checkpoint_lower :
    (s.lower n).checkpoint spaced = (s.checkpoint spaced).lower n := by
  simp [checkpoint, Checkpoint.lower, List.map_take]

/-- A literal that is known to end on its line is known to further down. -/
@[simp] lemma contains_singleLine_lower (opener : ℕ) :
    (s.lower n).singleLine.contains (opener + n) = s.singleLine.contains opener := by
  simp

/-- That a literal ends on its line is remembered for its place further down. -/
lemma endOnItsLine_lower (opener : ℕ) :
    (s.lower n).endOnItsLine (opener + n) = (s.endOnItsLine opener).lower n := by
  unfold endOnItsLine
  rw [contains_singleLine_lower]
  exact ite_lower .rfl rfl rfl

/-- A literal opens in the same way. -/
@[simp] lemma beginLiteral_lower (o : Opening) :
    (s.lower n).beginLiteral o spaced = (s.beginLiteral o spaced).lower n := by
  unfold beginLiteral
  have hopener (c : Checkpoint) : (c.lower n).opener = c.opener + n := rfl
  simp only [checkpoint_lower, hopener, endOnItsLine_lower, ← apply_ite (lower n), spanOf_lower,
    contains_singleLine_lower, emitFlagged_lower]
  rfl

/-- Where a stretch of content ends does not depend on where its literal was opened. -/
lemma contentEnd_lower (l : OpenLiteral) (cs : List Char) :
    contentEnd (l.lower n) k cs =
      ((contentEnd l k cs).1, (contentEnd l k cs).2.1, (contentEnd l k cs).2.2.lower n) := by
  fun_induction contentEnd l k cs <;> simp_all [contentEnd, OpenLiteral.lower]

/-- The content of a literal is read further down. -/
@[simp] lemma emitContent_lower : (s.lower n).emitContent k = (s.emitContent k).lower n := by
  unfold emitContent
  rw [emit_lower]
  exact ite_lower .rfl rfl rfl

/-- The same literal is left, with its checkpoint further down. -/
lemma popLiteral_lower (promote : Bool) :
    (s.lower n).popLiteral promote =
      ((s.popLiteral promote).1.map (Checkpoint.lower n), (s.popLiteral promote).2.lower n) := by
  unfold popLiteral
  rw [openLiterals_lower]
  cases s.openLiterals with
  | nil => rfl
  | cons c outer =>
    have hany : (s.lower n).lastMultiline.any (fun inner => (c.lower n).depth < inner.depth) =
        s.lastMultiline.any (fun inner => c.depth < inner.depth) := by
      rw [lastMultiline_lower, Option.any_map]
      rfl
    simp only [List.map_cons, hany]
    split_ifs
    · rfl
    · rfl
    · rfl

/-- A literal is closed in the same way. -/
@[simp] lemma closeLiteral_lower (l : OpenLiteral) (outer : List Mode) :
    (s.lower n).closeLiteral (l.lower n) (outer.map (Mode.lower n)) =
      (s.closeLiteral l outer).lower n := by
  have hemit (m : ℕ) : { s.lower n with modes := outer.map (Mode.lower n) }.emit .stringEnd m false =
      ({ s with modes := outer }.emit .stringEnd m false).lower n :=
    emit_lower n { s with modes := outer } m false .stringEnd
  unfold closeLiteral
  simp only [hemit, popLiteral_lower]
  rw [← expecting_lower]
  exact congrArg (expecting · .operator) (ite_lower .rfl rfl rfl)

/-- A literal is abandoned in the same way. -/
@[simp] lemma abandonLiteral_lower (l : OpenLiteral) (outer : List Mode) :
    (s.lower n).abandonLiteral (l.lower n) (outer.map (Mode.lower n)) =
      (s.abandonLiteral l outer).lower n := by
  unfold abandonLiteral
  change ((((Scanner.lower n { s with modes := outer }).complain l.flavor.unterminated
    (l.opener.lower n)).emitEmpty .stringEnd (s.cursor.position.lower n)).popLiteral false).2.expecting
      .operator = _
  rw [complain_lower, emitEmpty_lower, popLiteral_lower]
  rfl

/-- Code inside a literal begins in the same way. -/
@[simp] lemma beginInterpolation_lower :
    (s.lower n).beginInterpolation = s.beginInterpolation.lower n := by
  unfold beginInterpolation
  rw [emit_lower]
  rfl

/-! ### The end of the text -/

/-- Going back to a checkpoint further down comes to the place further down. -/
@[simp] lemma restore_lower (c : Checkpoint) :
    (s.lower n).restore (c.lower n) = (s.restore c).lower n := by
  unfold restore
  simp only [tokens_lower, faults_lower, modes_lower, openLiterals_lower, keepOldest_map]
  simp [lower, Checkpoint.lower]

/-- Whether it is worth going back is told by lines that are all further down. -/
@[simp] lemma worthRestoring_lower (c : Checkpoint) :
    (s.lower n).worthRestoring (c.lower n) = s.worthRestoring c := by
  unfold worthRestoring
  rw [show (c.lower n).opener = c.opener + n from rfl, contains_singleLine_lower]
  simp [Checkpoint.lower]

/-- The same checkpoint is gone back to, or none in both texts. -/
@[simp] lemma rewindTarget?_lower :
    (s.lower n).rewindTarget? = s.rewindTarget?.map (Checkpoint.lower n) := by
  have hworth : (s.lower n).worthRestoring ∘ Checkpoint.lower n = s.worthRestoring :=
    funext fun c => worthRestoring_lower n s c
  unfold rewindTarget?
  rw [lastMultiline_lower, openLiterals_lower, Option.filter_map, hworth, ← List.map_reverse,
    List.find?_map, hworth]
  cases s.lastMultiline.filter s.worthRestoring with
  | none => rfl
  | some c => rfl

/-- A mode is closed in the same way. -/
lemma closeMode_lower (m : Mode) :
    (s.lower n).closeMode (m.lower n) = (s.closeMode m).lower n := by
  cases m with
  | code => rfl
  | literal l =>
    have hcomplain : (s.lower n).complain (l.lower n).flavor.unterminated (l.lower n).opener =
        (s.complain l.flavor.unterminated l.opener).lower n := rfl
    simp only [Mode.lower, closeMode, hcomplain, cursor_lower, Cursor.position_lower,
      emitEmpty_lower, popLiteral_lower]
    exact ite_lower .rfl rfl rfl

/-- The modes that are open are closed in the same way. -/
lemma closeModes_lower (ms : List Mode) :
    closeModes (ms.map (Mode.lower n)) (s.lower n) = (closeModes ms s).lower n := by
  induction ms generalizing s with
  | nil => rfl
  | cons m outer ih =>
    cases outer with
    | nil => rfl
    | cons m' outer =>
      change closeModes ((m' :: outer).map (Mode.lower n)) ((s.lower n).closeMode (m.lower n)) = _
      rw [closeMode_lower, ih]
      rfl

/-- Where the text has run out the same is done. -/
@[simp] lemma endOfText_lower : (s.lower n).endOfText = s.endOfText.lower n := by
  have hclosed (t : Scanner) (ms : List Mode) : Step.done
      ((closeModes (ms.map (Mode.lower n)) (t.lower n)).expecting .operator) =
        (Step.done ((closeModes ms t).expecting .operator)).lower n := by
    rw [closeModes_lower]
    rfl
  unfold endOfText
  rw [modes_lower]
  rcases s.modes with _ | ⟨m, _ | ⟨m', outer⟩⟩
  · rfl
  · rfl
  · simp only [List.map_cons]
    rw [inBody_lower, rewindTarget?_lower]
    have hdone := hclosed s (m :: m' :: outer)
    have hforgotten := hclosed
      { s with modes := m :: m' :: outer, inBody := false, lastMultiline := none } (m :: m' :: outer)
    cases s.inBody with
    | true => exact hdone
    | false =>
      cases s.rewindTarget? with
      | none => exact hforgotten
      | some c =>
        have hopener : (c.lower n).opener = c.opener + n := rfl
        simp only [Option.map_some, hopener, endOnItsLine_lower, restore_lower]
        rfl

/-- What stands in a literal is read in the same way. -/
@[simp] lemma scanContent_lower (l : OpenLiteral) (outer : List Mode) :
    (s.lower n).scanContent (l.lower n) (outer.map (Mode.lower n)) =
      (s.scanContent l outer).lower n := by
  unfold scanContent
  rw [show contentEnd (l.lower n) 0 (s.lower n).cursor.rest = _ from
    contentEnd_lower n 0 l s.cursor.rest]
  obtain ⟨stop, k, l⟩ := contentEnd l 0 s.cursor.rest
  have hcontent : { s.lower n with
      modes := .literal (l.lower n) :: outer.map (Mode.lower n) }.emitContent k =
        ({ s with modes := .literal l :: outer }.emitContent k).lower n :=
    emitContent_lower n { s with modes := .literal l :: outer } k
  simp only [hcontent]
  cases stop with
  | endOfText =>
    refine ite_lower .rfl rfl ?_
    rw [endOfText_lower]
    cases Scanner.endOfText _ with
    | more t => rfl
    | done t => rfl
  | interpolation => exact beginInterpolation_lower n _
  | lineBreak => exact abandonLiteral_lower n _ l outer
  | delimiter => exact closeLiteral_lower n _ l outer

/-! ### Percent literals and heredocs -/

/-- A literal that is one token is read in the same way. -/
@[simp] lemma scanVerbatim_lower (width : ℕ) (bracket : Option Char) (close : Char)
    (kind : TokenKind) : (s.lower n).scanVerbatim spaced width bracket close kind =
      (s.scanVerbatim spaced width bracket close kind).lower n := by
  unfold scanVerbatim
  simp only [spanOf_lower, complain_lower, ← apply_ite (lower n), emit_lower]
  rfl

/-- A percent literal is read in the same way, or none is in both texts. -/
@[simp] lemma scanPercent?_lower :
    (s.lower n).scanPercent? spaced = (s.scanPercent? spaced).map (lower n) := by
  refine map_lower (fun p => ?_) _
  obtain ⟨letter, delimiter⟩ := p
  dsimp only
  split
  all_goals simp only [scanVerbatim_lower, beginLiteral_lower]

/-- Whether a heredoc begins is told by the characters ahead. -/
@[simp] lemma heredocOpener?_lower : (s.lower n).heredocOpener? = s.heredocOpener? := rfl

/-- Where reading goes on is further down, whether it was put off or not. -/
lemma getD_map_lower (resume : Option Cursor) (c : Cursor) :
    (resume.map (Cursor.lower n)).getD (c.lower n) = (resume.getD c).lower n := by
  cases resume with
  | none => rfl
  | some r => rfl

/-- The body of a heredoc begins further down. -/
lemma bodyStart_lower (o : HeredocOpener) :
    (s.lower n).bodyStart o = (s.bodyStart o).lower n := by
  unfold bodyStart
  rw [cursor_lower, Cursor.advanceBy_lower, Cursor.nextLine_lower, resume_lower, getD_map_lower]

/-- The body of a heredoc reaches as far. -/
lemma bodyRange_lower (o : HeredocOpener) : (s.lower n).bodyRange o = s.bodyRange o := by
  rw [bodyRange, bodyStart_lower]
  rfl

/-- The body of a heredoc is read by a scanner further down. -/
lemma bodyScanner_lower (o : HeredocOpener) :
    (s.lower n).bodyScanner o = (s.bodyScanner o).lower n := by
  unfold bodyScanner
  rw [bodyStart_lower, bodyRange_lower, Cursor.narrow_lower, spanOf_lower]
  rfl

/-- A heredoc that never ends is a fault at its opener further down. -/
lemma openerFaults_lower (o : HeredocOpener) :
    (s.lower n).openerFaults o = (s.openerFaults o).map (Fault.lower n) := by
  unfold openerFaults
  rw [bodyRange_lower, spanOf_lower]
  split
  · rfl
  · rfl

/-- The body of a heredoc is put behind its opener in the same way. -/
lemma spliceBody_lower (o : HeredocOpener) (body : Scanner) :
    (s.lower n).spliceBody o spaced (body.lower n) = (s.spliceBody o spaced body).lower n := by
  unfold spliceBody
  simp only [emit_lower, spanOf_lower, openerFaults_lower, bodyRange_lower, bodyStart_lower,
    Cursor.advanceBy_lower, tokens_lower, faults_lower, ← List.map_append]
  rfl

variable {n} in
/-- A heredoc is read in the same way, if its body is. -/
lemma scanHeredoc_lower {nested : Scanner → Option Scanner}
    (hnested : ∀ s, nested (s.lower n) = (nested s).map (lower n)) (o : HeredocOpener) :
    (s.lower n).scanHeredoc nested o spaced = (s.scanHeredoc nested o spaced).map (lower n) := by
  rw [scanHeredoc_eq_map, scanHeredoc_eq_map, bodyScanner_lower, hnested, Option.map_map,
    Option.map_map]
  refine Option.map_congr fun body _ => ?_
  rw [Function.comp_apply, spliceBody_lower]
  rfl

/-! ### Between tokens -/

/-- Whether a line break ends a statement is told by what is expected and what is ahead. -/
@[simp] lemma newlineMatters_lower : (s.lower n).newlineMatters = s.newlineMatters := by
  unfold newlineMatters
  rw [resume_lower, Option.map_map, cursor_lower, Cursor.advance_lower]
  rfl

/-- A line break is read in the same way. -/
@[simp] lemma scanNewline_lower : (s.lower n).scanNewline = s.scanNewline.lower n := by
  unfold scanNewline
  simp only [newlineMatters_lower, emit_lower, expecting_lower, skip_lower, ← apply_ite (lower n),
    resume_lower, cursor_lower, getD_map_lower]
  rfl

/-- An outermost line begins at the same columns. -/
@[simp] lemma atTopLine_lower : (s.lower n).atTopLine = s.atTopLine := by
  unfold atTopLine
  rw [modes_lower, ← List.map_tail, List.isEmpty_map]
  rfl

/-- An embedded document is passed over in the same way. -/
@[simp] lemma skipDocument_lower : (s.lower n).skipDocument = s.skipDocument.lower n := by
  unfold skipDocument
  rw [cursor_lower, Cursor.rest_lower]
  split
  · rw [skip_lower]
  · rw [spanOf_lower, complain_lower, skip_lower]

/-- Blanks are passed over in the same way. -/
@[simp] lemma skipBlank_lower : (s.lower n).skipBlank k = (s.skipBlank k).lower n := by
  unfold skipBlank
  rw [skip_lower]
  rfl

/-- What stands between tokens is passed over in the same way. -/
lemma skipTrivia?_lower : (s.lower n).skipTrivia? = s.skipTrivia?.map (lower n) := by
  unfold skipTrivia?
  rw [atTopLine_lower, skipDocument_lower, scanNewline_lower, cursor_lower, Cursor.rest_lower,
    Cursor.run_lower]
  split
  · rfl
  split
  all_goals first | rfl | rw [skipBlank_lower, Option.map_some]

/-! ### One step -/

/-- An operator is read in the same way. -/
@[simp] lemma scanOperator_lower : (s.lower n).scanOperator spaced = (s.scanOperator spaced).lower n := by
  unfold scanOperator
  simp only [cursor_lower, Cursor.startsWith_lower, Cursor.peek_lower, spanOf_lower, complain_lower,
    skip_lower, lastKind?_lower, emit_lower]
  split
  · rfl
  · refine ite_lower .rfl rfl ?_
    rw [← expecting_lower]
    exact congrArg (expecting · _) (ite_lower .rfl rfl rfl)

/-- An opening brace is read in the same way. -/
@[simp] lemma scanOpeningBrace_lower :
    (s.lower n).scanOpeningBrace spaced = (s.scanOpeningBrace spaced).lower n := by
  obtain ⟨t, ht⟩ : ∃ t, (s.emit (.punct .lBrace) 1 spaced).expecting .operand = t := ⟨_, rfl⟩
  unfold scanOpeningBrace
  simp only [emit_lower, expecting_lower, modes_lower, ht]
  rcases t.modes with _ | ⟨_ | _, outer⟩
  · rfl
  · rfl
  · rfl

/-- A closing brace is read in the same way, also where it ends code inside a literal. -/
@[simp] lemma scanClosingBrace_lower :
    (s.lower n).scanClosingBrace spaced = (s.scanClosingBrace spaced).lower n := by
  have hemit (ms : List Mode) (kind : TokenKind) :
      { s.lower n with modes := ms.map (Mode.lower n) }.emit kind 1 spaced =
        ({ s with modes := ms }.emit kind 1 spaced).lower n :=
    emit_lower n { s with modes := ms } 1 spaced kind
  have hinner (mode : Mode) (outer : List Mode) := hemit (mode :: outer) .interpolationEnd
  have hbrace (depth : ℕ) (outer : List Mode) := hemit (.code depth :: outer) (.punct .rBrace)
  unfold scanClosingBrace
  simp only [emit_lower, expecting_lower, modes_lower]
  rcases s.modes with _ | ⟨⟨_ | depth⟩ | _, _ | ⟨mode, outer⟩⟩
  · rfl
  · exact congrArg (expecting · .operator) (hbrace 0 [])
  · exact hinner mode outer
  · exact congrArg (expecting · .operator) (hbrace depth [])
  · exact congrArg (expecting · .operator) (hbrace depth (mode :: outer))
  · rfl
  · rfl

/-- Where nothing else can be read, an operator is read in both texts. -/
lemma orOperator_lower (reading : Option Scanner) :
    orOperator (reading.map (lower n)) (s.lower n) spaced =
      (orOperator reading s spaced).lower n := by
  unfold orOperator
  rw [scanOperator_lower]
  cases reading with
  | none => rfl
  | some t => rfl

section Nested

variable {n} {nested : Scanner → Option Scanner}
  (hnested : ∀ s, nested (s.lower n) = (nested s).map (lower n))

include hnested

/-- A token is read in the same way, whatever character it begins with. -/
lemma scanTokenAt_lower (c : Char) :
    (s.lower n).scanTokenAt nested spaced c = (s.scanTokenAt nested spaced c).map (lower n) := by
  unfold scanTokenAt
  simp only [scanNumber_lower, scanName_lower, beginLiteral_lower, scanSigil_lower, scanGlobal_lower,
    scanSymbol?_lower, scanCharacter?_lower, scanPercent?_lower, scanOperator_lower,
    scanOpeningBrace_lower, scanClosingBrace_lower, orOperator_lower, valueExpected_lower,
    heredocOpener?_lower, scanHeredoc_lower s spaced hnested, cursor_lower,
    Cursor.startsWith_lower, expects_lower]
  split
  · rfl
  split
  · rfl
  split
  case h_6 | h_7 | h_8 | h_9 =>
    rw [apply_ite (Option.map (lower n))]
    rfl
  case h_10 =>
    by_cases hvalue : s.valueExpected spaced = true
    · simp only [hvalue, if_true]
      cases s.heredocOpener? with
      | none => rfl
      | some o => rfl
    · simp only [hvalue, Bool.false_eq_true, if_false]
      rfl
  all_goals rfl

/-- A token is read in the same way, behind a `def` too. -/
lemma scanToken_lower (c : Char) :
    (s.lower n).scanToken nested c = (s.scanToken nested c).map (lower n) := by
  have hcleared : ({ s.lower n with spaceSeen := false } : Scanner) =
      ({ s with spaceSeen := false } : Scanner).lower n := rfl
  have hdefined : (({ s with spaceSeen := false } : Scanner).lower n).definedOperator? =
      ({ s with spaceSeen := false } : Scanner).definedOperator? := rfl
  unfold scanToken
  simp only [hcleared, hdefined, spaceSeen_lower]
  cases ({ s with spaceSeen := false } : Scanner).definedOperator? with
  | none => exact scanTokenAt_lower { s with spaceSeen := false } s.spaceSeen hnested c
  | some m =>
    simp only [emit_lower]
    rfl

/-- Every step is made in the same way, if the bodies of heredocs are read so. -/
lemma step_lower : (s.lower n).step nested = (s.step nested).map (Step.lower n) := by
  unfold step
  simp only [modes_lower, atTopLine_lower, cursor_lower, Cursor.rest_lower, skipTrivia?_lower,
    endOfText_lower, scanToken_lower s hnested]
  rcases s.modes with _ | ⟨_ | l, outer⟩
  case cons.literal =>
    exact congrArg (fun t => some (Step.more t)) (scanContent_lower n s l outer)
  all_goals
    simp only [List.map_nil, List.map_cons, Mode.lower]
    split
    · rfl
    cases s.skipTrivia? with
    | some t => rfl
    | none =>
      cases s.cursor.rest with
      | nil => rfl
      | cons c cs => simp only [Option.map_none, Option.map_map]; rfl

end Nested

/-- Reading a text is the same with empty lines in front of it, only further down. -/
theorem run_lower (fuel : ℕ) : run fuel (s.lower n) = (run fuel s).map (lower n) := by
  induction fuel generalizing s with
  | zero => rfl
  | succ fuel ih =>
    rw [run, run, step_lower s ih]
    cases s.step (run fuel) with
    | none => rfl
    | some r =>
      cases r with
      | done t => rfl
      | more t => exact ih t

end RubyCheck.Scanner
