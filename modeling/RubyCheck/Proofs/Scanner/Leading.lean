import Mathlib.Data.List.ModifyLast
import RubyCheck.Proofs.Scanner.Lower
import RubyCheck.Proofs.Scanner.Return

/-!
# A blank in front of a text

Behind empty lines the scanner has seen a blank before it reads the first token.  That blank is kept
with the first token, and with the checkpoints taken before it, and changes nothing else: what is
expected in front of the first token is an operand, whether a blank stands before it or not.
-/

namespace RubyCheck

/-- The token behind a blank. -/
def Token.space (t : Token) : Token := { t with spaced := true }

namespace Scanner

/-! ### The first token -/

/-- The same checkpoint behind a blank, if it was taken before the first token. -/
def Checkpoint.space (c : Checkpoint) : Checkpoint :=
  { c with spaced := c.tokens == 0 || c.spaced }

/-- The same scanner, whose first token stands behind a blank. -/
def space (s : Scanner) : Scanner :=
  { s with
    tokens := s.tokens.modifyLast Token.space
    openLiterals := s.openLiterals.map Checkpoint.space
    lastMultiline := s.lastMultiline.map Checkpoint.space }

/-- Whether a blank stands before the next token of the same text behind a blank. -/
def spacedHere (s : Scanner) (spaced : Bool) : Bool := s.tokens.isEmpty || spaced

variable {s : Scanner}

lemma modifyLast_nil : [].modifyLast Token.space = [] := rfl

lemma modifyLast_singleton (t : Token) : [t].modifyLast Token.space = [t.space] := rfl

/-- A token behind the first one is not touched. -/
lemma modifyLast_cons {t : Token} {ts : List Token} (h : ts ≠ []) :
    (t :: ts).modifyLast Token.space = t :: ts.modifyLast Token.space :=
  List.modifyLast_append_of_right_ne_nil _ [t] ts h

/-- As many tokens were read. -/
@[simp] lemma length_modifyLast (ts : List Token) :
    (ts.modifyLast Token.space).length = ts.length := by
  cases ts using List.reverseRecOn with
  | nil => rfl
  | append_singleton ts t => simp [List.modifyLast_concat]

/-- Of the oldest tokens the first one stands behind a blank too. -/
lemma keepOldest_modifyLast (k : ℕ) (ts : List Token) :
    keepOldest k (ts.modifyLast Token.space) = (keepOldest k ts).modifyLast Token.space := by
  have hdrop (m : ℕ) : (ts.modifyLast Token.space).drop m = (ts.drop m).modifyLast Token.space := by
    induction ts generalizing m with
    | nil => rw [List.drop_nil, modifyLast_nil, List.drop_nil]
    | cons t ts ih =>
      cases m with
      | zero => rfl
      | succ m =>
        by_cases hts : ts = []
        · simp [hts, modifyLast_singleton, modifyLast_nil]
        · rw [modifyLast_cons hts, List.drop_succ_cons, List.drop_succ_cons, ih]
  rw [keepOldest, keepOldest, length_modifyLast, hdrop]

/-- Behind the first token, blanks are as they are. -/
lemma spacedHere_of_ne (h : s.tokens ≠ []) (spaced : Bool) : s.spacedHere spaced = spaced := by
  simp [spacedHere, h]

/-- The first token stands behind a blank. -/
lemma spacedHere_of_eq (h : s.tokens = []) (spaced : Bool) : s.spacedHere spaced = true := by
  simp [spacedHere, h]

/-! ### Reading -/

variable {spaced : Bool}

section Fields

variable (s)

@[simp] lemma cursor_space : s.space.cursor = s.cursor := rfl

@[simp] lemma textOf_space (k : ℕ) : s.space.textOf k = s.textOf k := rfl

@[simp] lemma spanOf_space (k : ℕ) : s.space.spanOf k = s.spanOf k := rfl

/-- Characters are passed over without touching the tokens. -/
@[simp] lemma skip_space (k : ℕ) : s.space.skip k = (s.skip k).space := rfl

/-- A fault is found without touching the tokens. -/
@[simp] lemma complain_space (cause : Fault.Cause) (span : Span) :
    s.space.complain cause span = (s.complain cause span).space := rfl

/-- What is expected does not touch the tokens. -/
@[simp] lemma expecting_space (e : Expectation) :
    s.space.expecting e = (s.expecting e).space := rfl

end Fields

/-- A token is read; if it is the first one, a blank stands before it. -/
lemma emitFlagged_space (kind : TokenKind) (k : ℕ) (ambiguous : Bool) :
    s.space.emitFlagged kind k (s.spacedHere spaced) ambiguous =
      (s.emitFlagged kind k spaced ambiguous).space := by
  by_cases h : s.tokens = []
  · rw [spacedHere_of_eq h]
    simp [emitFlagged, space, h, Token.space, textOf, spanOf, modifyLast_singleton, modifyLast_nil]
  · rw [spacedHere_of_ne h]
    simp [emitFlagged, space, modifyLast_cons h, textOf, spanOf]

/-- A token is read; if it is the first one, a blank stands before it. -/
lemma emit_space (kind : TokenKind) (k : ℕ) :
    s.space.emit kind k (s.spacedHere spaced) = (s.emit kind k spaced).space :=
  emitFlagged_space kind k false

/-- A fault makes no difference to what stands before the next token. -/
lemma emit_space_of_tokens {t : Scanner} (h : t.tokens = s.tokens) (kind : TokenKind) (k : ℕ) :
    t.space.emit kind k (s.spacedHere spaced) = (t.emit kind k spaced).space := by
  rw [show s.spacedHere spaced = t.spacedHere spaced by rw [spacedHere, spacedHere, h], emit_space]

/-- A token that no blank can stand before is not the first one. -/
lemma emit_false_space (h : s.tokens ≠ []) (kind : TokenKind) (k : ℕ) :
    s.space.emit kind k false = (s.emit kind k false).space := by
  have hemit := @emit_space s false kind k
  rwa [spacedHere_of_ne h] at hemit

/-- A token that the text never wrote is not the first one. -/
lemma emitEmpty_space (h : s.tokens ≠ []) (kind : TokenKind) (at_ : Position) :
    s.space.emitEmpty kind at_ = (s.emitEmpty kind at_).space := by
  simp [emitEmpty, space, modifyLast_cons h]

/-- A blank in front of the first token does not change its kind. -/
lemma lastKind?_space : s.space.lastKind? = s.lastKind? := by
  unfold lastKind? space
  rcases hts : s.tokens with _ | ⟨t, _ | ⟨u, us⟩⟩
  · rfl
  · rfl
  · rw [modifyLast_cons (by simp)]
    rfl

section Choices

/-- A choice between two readings is the same choice behind a blank. -/
lemma ite_space {c : Prop} [Decidable c] {t u t' u' : Scanner} (ht : t' = t.space)
    (hu : u' = u.space) : (if c then t' else u') = (if c then t else u).space := by
  rw [ht, hu, apply_ite space]

/-- What may be read behind a blank may be read without it. -/
lemma map_space {α : Type} {f g : α → Scanner} (h : ∀ a, f a = (g a).space) (a : Option α) :
    a.map f = (a.map g).map space := by
  rw [Option.map_map]
  exact Option.map_congr fun a _ => h a

end Choices

/-! ### Tokens of code -/

/-- A number is read in the same way behind a blank. -/
lemma scanNumber_space :
    s.space.scanNumber (s.spacedHere spaced) = (s.scanNumber spaced).space := by
  unfold scanNumber
  simp only [textOf_space, spanOf_space, complain_space, ← apply_ite space]
  rw [emit_space_of_tokens (s := s) (by split <;> rfl)]
  rfl

/-- A name is learnt in the same way behind a blank. -/
lemma remember_space (name : String) : s.space.remember name = (s.remember name).space :=
  ite_space rfl rfl

/-- A name that is no keyword is read in the same way behind a blank. -/
lemma scanPlainName_space (k : ℕ) (dotFollows : Bool) :
    s.space.scanPlainName k (s.spacedHere spaced) dotFollows =
      (s.scanPlainName k spaced dotFollows).space := by
  unfold scanPlainName
  simp only [emit_space, remember_space, ← apply_ite space]
  exact ite_space rfl <| ite_space rfl <| ite_space rfl rfl

lemma keywordHere?_space (k : ℕ) (dotFollows : Bool) :
    s.space.keywordHere? k dotFollows = s.keywordHere? k dotFollows := rfl

/-- A name is read in the same way behind a blank. -/
lemma scanName_space : s.space.scanName (s.spacedHere spaced) = (s.scanName spaced).space := by
  have hdefining : s.space.definingName = s.definingName := rfl
  unfold scanName
  simp only [emit_space, scanPlainName_space, keywordHere?_space, cursor_space, hdefining]
  refine ite_space rfl ?_
  generalize s.keywordHere? _ _ = word
  cases word with
  | none => rfl
  | some word => rfl

/-- A variable behind a sigil is read in the same way behind a blank. -/
lemma scanSigil_space : s.space.scanSigil (s.spacedHere spaced) = (s.scanSigil spaced).space := by
  unfold scanSigil
  simp only [emit_space]
  exact ite_space rfl rfl

/-- A global variable is read in the same way behind a blank. -/
lemma scanGlobal_space :
    s.space.scanGlobal (s.spacedHere spaced) = (s.scanGlobal spaced).space := by
  unfold scanGlobal
  simp only [cursor_space, spanOf_space, complain_space, skip_space, emit_space, expecting_space]
  split
  · rfl
  · rfl

/-- A symbol is read in the same way behind a blank. -/
lemma scanSymbol?_space :
    s.space.scanSymbol? (s.spacedHere spaced) = (s.scanSymbol? spaced).map space := by
  refine map_space (fun p => ?_) _
  simp only [lastKind?_space, spanOf_space, complain_space, ← apply_ite space]
  rw [emit_space_of_tokens (by split <;> rfl), expecting_space]

/-- A character literal is read in the same way behind a blank. -/
lemma scanCharacter?_space :
    s.space.scanCharacter? (s.spacedHere spaced) = (s.scanCharacter? spaced).map space :=
  map_space (fun _ => congrArg (expecting · .operator) (emit_space _ _)) _

/-- A checkpoint that is taken before the first token remembers the blank. -/
lemma checkpoint_space :
    s.space.checkpoint (s.spacedHere spaced) = (s.checkpoint spaced).space := by
  have hspaced : s.spacedHere spaced = (s.tokens.length == 0 || spaced) := by
    cases hts : s.tokens with
    | nil => simp [spacedHere, hts]
    | cons t ts => simp [spacedHere, hts]
  simp [checkpoint, Checkpoint.space, space, hspaced]

/-- That a literal ends on its line does not touch the tokens. -/
lemma endOnItsLine_space (opener : ℕ) :
    s.space.endOnItsLine opener = (s.endOnItsLine opener).space :=
  ite_space rfl rfl

/-- A scanner that has read the same tokens reads the next one in the same way. -/
lemma emitFlagged_space_of_tokens {t : Scanner} (h : t.tokens = s.tokens) (kind : TokenKind)
    (k : ℕ) (ambiguous : Bool) : t.space.emitFlagged kind k (s.spacedHere spaced) ambiguous =
      (t.emitFlagged kind k spaced ambiguous).space := by
  rw [show s.spacedHere spaced = t.spacedHere spaced by rw [spacedHere, spacedHere, h],
    emitFlagged_space]

/-- That a literal ends on its line is no token. -/
lemma tokens_endOnItsLine (opener : ℕ) : (s.endOnItsLine opener).tokens = s.tokens := by
  unfold endOnItsLine
  split
  · rfl
  · rfl

/-- A literal opens in the same way behind a blank. -/
lemma beginLiteral_space (o : Opening) :
    s.space.beginLiteral o (s.spacedHere spaced) = (s.beginLiteral o spaced).space := by
  have hopener (c : Checkpoint) : c.space.opener = c.opener := rfl
  unfold beginLiteral
  simp only [checkpoint_space, hopener, endOnItsLine_space, ← apply_ite space, spanOf_space]
  rw [emitFlagged_space_of_tokens (s := s)]
  · rfl
  · split
    · exact tokens_endOnItsLine _
    · rfl

/-- A literal that is one token is read in the same way behind a blank. -/
lemma scanVerbatim_space (width : ℕ) (bracket : Option Char) (close : Char) (kind : TokenKind) :
    s.space.scanVerbatim (s.spacedHere spaced) width bracket close kind =
      (s.scanVerbatim spaced width bracket close kind).space := by
  unfold scanVerbatim
  simp only [spanOf_space, complain_space, ← apply_ite space]
  rw [emit_space_of_tokens (s := s) (by split <;> rfl)]
  rfl

/-- A percent literal is read in the same way behind a blank. -/
lemma scanPercent?_space :
    s.space.scanPercent? (s.spacedHere spaced) = (s.scanPercent? spaced).map space := by
  refine map_space (fun p => ?_) _
  obtain ⟨letter, delimiter⟩ := p
  dsimp only
  split
  all_goals simp only [scanVerbatim_space, beginLiteral_space]

/-- The opener of a heredoc may be the first token, but nothing of its body is. -/
lemma spliceBody_space (o : HeredocOpener) (body : Scanner) :
    s.space.spliceBody o (s.spacedHere spaced) body = (s.spliceBody o spaced body).space := by
  have hne : (s.emit .stringBegin o.length spaced).tokens ≠ [] := List.cons_ne_nil _ _
  have hbody (t : Token) : (t :: (body.tokens ++ (s.emit .stringBegin o.length spaced).tokens)).modifyLast
      Token.space = t :: (body.tokens ++
        (s.emit .stringBegin o.length spaced).tokens.modifyLast Token.space) :=
    List.modifyLast_append_of_right_ne_nil _ (t :: body.tokens) _ hne
  unfold spliceBody
  simp only [emit_space]
  unfold space
  simp only [hbody]
  rfl

/-- A heredoc is read in the same way behind a blank. -/
lemma scanHeredoc_space {nested : Scanner → Option Scanner} (o : HeredocOpener) :
    s.space.scanHeredoc nested o (s.spacedHere spaced) =
      (s.scanHeredoc nested o spaced).map space := by
  rw [scanHeredoc_eq_map, scanHeredoc_eq_map, Option.map_map]
  refine Option.map_congr fun body _ => ?_
  rw [Function.comp_apply, spliceBody_space, expecting_space]

/-- An operator is read in the same way behind a blank. -/
lemma scanOperator_space :
    s.space.scanOperator (s.spacedHere spaced) = (s.scanOperator spaced).space := by
  unfold scanOperator
  simp only [lastKind?_space, emit_space, cursor_space, spanOf_space, complain_space, skip_space]
  split
  · rfl
  · refine ite_space rfl ?_
    rw [← expecting_space]
    exact congrArg (expecting · _) (ite_space rfl rfl)

/-- An opening brace is read in the same way behind a blank. -/
lemma scanOpeningBrace_space :
    s.space.scanOpeningBrace (s.spacedHere spaced) = (s.scanOpeningBrace spaced).space := by
  obtain ⟨t, ht⟩ : ∃ t, (s.emit (.punct .lBrace) 1 spaced).expecting .operand = t := ⟨_, rfl⟩
  have hmodes : t.space.modes = t.modes := rfl
  unfold scanOpeningBrace
  simp only [emit_space, expecting_space, ht, hmodes]
  rcases t.modes with _ | ⟨_ | _, outer⟩
  · rfl
  · rfl
  · rfl

/-- A closing brace is read in the same way behind a blank. -/
lemma scanClosingBrace_space :
    s.space.scanClosingBrace (s.spacedHere spaced) = (s.scanClosingBrace spaced).space := by
  have hemit (ms : List Mode) (kind : TokenKind) :
      { s.space with modes := ms }.emit kind 1 (s.spacedHere spaced) =
        ({ s with modes := ms }.emit kind 1 spaced).space :=
    emit_space_of_tokens (s := s) (t := { s with modes := ms }) rfl kind 1
  have hmodes : s.space.modes = s.modes := rfl
  unfold scanClosingBrace
  simp only [emit_space, expecting_space, hmodes]
  rcases s.modes with _ | ⟨⟨_ | depth⟩ | _, _ | ⟨mode, outer⟩⟩
  · rfl
  · exact congrArg (expecting · .operator) (hemit [.code 0] (.punct .rBrace))
  · exact hemit (mode :: outer) .interpolationEnd
  · exact congrArg (expecting · .operator) (hemit [.code depth] (.punct .rBrace))
  · exact congrArg (expecting · .operator) (hemit (.code depth :: mode :: outer) (.punct .rBrace))
  · rfl
  · rfl

/-- Where nothing else can be read, an operator is read behind a blank as well. -/
lemma orOperator_space (reading : Option Scanner) :
    orOperator (reading.map space) s.space (s.spacedHere spaced) =
      (orOperator reading s spaced).space := by
  unfold orOperator
  rw [scanOperator_space]
  cases reading with
  | none => rfl
  | some t => rfl

variable {nested : Scanner → Option Scanner}

/-- Every token is read in the same way behind a blank, if a value is expected in both texts. -/
lemma scanTokenAt_space (hvalue : s.valueExpected (s.spacedHere spaced) = s.valueExpected spaced)
    (c : Char) : s.space.scanTokenAt nested (s.spacedHere spaced) c =
      (s.scanTokenAt nested spaced c).map space := by
  have hexpected : s.space.valueExpected (s.spacedHere spaced) = s.valueExpected spaced := hvalue
  have hopener : s.space.heredocOpener? = s.heredocOpener? := rfl
  unfold scanTokenAt
  simp only [scanNumber_space, scanName_space, beginLiteral_space, scanSigil_space,
    scanGlobal_space, scanSymbol?_space, scanCharacter?_space, scanPercent?_space, scanHeredoc_space,
    scanOperator_space, scanOpeningBrace_space, scanClosingBrace_space, orOperator_space, hexpected,
    hopener]
  split
  · rfl
  split
  · rfl
  split
  case h_6 | h_7 | h_8 | h_9 =>
    rw [apply_ite (Option.map space)]
    rfl
  case h_10 =>
    by_cases hvalue : s.valueExpected spaced = true
    · simp only [hvalue, if_true]
      cases s.heredocOpener? with
      | none => rfl
      | some o => rfl
    · simp only [hvalue, Bool.false_eq_true, if_false]
      rfl
  all_goals rfl

/-! ### Behind a blank -/

/-- The same scanner in a text behind a blank: the first token is set off, if it is read, and so is
what comes next, if it is not. -/
def behind (s : Scanner) : Scanner := { s.space with spaceSeen := s.spacedHere s.spaceSeen }

/-- The same step in a text behind a blank. -/
def Step.behind : Step → Step
  | .more s => .more s.behind
  | .done s => .done s.behind

/-- Behind the first token, only that token has seen the blank. -/
lemma behind_of_tokens (h : s.tokens ≠ []) : s.behind = s.space := by
  rw [behind, spacedHere_of_ne h]
  rfl

/-- Of the tokens only the first one stands behind the blank. -/
@[simp] lemma tokens_behind : s.behind.tokens = s.tokens.modifyLast Token.space := rfl

/-- The next token is read in the same way behind the blank. -/
lemma scanToken_behind
    (hvalue : s.valueExpected (s.spacedHere s.spaceSeen) = s.valueExpected s.spaceSeen) (c : Char) :
    s.behind.scanToken nested c = (s.scanToken nested c).map space := by
  have hemit (k : ℕ) :
      ({ s with spaceSeen := false } : Scanner).space.emit .identifier k (s.spacedHere s.spaceSeen) =
        (({ s with spaceSeen := false } : Scanner).emit .identifier k s.spaceSeen).space :=
    emit_space (s := { s with spaceSeen := false }) .identifier k
  have hcleared : ({ s.behind with spaceSeen := false } : Scanner) =
      ({ s with spaceSeen := false } : Scanner).space := rfl
  have hspaced : s.behind.spaceSeen = s.spacedHere s.spaceSeen := rfl
  have hdefined : ({ s with spaceSeen := false } : Scanner).space.definedOperator? =
      ({ s with spaceSeen := false } : Scanner).definedOperator? := rfl
  unfold scanToken
  simp only [hcleared, hspaced, hdefined, hemit]
  cases ({ s with spaceSeen := false } : Scanner).definedOperator? with
  | none => exact scanTokenAt_space (s := { s with spaceSeen := false }) hvalue c
  | some k => rfl

/-! ### Between tokens, behind the first one -/

section Read

variable (h : s.tokens ≠ [])

include h

/-- Behind the first token a line break is read in the same way. -/
lemma scanNewline_space : s.space.scanNewline = s.scanNewline.space := by
  have hmatters : s.space.newlineMatters = s.newlineMatters := rfl
  unfold scanNewline
  simp only [hmatters, emit_false_space h, expecting_space, skip_space, ← apply_ite space]
  rfl

/-- Behind the first token the same is passed over. -/
lemma skipTrivia?_space : s.space.skipTrivia? = s.skipTrivia?.map space := by
  have htop : s.space.atTopLine = s.atTopLine := rfl
  have hdocument : s.space.skipDocument = s.skipDocument.space := by
    unfold skipDocument
    rw [cursor_space]
    split
    · rfl
    · rfl
  unfold skipTrivia?
  rw [htop, hdocument, scanNewline_space h, cursor_space]
  split
  · rfl
  split
  all_goals rfl

/-! ### Inside a literal -/

/-- Inside a literal the first token has been read. -/
lemma emitContent_space (k : ℕ) : s.space.emitContent k = (s.emitContent k).space := by
  unfold emitContent
  rw [emit_false_space h]
  exact ite_space rfl rfl

omit h in
/-- The same literal is left, with a checkpoint that may have been taken before the first token. -/
lemma popLiteral_space (promote : Bool) : s.space.popLiteral promote =
    ((s.popLiteral promote).1.map Checkpoint.space, (s.popLiteral promote).2.space) := by
  have hopen : s.space.openLiterals = s.openLiterals.map Checkpoint.space := rfl
  unfold popLiteral
  rw [hopen]
  cases s.openLiterals with
  | nil => rfl
  | cons c outer =>
    have hany : s.space.lastMultiline.any (fun inner => c.space.depth < inner.depth) =
        s.lastMultiline.any (fun inner => c.depth < inner.depth) := by
      change (s.lastMultiline.map Checkpoint.space).any _ = _
      rw [Option.any_map]
      rfl
    simp only [List.map_cons, hany]
    split_ifs
    · rfl
    · rfl
    · rfl

omit h in
/-- Leaving a literal is no token. -/
lemma tokens_popLiteral (promote : Bool) : (s.popLiteral promote).2.tokens = s.tokens :=
  congrArg Snapshot.tokens (snapshot_popLiteral promote)

/-- A literal is closed in the same way. -/
lemma closeLiteral_space (l : OpenLiteral) (outer : List Mode) :
    s.space.closeLiteral l outer = (s.closeLiteral l outer).space := by
  have hemit (k : ℕ) : { s.space with modes := outer }.emit .stringEnd k false =
      ({ s with modes := outer }.emit .stringEnd k false).space :=
    emit_false_space (s := { s with modes := outer }) h .stringEnd k
  unfold closeLiteral
  simp only [hemit, popLiteral_space]
  rw [← expecting_space]
  exact congrArg (expecting · .operator) (ite_space rfl rfl)

omit h in
/-- Behind the end of a literal a token has been read. -/
lemma tokens_closeLiteral (l : OpenLiteral) (outer : List Mode) :
    (s.closeLiteral l outer).tokens ≠ [] :=
  ne_of_eq_of_ne (congrArg Snapshot.tokens (snapshot_closeLiteral l outer)) (List.cons_ne_nil _ _)

/-- A literal is abandoned in the same way. -/
lemma abandonLiteral_space (l : OpenLiteral) (outer : List Mode) :
    s.space.abandonLiteral l outer = (s.abandonLiteral l outer).space := by
  have hempty : (({ s with modes := outer } : Scanner).complain l.flavor.unterminated
      l.opener).space.emitEmpty .stringEnd s.cursor.position =
        ((({ s with modes := outer } : Scanner).complain l.flavor.unterminated
          l.opener).emitEmpty .stringEnd s.cursor.position).space :=
    emitEmpty_space (s := ({ s with modes := outer } : Scanner).complain _ _) h _ _
  unfold abandonLiteral
  change (((({ s with modes := outer } : Scanner).complain l.flavor.unterminated
    l.opener).space.emitEmpty .stringEnd s.cursor.position).popLiteral false).2.expecting
      .operator = _
  rw [hempty, popLiteral_space]
  rfl

/-- Code inside a literal begins in the same way. -/
lemma beginInterpolation_space : s.space.beginInterpolation = s.beginInterpolation.space := by
  unfold beginInterpolation
  rw [emit_false_space h]
  rfl

/-! ### The end of the text -/

/-- Going back in front of the first token comes behind the blank. -/
lemma restore_space (c : Checkpoint) : s.space.restore c.space = (s.restore c).behind := by
  have hspaced : (c.tokens == 0) = (keepOldest c.tokens s.tokens).isEmpty := by
    have := List.length_pos_of_ne_nil h
    rw [Bool.eq_iff_iff, beq_iff_eq, List.isEmpty_iff, keepOldest, List.drop_eq_nil_iff]
    omega
  unfold restore behind spacedHere Checkpoint.space
  rw [hspaced]
  simp only [space, keepOldest_modifyLast, keepOldest_map]
  rfl

omit h in
/-- The same checkpoint is gone back to, or none in both texts. -/
lemma rewindTarget?_space : s.space.rewindTarget? = s.rewindTarget?.map Checkpoint.space := by
  have hworth : s.space.worthRestoring ∘ Checkpoint.space = s.worthRestoring := rfl
  have hlast : s.space.lastMultiline = s.lastMultiline.map Checkpoint.space := rfl
  have hopen : s.space.openLiterals = s.openLiterals.map Checkpoint.space := rfl
  unfold rewindTarget?
  rw [hlast, hopen, Option.filter_map, hworth, ← List.map_reverse, List.find?_map, hworth]
  cases s.lastMultiline.filter s.worthRestoring with
  | none => rfl
  | some c => rfl

/-- A mode is closed in the same way. -/
lemma closeMode_space (m : Mode) : s.space.closeMode m = (s.closeMode m).space := by
  cases m with
  | code => exact emitEmpty_space h _ _
  | literal l =>
    have hcomplain : s.space.complain l.flavor.unterminated l.opener =
        (s.complain l.flavor.unterminated l.opener).space := rfl
    have hempty : (s.complain l.flavor.unterminated l.opener).space.emitEmpty .stringEnd
        s.cursor.position = ((s.complain l.flavor.unterminated l.opener).emitEmpty .stringEnd
          s.cursor.position).space :=
      emitEmpty_space (s := s.complain l.flavor.unterminated l.opener) h _ _
    simp only [closeMode, hcomplain, cursor_space, hempty, popLiteral_space]
    exact ite_space rfl rfl

/-- Closing a mode leaves the tokens that were read. -/
lemma tokens_closeMode (m : Mode) : (s.closeMode m).tokens ≠ [] := by
  cases m with
  | code => exact List.cons_ne_nil _ _
  | literal l =>
    unfold closeMode
    dsimp only
    split
    · rw [tokens_popLiteral]
      exact List.cons_ne_nil _ _
    · exact h

/-- The modes that are open are closed in the same way. -/
lemma closeModes_space (ms : List Mode) : closeModes ms s.space = (closeModes ms s).space := by
  induction ms generalizing s with
  | nil => rfl
  | cons m outer ih =>
    cases outer with
    | nil => rfl
    | cons m' outer =>
      change closeModes (m' :: outer) (s.space.closeMode m) = _
      rw [closeMode_space h, ih (tokens_closeMode h m)]
      rfl

/-- Closing all modes leaves the tokens that were read. -/
lemma tokens_closeModes (ms : List Mode) : (closeModes ms s).tokens ≠ [] := by
  induction ms generalizing s with
  | nil => exact h
  | cons m outer ih =>
    cases outer with
    | nil => exact h
    | cons m' outer => exact ih (tokens_closeMode h m)

/-- Where the text has run out the same is done, and going back may come behind the blank. -/
lemma endOfText_space : s.space.endOfText = s.endOfText.behind := by
  have hclosed (t : Scanner) (ht : t.tokens ≠ []) (ms : List Mode) :
      Step.done ((closeModes ms t.space).expecting .operator) =
        (Step.done ((closeModes ms t).expecting .operator)).behind := by
    rw [closeModes_space ht, expecting_space, Step.behind,
      behind_of_tokens (s := (closeModes ms t).expecting .operator) (tokens_closeModes ht ms)]
  have hmodes : s.space.modes = s.modes := rfl
  have hbody : s.space.inBody = s.inBody := rfl
  unfold endOfText
  rw [hmodes, hbody, rewindTarget?_space]
  rcases s.modes with _ | ⟨m, _ | ⟨m', outer⟩⟩
  · exact congrArg Step.done (behind_of_tokens h).symm
  · exact congrArg Step.done (behind_of_tokens h).symm
  · have hdone := hclosed s h (m :: m' :: outer)
    have hforgotten := hclosed
      { s with modes := m :: m' :: outer, inBody := false, lastMultiline := none } h
        (m :: m' :: outer)
    cases s.inBody with
    | true => exact hdone
    | false =>
      cases s.rewindTarget? with
      | none => exact hforgotten
      | some c =>
        have hrestore : (s.endOnItsLine c.opener).space.restore c.space = _ :=
          restore_space (by rwa [tokens_endOnItsLine]) c
        rw [← endOnItsLine_space] at hrestore
        exact congrArg Step.more hrestore

/-- What stands in a literal is read in the same way, and going back may come behind the blank. -/
lemma scanContent_space (l : OpenLiteral) (outer : List Mode) :
    s.space.scanContent l outer = (s.scanContent l outer).behind := by
  unfold scanContent
  rw [show contentEnd l 0 s.space.cursor.rest = contentEnd l 0 s.cursor.rest from rfl]
  obtain ⟨stop, k, l⟩ := contentEnd l 0 s.cursor.rest
  have hcontent : { s.space with modes := .literal l :: outer }.emitContent k =
      ({ s with modes := .literal l :: outer }.emitContent k).space :=
    emitContent_space (s := { s with modes := .literal l :: outer }) h k
  have hread : ({ s with modes := .literal l :: outer }.emitContent k).tokens ≠ [] := by
    unfold emitContent
    split
    · exact h
    · exact List.cons_ne_nil _ _
  simp only [hcontent]
  generalize { s with modes := .literal l :: outer }.emitContent k = t at hread ⊢
  cases stop with
  | endOfText =>
    have hend : t.space.endOfText.scanner = t.endOfText.scanner.behind := by
      rw [endOfText_space hread]
      cases t.endOfText with
      | more t => rfl
      | done t => rfl
    have hbody : { t.space with modes := outer } = ({ t with modes := outer } : Scanner).behind :=
      (behind_of_tokens (s := { t with modes := outer }) hread).symm
    simp only [hend, hbody, apply_ite behind]
  | interpolation =>
    rw [behind_of_tokens]
    · exact beginInterpolation_space hread
    · exact List.cons_ne_nil _ _
  | lineBreak =>
    rw [behind_of_tokens]
    · exact abandonLiteral_space hread l outer
    · exact ne_of_eq_of_ne (tokens_popLiteral _) (List.cons_ne_nil _ _)
  | delimiter =>
    rw [behind_of_tokens]
    · exact closeLiteral_space hread l outer
    · exact tokens_closeLiteral l outer

end Read

end Scanner

end RubyCheck
