import RubyCheck.Proofs.Position
import RubyCheck.Proofs.Scanner.Append
import RubyCheck.Proofs.Scanner.Effect
import RubyCheck.Proofs.Scanner.Stroke

/-!
# Scanning a longer text

A scanner of a text and one of the same text with something behind it do the same, as long as what the
first one reads does not run to the end of its text.  A token that does is a literal that is never closed
there (`RunsOut`).
-/

namespace RubyCheck

/-- Whether a cause is that of a literal or a document that is never closed. -/
def Fault.Cause.leavesOpen : Fault.Cause → Bool
  | unterminatedString | unterminatedRegex | unterminatedHeredoc _ | unterminatedComment => true
  | _ => false

/-! ### Cursors -/

namespace Cursor

/-- The cursor in the text with something behind it. -/
def extend (tail : List Char) (c : Cursor) : Cursor :=
  { c with rest := c.rest ++ tail, limit := c.limit + Source.byteLength tail }

variable {tail : List Char} {c : Cursor}

/-- What is added behind leaves the position alone. -/
@[simp] lemma position_extend : (c.extend tail).position = c.position := rfl

/-- It stands behind what is left of the text. -/
@[simp] lemma rest_extend : (c.extend tail).rest = c.rest ++ tail := rfl

/-- A character that is there is passed in the longer text as well. -/
lemma advance_extend (h : c.rest ≠ []) : (c.extend tail).advance = c.advance.extend tail := by
  obtain ⟨position, rest, limit⟩ := c
  cases rest with
  | nil => exact absurd rfl h
  | cons x xs => rfl

/-- All characters of the shorter text are passed in the longer text as well. -/
lemma advanceBy_extend {n : ℕ} (h : n ≤ c.rest.length) :
    advanceBy n (c.extend tail) = (advanceBy n c).extend tail := by
  induction n generalizing c with
  | zero => rfl
  | succ n ih =>
    have hne : c.rest ≠ [] := List.ne_nil_of_length_pos (by omega)
    rw [advanceBy_succ, advanceBy_succ, advance_extend hne, ih]
    rw [rest_advance, List.length_tail]
    omega

/-- A part of the shorter text is the same part of the longer one. -/
lemma narrow_extend {n : ℕ} (h : n ≤ c.rest.length) : (c.extend tail).narrow n = c.narrow n := by
  unfold narrow
  rw [advanceBy_extend h, rest_extend, List.take_append_of_le_length h]
  rfl

end Cursor

namespace Scanner

open Text

variable {tail : List Char} {s : Scanner} {spaced : Bool}

/-! ### States -/

/-- The checkpoint in the text with something behind it. -/
def Checkpoint.extend (tail : List Char) (c : Checkpoint) : Checkpoint :=
  { c with cursor := c.cursor.extend tail, resume := c.resume.map (Cursor.extend tail) }

/-- The scanner in the text with something behind it. -/
def extend (tail : List Char) (s : Scanner) : Scanner :=
  { s with
    cursor := s.cursor.extend tail
    openLiterals := s.openLiterals.map (Checkpoint.extend tail)
    lastMultiline := s.lastMultiline.map (Checkpoint.extend tail)
    resume := s.resume.map (Cursor.extend tail) }

/-- The cursor of an extended scanner is extended. -/
@[simp] lemma cursor_extend : (s.extend tail).cursor = s.cursor.extend tail := rfl

/-- Skipping stays within the shorter text. -/
lemma skip_extend {n : ℕ} (h : n ≤ s.cursor.rest.length) :
    (s.extend tail).skip n = (s.skip n).extend tail := by
  unfold skip
  rw [cursor_extend, Cursor.advanceBy_extend h]
  rfl

/-- A span within the shorter text is the same. -/
lemma spanOf_extend {n : ℕ} (h : n ≤ s.cursor.rest.length) :
    (s.extend tail).spanOf n = s.spanOf n := by
  unfold spanOf
  rw [cursor_extend, Cursor.advanceBy_extend h]
  rfl

/-- The text within the shorter text is the same. -/
lemma textOf_extend {n : ℕ} (h : n ≤ s.cursor.rest.length) :
    (s.extend tail).textOf n = s.textOf n :=
  congrArg String.ofList (List.take_append_of_le_length h)

/-- A token within the shorter text is emitted alike, with its flags. -/
lemma emitFlagged_extend {n : ℕ} (h : n ≤ s.cursor.rest.length) (kind : TokenKind)
    (ambiguous : Bool) : (s.extend tail).emitFlagged kind n spaced ambiguous =
      (s.emitFlagged kind n spaced ambiguous).extend tail := by
  unfold emitFlagged
  rw [cursor_extend, Cursor.advanceBy_extend h, spanOf_extend h, textOf_extend h]
  rfl

/-- A token within the shorter text is emitted alike. -/
lemma emit_extend {n : ℕ} (h : n ≤ s.cursor.rest.length) (kind : TokenKind) :
    (s.extend tail).emit kind n spaced = (s.emit kind n spaced).extend tail :=
  emitFlagged_extend h kind false

/-! ### Tokens -/

/-- A stroke that fits the shorter text is performed alike. -/
lemma perform_extend {d : Stroke} (h : d.Fits s.cursor.rest.length) :
    (s.extend tail).perform spaced d = (s.perform spaced d).extend tail := by
  have hfault : d.fault?.map (fun f => (⟨f.1, (s.extend tail).spanOf f.2⟩ : Fault)) =
      d.fault?.map fun f => ⟨f.1, s.spanOf f.2⟩ := by
    refine Option.map_congr fun f hf => ?_
    rw [spanOf_extend (h.2 f hf)]
  unfold perform
  rw [cursor_extend, Cursor.advanceBy_extend h.1, spanOf_extend h.1, textOf_extend h.1, hfault]
  rfl

/-- In a longer text a scanner stands before the same line, if that line ends. -/
lemma sameView_extend (h : Held tail s.cursor.rest) : SameView s (s.extend tail) :=
  ⟨(lineAhead_append h).symm, rfl, rfl, rfl, rfl, rfl⟩

/-- What two scanners do together, a scanner does in the longer text. -/
lemma Together.extend {s' t' : Scanner} (h : Together spaced s (s.extend tail) s' t') :
    t' = s'.extend tail := by
  obtain ⟨d, hfits, rfl, rfl⟩ := h
  have hlength := (lineAhead_isPrefix_self s.cursor.rest).length_le
  exact perform_extend ⟨hfits.1.trans hlength, fun f hf => (hfits.2 f hf).trans hlength⟩

/-- Steps that go together in both texts end in the extended scanner. -/
lemma Together?.extend {s' t' : Option Scanner} (h : Together? spaced s (s.extend tail) s' t') :
    t' = s'.map (Scanner.extend tail) := by
  rcases h with ⟨rfl, rfl⟩ | ⟨u, v, rfl, rfl, h⟩
  · rfl
  · rw [h.extend]
    rfl

/-! ### Literals -/

/-- A checkpoint keeps the longer text. -/
lemma checkpoint_extend : (s.extend tail).checkpoint spaced = (s.checkpoint spaced).extend tail := by
  simp [checkpoint, Checkpoint.extend, extend]

/-- A literal that ends on its line leaves the same checkpoints. -/
lemma endOnItsLine_extend (opener : ℕ) :
    (s.extend tail).endOnItsLine opener = (s.endOnItsLine opener).extend tail := by
  unfold endOnItsLine
  rw [apply_ite (extend tail)]
  rfl

/-- A literal whose opener is in the shorter text is begun alike. -/
lemma beginLiteral_extend {o : Opening} (h : o.width ≤ s.cursor.rest.length) :
    (s.extend tail).beginLiteral o spaced = (s.beginLiteral o spaced).extend tail := by
  have hopener (c : Checkpoint) : (c.extend tail).opener = c.opener := rfl
  unfold beginLiteral
  simp only [checkpoint_extend, hopener, endOnItsLine_extend, ← apply_ite (extend tail)]
  generalize ht : (if o.singleLine = true then s.endOnItsLine (s.checkpoint spaced).opener else s) = t
  have hrest : t.cursor = s.cursor := by
    rw [← ht]
    split
    · exact congrArg Snapshot.cursor (snapshot_endOnItsLine _)
    · rfl
  rw [← hrest] at h
  rw [spanOf_extend h, emitFlagged_extend h]
  rfl

/-- Content within the shorter text is emitted alike. -/
lemma emitContent_extend {n : ℕ} (h : n ≤ s.cursor.rest.length) :
    (s.extend tail).emitContent n = (s.emitContent n).extend tail := by
  unfold emitContent
  rw [emit_extend h]
  exact (apply_ite (extend tail) _ _ _).symm

/-- The same checkpoint is taken off when a literal is closed. -/
lemma popLiteral_extend (promote : Bool) :
    (s.extend tail).popLiteral promote =
      ((s.popLiteral promote).1.map (Checkpoint.extend tail),
        (s.popLiteral promote).2.extend tail) := by
  have hopen : (s.extend tail).openLiterals = s.openLiterals.map (Checkpoint.extend tail) := rfl
  have hlast : (s.extend tail).lastMultiline = s.lastMultiline.map (Checkpoint.extend tail) := rfl
  unfold popLiteral
  rw [hopen, hlast]
  cases s.openLiterals with
  | nil => rfl
  | cons c outer =>
    have hany : (s.lastMultiline.map (Checkpoint.extend tail)).any
        (fun inner => (c.extend tail).depth < inner.depth) =
          s.lastMultiline.any (fun inner => c.depth < inner.depth) := by
      rw [Option.any_map]
      rfl
    simp only [List.map_cons, hany]
    split_ifs
    · rfl
    · rfl
    · rfl

/-- Interpolated code is begun alike. -/
lemma beginInterpolation_extend (h : 2 ≤ s.cursor.rest.length) :
    (s.extend tail).beginInterpolation = s.beginInterpolation.extend tail := by
  unfold beginInterpolation
  rw [emit_extend h]
  rfl

/-- A literal that is given up leaves the same fault. -/
lemma abandonLiteral_extend (l : OpenLiteral) (outer : List Mode) :
    (s.extend tail).abandonLiteral l outer = (s.abandonLiteral l outer).extend tail := by
  unfold abandonLiteral
  change (((({ s with modes := outer } : Scanner).complain l.flavor.unterminated
    l.opener).emitEmpty .stringEnd s.cursor.position).extend tail |>.popLiteral false).2.expecting
      .operator = _
  rw [popLiteral_extend]
  rfl

/-- A literal is closed alike if no letter follows, which could be an option. -/
lemma closeLiteral_extend {c : Char} {cs : List Char} (hrest : s.cursor.rest = c :: cs)
    (htail : tail.head?.any isAsciiLetter = false) (l : OpenLiteral) (outer : List Mode) :
    (s.extend tail).closeLiteral l outer = (s.closeLiteral l outer).extend tail := by
  have hletters : (s.extend tail).cursor.rest.tail.takeWhile isAsciiLetter =
      s.cursor.rest.tail.takeWhile isAsciiLetter := by
    rw [cursor_extend, Cursor.rest_extend, hrest, List.cons_append, List.tail_cons, List.tail_cons,
      List.takeWhile_append]
    split
    · rename_i hall
      have hnone : tail.takeWhile isAsciiLetter = [] := by
        cases tail with
        | nil => rfl
        | cons d ds => exact List.takeWhile_cons_of_neg (by simpa using htail)
      rw [hnone, List.append_nil]
      exact ((List.takeWhile_prefix _).eq_of_length hall).symm
    · rfl
  have hlength : (1 + if l.flavor == .regex then (s.cursor.rest.tail.takeWhile isAsciiLetter).length
      else 0) ≤ s.cursor.rest.length := by
    have hrun := (List.takeWhile_prefix (l := cs) isAsciiLetter).length_le
    rw [hrest, List.tail_cons, List.length_cons]
    split <;> omega
  have hemit : { s.extend tail with modes := outer }.emit .stringEnd _ false =
      ({ s with modes := outer }.emit .stringEnd _ false).extend tail :=
    emit_extend (s := { s with modes := outer }) hlength .stringEnd
  unfold closeLiteral
  simp only [hletters, hemit, popLiteral_extend]
  split
  · rfl
  · rfl

/-- Content that ends before the text does is read alike, if neither a brace nor a letter comes first in
what is added. -/
lemma scanContent_extend {l l' : OpenLiteral} {outer : List Mode} {stop : ContentEnd} {n : ℕ}
    (h : contentEnd l 0 s.cursor.rest = (stop, n, l')) (hstop : stop ≠ .endOfText)
    (hbrace : tail.head? ≠ some '\x7b') (hletter : tail.head?.any isAsciiLetter = false) :
    (s.extend tail).scanContent l outer = (s.scanContent l outer).extend tail := by
  have hlong := contentEnd_append h hstop hbrace
  obtain ⟨k, hk, hle, hstops, -⟩ := contentEnd_spec h
  obtain rfl : n = k := by omega
  have hcontent : { s.extend tail with modes := .literal l' :: outer }.emitContent n =
      ({ s with modes := .literal l' :: outer }.emitContent n).extend tail :=
    emitContent_extend (s := { s with modes := .literal l' :: outer }) hle
  have hrest : (({ s with modes := .literal l' :: outer } : Scanner).emitContent n).cursor.rest =
      s.cursor.rest.drop n := by
    rw [cursor_emitContent, Cursor.rest_advanceBy]
  rw [← hrest] at hstops
  unfold scanContent
  simp only [show (s.extend tail).cursor.rest = s.cursor.rest ++ tail from rfl, hlong, h, hcontent]
  generalize ({ s with modes := .literal l' :: outer } : Scanner).emitContent n = t at hstops ⊢
  generalize ht : t.cursor.rest = rest at hstops
  cases hstops with
  | endOfText => exact absurd rfl hstop
  | interpolation rest => exact beginInterpolation_extend (by simp [ht])
  | lineBreak rest => exact abandonLiteral_extend l' outer
  | delimiter c rest => exact closeLiteral_extend ht hletter l' outer

/-! ### Between tokens -/

/-- What is put behind whole lines neither goes on with what stands in front of it nor is taken for a
part of it. -/
structure Apart (tail : List Char) : Prop where
  brace : tail.head? ≠ some '\x7b'
  letter : tail.head?.any isAsciiLetter = false
  chain : continuesChain false tail = false

/-- A scanner that sees whole lines, and goes on at whole lines. -/
structure SeesLines (s : Scanner) : Prop where
  cursor : WholeLines s.cursor.rest
  resume : ∀ r ∈ s.resume, WholeLines r.rest

/-- What is added does not carry on a call, so a line break matters alike. -/
lemma newlineMatters_extend (htail : Apart tail) (hs : SeesLines s) (hne : s.cursor.rest ≠ []) :
    (s.extend tail).newlineMatters = s.newlineMatters := by
  have hahead : ((s.extend tail).resume.map (·.rest)).getD (s.extend tail).cursor.advance.rest =
      (s.resume.map (·.rest)).getD s.cursor.advance.rest ++ tail := by
    have hadvance : (s.cursor.extend tail).advance = s.cursor.advance.extend tail :=
      Cursor.advance_extend hne
    have hresume : (s.extend tail).resume = s.resume.map (Cursor.extend tail) := rfl
    rw [hresume, cursor_extend, hadvance]
    cases s.resume with
    | none => rfl
    | some r => rfl
  have hlines : WholeLines ((s.resume.map (·.rest)).getD s.cursor.advance.rest) := by
    cases hresume : s.resume with
    | none =>
      rw [Option.map_none, Option.getD_none, Cursor.rest_advance, ← List.drop_one]
      exact hs.cursor.drop 1
    | some r => exact hs.resume r hresume
  unfold newlineMatters
  rw [hahead, continuesChain_append htail.chain hlines fun _ => rfl]
  rfl

/-- The place to resume at, or the cursor, is the one in the longer text. -/
lemma getD_extend (resume : Option Cursor) (c : Cursor) :
    (resume.map (Cursor.extend tail)).getD (c.extend tail) = (resume.getD c).extend tail := by
  cases resume with
  | none => rfl
  | some r => rfl

/-- A line break that ends a statement in both texts, or in neither, is read alike. -/
lemma scanNewline_extend_of_matters (hne : s.cursor.rest ≠ [])
    (hmatters : (s.extend tail).newlineMatters = s.newlineMatters) :
    (s.extend tail).scanNewline = s.scanNewline.extend tail := by
  have hlength : 1 ≤ s.cursor.rest.length := List.length_pos_iff.mpr hne
  have hresume (t : Scanner) : (t.extend tail).resume.getD (t.extend tail).cursor =
      (t.resume.getD t.cursor).extend tail := getD_extend t.resume t.cursor
  have hexpecting (t : Scanner) : (t.extend tail).expecting .operand =
      (t.expecting .operand).extend tail := rfl
  unfold scanNewline
  simp only [hmatters, emit_extend hlength, skip_extend hlength, hexpecting,
    ← apply_ite (extend tail), hresume]
  rfl

/-- A line break is read alike in front of text that carries on no call. -/
lemma scanNewline_extend (htail : Apart tail) (hs : SeesLines s) (hne : s.cursor.rest ≠ []) :
    (s.extend tail).scanNewline = s.scanNewline.extend tail :=
  scanNewline_extend_of_matters hne (newlineMatters_extend htail hs hne)

/-- Blanks within the shorter text are skipped alike. -/
lemma skipBlank_extend {n : ℕ} (h : n ≤ s.cursor.rest.length) :
    (s.extend tail).skipBlank n = (s.skipBlank n).extend tail := by
  unfold skipBlank
  rw [skip_extend h]
  rfl

/-- Both stand at the beginning of a line or neither does. -/
lemma atTopLine_extend : (s.extend tail).atTopLine = s.atTopLine := rfl

/-- A document that ends in the shorter text is skipped alike. -/
lemma skipDocument_extend (hs : SeesLines s) (hfaults : s.skipDocument.faults = []) :
    (s.extend tail).skipDocument = s.skipDocument.extend tail := by
  have hlong (n : ℕ) (h : documentEnd 0 s.cursor.rest = (n, true)) :
      documentEnd 0 (s.extend tail).cursor.rest = (n, true) := documentEnd_append h (.inl hs.cursor)
  unfold skipDocument at hfaults ⊢
  split at hfaults
  · rename_i n hn
    rw [hlong n hn]
    exact skip_extend ((documentEnd_le hn).trans_eq (Nat.zero_add _))
  · simp [skip, complain] at hfaults

/-- What stands between tokens is skipped alike, as long as no document is left open. -/
lemma skipTrivia?_extend (htail : Apart tail) (hs : SeesLines s) (hne : s.cursor.rest ≠ [])
    (hfaults : ∀ s', s.skipTrivia? = some s' → s'.faults = []) :
    (s.extend tail).skipTrivia? = s.skipTrivia?.map (extend tail) := by
  have hheld := hs.cursor.held hne tail
  have hword : atWord "=begin".toList (s.extend tail).cursor.rest =
      atWord "=begin".toList s.cursor.rest := atWord_append (by decide +kernel) hheld
  have hrun : (s.extend tail).cursor.run (· != '\n') = s.cursor.run (· != '\n') :=
    congrArg List.length (takeWhile_append_of_held hheld)
  have hlong : (s.extend tail).cursor.rest = s.cursor.rest ++ tail := rfl
  unfold skipTrivia? at hfaults ⊢
  rw [atTopLine_extend, hword, hrun]
  by_cases hdocument : (s.atTopLine && atWord "=begin".toList s.cursor.rest) = true
  · simp only [hdocument, if_true] at hfaults ⊢
    rw [skipDocument_extend hs (hfaults _ rfl)]
    rfl
  simp only [hdocument, Bool.false_eq_true, if_false, hlong]
  symm
  split
  case h_6 ds hrest =>
    rw [hrest]
    exact congrArg some (skipBlank_extend (by simp [hrest])).symm
  case h_7 ds hrest =>
    rw [hrest]
    exact congrArg some (skipBlank_extend (List.takeWhile_prefix _).length_le).symm
  case h_8 ds hrest =>
    rw [hrest]
    exact congrArg some (scanNewline_extend htail hs hne).symm
  case h_9 hspace htab hreturn hvertical hfeed hcontinued hcomment hbreak =>
    obtain ⟨c, cs, hrest⟩ := List.exists_cons_of_ne_nil hne
    rw [hrest, List.cons_append]
    split
    case h_6 heq =>
      -- A backslash is not the last character of whole lines.
      obtain ⟨rfl, hbehind⟩ := List.cons.inj heq
      cases cs with
      | nil => exact absurd ((hrest ▸ hs.cursor).eq_of_cons rfl) (by decide)
      | cons d ds =>
        obtain ⟨rfl, -⟩ := List.cons.inj hbehind
        exact (hcontinued ds hrest).elim
    case h_9 => rfl
    all_goals
      rename_i heq
      obtain ⟨rfl, -⟩ := List.cons.inj heq
      first
        | exact (hspace cs hrest).elim
        | exact (htab cs hrest).elim
        | exact (hreturn cs hrest).elim
        | exact (hvertical cs hrest).elim
        | exact (hfeed cs hrest).elim
        | exact (hcomment cs hrest).elim
        | exact (hbreak cs hrest).elim
  all_goals
    rename_i ds hrest
    rw [hrest]
    exact congrArg some (skipBlank_extend (by simp [hrest])).symm

/-! ### Tokens that may span lines -/

/-- A token that is never closed takes the rest of the text and is at fault for it. -/
structure RunsOut (s s' : Scanner) : Prop where
  rest : s'.cursor.rest = []
  modes : s'.modes = s.modes
  faults : ∃ f : Fault, f.cause.leavesOpen = true ∧ s'.faults = f :: s.faults

/-- Where the text runs out in a token, a fault is found. -/
lemma RunsOut.faults_ne_nil {s' : Scanner} (h : RunsOut s s') : s'.faults ≠ [] := by
  obtain ⟨f, -, hfaults⟩ := h.faults
  simp [hfaults]

/-- What is expected next does not depend on the text. -/
lemma expecting_extend (e : Expectation) :
    (s.extend tail).expecting e = (s.expecting e).extend tail := rfl

/-- A symbol is read alike in the longer text, if the quotes around it are closed. -/
lemma scanSymbol?_extend (hheld : Held tail s.cursor.rest) {cs : List Char}
    (hrest : s.cursor.rest = ':' :: cs) :
    (s.extend tail).scanSymbol? spaced = (s.scanSymbol? spaced).map (extend tail) ∨
      ∃ s', s.scanSymbol? spaced = some s' ∧ RunsOut s s' := by
  by_cases hquote : cs.head? ≠ some '"' ∧ cs.head? ≠ some '\''
  · exact .inl ((sameView_extend hheld).scanSymbol? hrest hquote).extend
  · obtain ⟨c, ds, rfl, hc⟩ : ∃ c ds, cs = c :: ds ∧ (c = '"' ∨ c = '\'') := by
      cases cs with
      | nil => simp at hquote
      | cons c ds => exact ⟨c, ds, rfl, by simpa [or_iff_not_imp_left] using hquote⟩
    have hsymbol (es : List Char) : symbolLength? (c :: es) = some (quotedEnd c 1 es) := by
      rcases hc with rfl | rfl <;> rfl
    have hlength := quotedEnd_le c 1 ds
    have hlong (n : ℕ) (h : quotedEnd c 1 ds = (n, true)) : quotedEnd c 1 (ds ++ tail) = (n, true) :=
      quotedEnd_append h tail
    have hopen (n : ℕ) (h : quotedEnd c 1 ds = (n, false)) : n = 1 + ds.length := quotedEnd_false h
    unfold scanSymbol?
    rw [cursor_extend, Cursor.rest_extend]
    simp only [hrest, List.cons_append, List.tail_cons, hsymbol, Option.map_some]
    generalize quotedEnd c 1 ds = r at *
    obtain ⟨n, complete⟩ := r
    cases complete with
    | false =>
      obtain rfl := hopen n rfl
      right
      refine ⟨_, rfl, ?_, rfl, ⟨.unterminatedString, s.spanOf _⟩, rfl, rfl⟩
      change (Cursor.advanceBy _ s.cursor).rest = []
      rw [Cursor.rest_advanceBy, hrest]
      exact List.drop_eq_nil_of_le (by simp only [List.length_cons]; omega)
    | true =>
      left
      rw [hlong n rfl]
      simp only [if_true]
      have hfits : n + 1 ≤ s.cursor.rest.length := by
        simp only [hrest, List.length_cons]
        omega
      rw [emit_extend hfits]
      rfl

/-- A character literal is read alike in the longer text, if no backslash ends the text. -/
lemma scanCharacter?_extend (hheld : Held tail s.cursor.rest)
    (hcontinued : s.cursor.rest.getLast? ≠ some '\\') {cs : List Char}
    (hrest : s.cursor.rest = '?' :: cs) :
    (s.extend tail).scanCharacter? spaced = (s.scanCharacter? spaced).map (extend tail) := by
  by_cases hslash : cs.head? = some '\\'
  · obtain ⟨ds, rfl⟩ := List.head?_eq_some_iff.mp hslash
    have hne : ds ≠ [] := by
      rintro rfl
      exact hcontinued (by rw [hrest]; rfl)
    have hlength (es : List Char) (h : es ≠ []) : characterLength? ('?' :: '\\' :: es) = some 3 := by
      cases es with
      | nil => exact absurd rfl h
      | cons e es =>
        have hblank : isBlank '\\' = false := by decide
        simp only [characterLength?, hblank, Bool.false_eq_true, if_false, if_true,
          List.length_cons, Nat.min_eq_left (Nat.succ_le_succ (Nat.zero_le es.length))]
    unfold scanCharacter?
    rw [cursor_extend, Cursor.rest_extend, hrest]
    rw [List.cons_append, List.cons_append, hlength _ hne, hlength (ds ++ tail) (by simp [hne])]
    have hfits : 3 ≤ s.cursor.rest.length := by
      have := List.length_pos_iff.mpr hne
      simp only [hrest, List.length_cons]
      omega
    simp only [Option.map_some, emit_extend hfits]
    rfl
  · exact ((sameView_extend hheld).scanCharacter? hrest hslash).extend

/-- A percent literal without code is read alike in the longer text, if it is closed. -/
lemma scanVerbatim_extend {width : ℕ} (hwidth : width ≤ s.cursor.rest.length)
    (bracket : Option Char) (close : Char) (kind : TokenKind) :
    (s.extend tail).scanVerbatim spaced width bracket close kind =
        (s.scanVerbatim spaced width bracket close kind).extend tail ∨
      RunsOut s (s.scanVerbatim spaced width bracket close kind) := by
  have hlong (n : ℕ) (h : verbatimEnd bracket close 0 width (s.cursor.rest.drop width) = (n, true)) :
      verbatimEnd bracket close 0 width ((s.extend tail).cursor.rest.drop width) = (n, true) := by
    rw [cursor_extend, Cursor.rest_extend, List.drop_append_of_le_length hwidth]
    exact verbatimEnd_append h tail
  have hopen (n : ℕ) (h : verbatimEnd bracket close 0 width (s.cursor.rest.drop width) = (n, false)) :
      n = width + (s.cursor.rest.drop width).length := verbatimEnd_false h
  have hle := verbatimEnd_le bracket close 0 width (s.cursor.rest.drop width)
  unfold scanVerbatim
  generalize verbatimEnd bracket close 0 width (s.cursor.rest.drop width) = r at *
  obtain ⟨n, complete⟩ := r
  rw [List.length_drop] at hle hopen
  cases complete with
  | false =>
    obtain rfl := hopen n rfl
    right
    refine ⟨?_, rfl, ⟨.unterminatedString, s.spanOf width⟩, rfl, rfl⟩
    change (Cursor.advanceBy _ s.cursor).rest = []
    rw [Cursor.rest_advanceBy]
    exact List.drop_eq_nil_of_le (by omega)
  | true =>
    left
    simp only [hlong n rfl, if_true]
    rw [emit_extend (by omega)]
    rfl

/-- The opener of a percent literal is a part of the text. -/
lemma width_le_of_percentOpener? {cs : List Char} {letter : Option Char} {delimiter : Char}
    (h : percentOpener? cs = some (letter, delimiter)) :
    (if letter.isSome then 3 else 2) ≤ cs.length + 1 := by
  cases cs with
  | nil => simp [percentOpener?] at h
  | cons c cs =>
    unfold percentOpener? at h
    by_cases hletter : isAsciiLetter c = true
    · cases cs with
      | nil => simp [hletter] at h
      | cons d ds =>
        simp only [List.length_cons]
        split <;> omega
    · simp [hletter] at h
      obtain ⟨-, rfl, -⟩ := h
      simp

/-- A percent literal is read alike in the longer text, if it is closed or holds code. -/
lemma scanPercent?_extend (hheld : Held tail s.cursor.rest) {cs : List Char}
    (hrest : s.cursor.rest = '%' :: cs) :
    (s.extend tail).scanPercent? spaced = (s.scanPercent? spaced).map (extend tail) ∨
      ∃ s', s.scanPercent? spaced = some s' ∧ RunsOut s s' := by
  have hcs : Held tail cs := (hrest ▸ hheld).of_cons (by decide)
  have hopener : percentOpener? (s.extend tail).cursor.rest.tail =
      percentOpener? s.cursor.rest.tail := by
    rw [cursor_extend, Cursor.rest_extend, hrest, List.cons_append, List.tail_cons, List.tail_cons,
      ← percentOpener?_lineAhead, lineAhead_append hcs, percentOpener?_lineAhead]
  unfold scanPercent?
  rw [hopener]
  cases hr : percentOpener? s.cursor.rest.tail with
  | none => exact .inl rfl
  | some r =>
    obtain ⟨letter, delimiter⟩ := r
    have hwidth : (if letter.isSome then 3 else 2) ≤ s.cursor.rest.length := by
      rw [hrest, List.tail_cons] at hr
      rw [hrest, List.length_cons]
      exact width_le_of_percentOpener? hr
    have hverbatim (bracket : Option Char) (close : Char) (kind : TokenKind) :
        some ((s.extend tail).scanVerbatim spaced (if letter.isSome then 3 else 2) bracket close kind) =
            some ((s.scanVerbatim spaced (if letter.isSome then 3 else 2) bracket close kind).extend
              tail) ∨
          ∃ s', some (s.scanVerbatim spaced (if letter.isSome then 3 else 2) bracket close kind) =
            some s' ∧ RunsOut s s' :=
      (scanVerbatim_extend hwidth bracket close kind).imp (congrArg some) fun h => ⟨_, rfl, h⟩
    simp only [Option.map_some]
    split
    · exact hverbatim _ _ _
    · exact hverbatim _ _ _
    · exact hverbatim _ _ _
    · exact hverbatim _ _ _
    · exact .inl (congrArg some (beginLiteral_extend hwidth))
    · exact .inl (congrArg some (beginLiteral_extend hwidth))

/-! ### Heredocs -/

/-- The next line begins where it did, if the line ends in the shorter text. -/
lemma nextLine_extend {c : Cursor} (h : '\n' ∈ c.rest) :
    (c.extend tail).nextLine = c.nextLine.extend tail := by
  have hrun : (c.extend tail).run (· != '\n') = c.run (· != '\n') :=
    congrArg List.length (takeWhile_append_of_held (.inl h))
  have hlt : c.run (· != '\n') < c.rest.length := by
    refine lt_of_le_of_ne (List.takeWhile_prefix _).length_le fun hall => ?_
    have hself := (List.takeWhile_prefix (l := c.rest) (· != '\n')).eq_of_length hall
    have hbreak := List.takeWhile_eq_self_iff.mp hself '\n' h
    simp at hbreak
  unfold Cursor.nextLine
  rw [hrun, Cursor.advanceBy_extend hlt.le, Cursor.advance_extend]
  rw [Cursor.rest_advanceBy]
  exact List.ne_nil_of_length_pos (by rw [List.length_drop]; omega)

section Heredoc

variable {nested : Scanner → Option Scanner} {o : HeredocOpener}

/-- The opener of a heredoc ends before its line does. -/
lemma lineBreak_of_heredocOpener? (hs : WholeLines s.cursor.rest) (ho : s.heredocOpener? = some o) :
    o.length ≤ s.cursor.rest.length ∧ '\n' ∈ s.cursor.rest.drop o.length := by
  obtain ⟨-, -, opener, rest, hrest, hlength, hbreak⟩ := heredocOpener?_spec ho
  have hdrop : s.cursor.rest.drop o.length = rest := by
    rw [hrest, ← hlength, List.drop_left]
  refine ⟨by simp [hrest, hlength], ?_⟩
  have hlines := hs.drop o.length
  rw [hdrop] at hlines ⊢
  have hne : rest ≠ [] := by
    rintro rfl
    rw [List.append_nil] at hrest
    obtain ⟨⟨after, hopener⟩, -⟩ := rest_of_heredocOpener? ho
    have hopener' : opener ≠ [] := by simp [← hrest, hopener]
    have hlast := hs (opener.getLast hopener') (by rw [hrest]; exact List.getLast?_eq_some_getLast _)
    exact hbreak (hlast ▸ List.getLast_mem hopener')
  have hlast := hlines _ (List.getLast?_eq_some_getLast hne)
  rw [← hlast]
  exact List.getLast_mem hne

/-- The body of a heredoc begins at the same place of the longer text, if the line of the opener ends. -/
lemma bodyStart_extend (hle : o.length ≤ s.cursor.rest.length)
    (hbreak : s.resume = none → '\n' ∈ s.cursor.rest.drop o.length) :
    (s.extend tail).bodyStart o = (s.bodyStart o).extend tail := by
  unfold bodyStart
  cases hresume : s.resume with
  | some r => simp [Scanner.extend, hresume]
  | none =>
    have hresume' : (s.extend tail).resume = none := by simp [Scanner.extend, hresume]
    rw [hresume', cursor_extend, Cursor.advanceBy_extend hle,
      nextLine_extend (by simpa using hbreak hresume), Option.getD_none, Option.getD_none]

/-- The body of a heredoc begins at the beginning of a line. -/
lemma wholeLines_bodyStart (hs : SeesLines s) (o : HeredocOpener) :
    WholeLines (s.bodyStart o).rest := by
  unfold bodyStart
  cases hresume : s.resume with
  | some r => exact hs.resume r hresume
  | none =>
    rw [Option.getD_none, Cursor.nextLine_eq_advanceBy, Cursor.rest_advanceBy,
      Cursor.rest_advanceBy]
    exact (hs.cursor.drop _).drop _

/-- The body of a heredoc is the same in the longer text. -/
structure SameBody (tail : List Char) (s : Scanner) (o : HeredocOpener) : Prop where
  length_le : o.length ≤ s.cursor.rest.length
  start : (s.extend tail).bodyStart o = (s.bodyStart o).extend tail
  range : (s.extend tail).bodyRange o = s.bodyRange o

/-- In whole lines, a heredoc without a fault has the same body in the longer text. -/
lemma sameBody_of_lines (hs : SeesLines s) (ho : s.heredocOpener? = some o) {s' body : Scanner}
    (heq : s'.core = (s.spliceBody o spaced body).core) (hfaults : s'.faults = []) :
    SameBody tail s o := by
  have hterminated : (s.bodyRange o).terminated = true := by
    by_contra hopen
    have hfault : s.openerFaults o ≠ [] := by simp [openerFaults, hopen]
    have hspliced : s'.faults = body.faults ++ (s.openerFaults o ++ s.faults) :=
      (congrArg Scanner.faults heq :)
    rw [hfaults] at hspliced
    exact hfault (List.append_eq_nil_iff.mp (List.append_eq_nil_iff.mp hspliced.symm).2).1
  obtain ⟨hle, hbreak⟩ := lineBreak_of_heredocOpener? hs.cursor ho
  have hstart : (s.extend tail).bodyStart o = (s.bodyStart o).extend tail :=
    bodyStart_extend hle fun _ => hbreak
  refine ⟨hle, hstart, ?_⟩
  unfold bodyRange
  rw [hstart]
  exact range_append o (heredocOpener?_spec ho).1 (wholeLines_bodyStart hs o) (fun _ => rfl)
    hterminated tail

/-- A heredoc that ends before the text does has the same body in the longer text. -/
lemma sameBody_of_ahead (ho : s.heredocOpener? = some o)
    (hahead : (Cursor.advanceBy (s.bodyRange o).whole (s.bodyStart o)).rest ≠ []) :
    SameBody tail s o := by
  have hlt : (s.bodyRange o).whole < (s.bodyStart o).rest.length := by
    rw [Cursor.rest_advanceBy] at hahead
    by_contra hle
    exact hahead (List.drop_eq_nil_of_le (Nat.not_lt.mp hle))
  have hle : o.length ≤ s.cursor.rest.length := by
    obtain ⟨-, -, opener, rest, hrest, hlength, -⟩ := heredocOpener?_spec ho
    simp [hrest, hlength]
  have hstart : (s.extend tail).bodyStart o = (s.bodyStart o).extend tail := by
    refine bodyStart_extend hle fun hresume => ?_
    -- A line is ahead behind that of the opener.
    by_contra hbreak
    have hstart : s.bodyStart o = (Cursor.advanceBy o.length s.cursor).nextLine := by
      rw [bodyStart, hresume, Option.getD_none]
    have hall : (s.cursor.rest.drop o.length).takeWhile (· != '\n') = s.cursor.rest.drop o.length := by
      refine List.takeWhile_eq_self_iff.mpr fun c hc => bne_iff_ne.mpr ?_
      rintro rfl
      exact hbreak hc
    rw [hstart, Cursor.nextLine_eq_advanceBy, Cursor.rest_advanceBy, Cursor.run, Cursor.rest_advanceBy,
      hall] at hlt
    simp only [List.length_drop] at hlt
    omega
  refine ⟨hle, hstart, ?_⟩
  unfold bodyRange
  rw [hstart]
  refine range_append_of_lt o ?_ tail
  rw [Nat.zero_add]
  exact hlt

/-- A heredoc that has the same body in the longer text is read alike there, its body by the same
scanner. -/
lemma scanHeredoc_extend (hbody : SameBody tail s o) {s' : Scanner}
    (hread : s.scanHeredoc nested o spaced = some s') :
    (s.extend tail).scanHeredoc nested o spaced = some (s'.extend tail) := by
  rw [scanHeredoc_eq_map] at hread ⊢
  obtain ⟨body, hnested, rfl⟩ := Option.map_eq_some_iff.mp hread
  obtain ⟨hle, hstart, hrange⟩ := hbody
  have hbounds := o.range_le [] (s.bodyStart o).rest (Nat.zero_le 0)
  have hwholeLe : (s.bodyRange o).whole ≤ (s.bodyStart o).rest.length :=
    hbounds.2.trans_eq (Nat.zero_add _)
  have hbodyLe : (s.bodyRange o).body ≤ (s.bodyStart o).rest.length := hbounds.1.trans hwholeLe
  have hscanner : (s.extend tail).bodyScanner o = s.bodyScanner o := by
    unfold bodyScanner
    rw [hstart, hrange, Cursor.narrow_extend hbodyLe, spanOf_extend hle]
    rfl
  have hopener : (s.extend tail).openerFaults o = s.openerFaults o := by
    unfold openerFaults
    rw [hrange, spanOf_extend hle]
  rw [hscanner, hnested, Option.map_some]
  unfold spliceBody
  rw [hopener, hstart, hrange, Cursor.advanceBy_extend hwholeLe, spanOf_extend hle, emit_extend hle]
  rfl

end Heredoc

/-! ### Steps -/

section Step

variable {nested : Scanner → Option Scanner} {c : Char} {cs : List Char} {s' : Scanner}

/-- An opening brace is read alike. -/
lemma scanOpeningBrace_extend (h : 1 ≤ s.cursor.rest.length) :
    (s.extend tail).scanOpeningBrace spaced = (s.scanOpeningBrace spaced).extend tail := by
  unfold scanOpeningBrace
  rw [emit_extend h, expecting_extend]
  generalize (s.emit (.punct .lBrace) 1 spaced).expecting .operand = t
  have hmodes : (t.extend tail).modes = t.modes := rfl
  dsimp only
  rw [hmodes]
  split <;> rfl

/-- A closing brace is read alike. -/
lemma scanClosingBrace_extend (h : 1 ≤ s.cursor.rest.length) :
    (s.extend tail).scanClosingBrace spaced = (s.scanClosingBrace spaced).extend tail := by
  have hmodes : (s.extend tail).modes = s.modes := rfl
  have hemit (ms : List Mode) (kind : TokenKind) :
      { s.extend tail with modes := ms }.emit kind 1 spaced =
        ({ s with modes := ms }.emit kind 1 spaced).extend tail :=
    emit_extend (s := { s with modes := ms }) h kind
  unfold scanClosingBrace
  rw [hmodes]
  split
  · exact hemit _ _
  · rw [hemit, expecting_extend]
  · rw [emit_extend h, expecting_extend]

/-- An operator, or what is read in its stead, is read alike in the longer text. -/
lemma orOperator_extend {reading : Option Scanner}
    (hoperator : (s.extend tail).scanOperator spaced = (s.scanOperator spaced).extend tail) :
    orOperator (reading.map (extend tail)) (s.extend tail) spaced =
      (orOperator reading s spaced).extend tail := by
  unfold orOperator
  cases reading with
  | none => exact hoperator
  | some t => rfl

/-- A reading that is made alike in the longer text or runs out, with an operator in its stead. -/
lemma orOperator_extend_or {reading reading' : Option Scanner}
    (hreading : reading' = reading.map (extend tail) ∨ ∃ s', reading = some s' ∧ RunsOut s s')
    (hoperator : (s.extend tail).scanOperator spaced = (s.scanOperator spaced).extend tail) :
    orOperator reading' (s.extend tail) spaced = (orOperator reading s spaced).extend tail ∨
      RunsOut s (orOperator reading s spaced) := by
  rcases hreading with rfl | ⟨s', rfl, hout⟩
  · exact .inl (orOperator_extend hoperator)
  · exact .inr hout

/-- A token is read alike in the longer text if it is closed, and if it opens a heredoc, the body of
that is the same. -/
theorem scanTokenAt_extend (hheld : Held tail s.cursor.rest)
    (hcontinued : s.cursor.rest.getLast? ≠ some '\\') (hat : s.cursor.rest = c :: cs)
    (hc : isInLine c = true) (hread : s.scanTokenAt nested spaced c = some s')
    (hheredoc : ∀ o spaced body, s.heredocOpener? = some o →
      s'.core = (s.spliceBody o spaced body).core → SameBody tail s o) :
    (s.extend tail).scanTokenAt nested spaced c = some (s'.extend tail) ∨ RunsOut s s' := by
  have hview : SameView s (s.extend tail) := sameView_extend hheld
  have hpos : 1 ≤ s.cursor.rest.length := by simp [hat]
  have hoperator : (s.extend tail).scanOperator spaced = (s.scanOperator spaced).extend tail :=
    (hview.scanOperator hat hc).extend
  have hvalue : (s.extend tail).valueExpected spaced = s.valueExpected spaced :=
    (hview.valueExpected hat hc).symm
  have hexpects : (s.extend tail).expects = s.expects := rfl
  have hopener : (s.extend tail).heredocOpener? = s.heredocOpener? :=
    heredocOpener?_append rfl rfl hheld
  have hcolons : (s.extend tail).cursor.startsWith "::".toList =
      s.cursor.startsWith "::".toList := by
    have hline : InLine "::".toList := by decide +kernel
    unfold Cursor.startsWith
    rw [← isPrefixOf_lineAhead hline, ← hview.line, isPrefixOf_lineAhead hline]
  unfold scanTokenAt at hread ⊢
  rw [hvalue, hexpects, hcolons, hopener]
  by_cases hdigit : isAsciiDigit c = true
  · simp only [hdigit, if_true, Option.some.injEq] at hread ⊢
    rw [← hread, hview.scanNumber.extend]
    exact .inl rfl
  by_cases hname : startsName c = true
  · simp only [hdigit, hname, Bool.false_eq_true, if_true, if_false, Option.some.injEq] at hread ⊢
    rw [← hread, hview.scanName.extend]
    exact .inl rfl
  simp only [hdigit, hname, Bool.false_eq_true, if_false] at hread ⊢
  split at hread
  · obtain rfl := Option.some.inj hread
    exact .inl (congrArg some (beginLiteral_extend hpos))
  · obtain rfl := Option.some.inj hread
    exact .inl (congrArg some (beginLiteral_extend hpos))
  · obtain rfl := Option.some.inj hread
    exact .inl (congrArg some (beginLiteral_extend hpos))
  · obtain rfl := Option.some.inj hread
    exact .inl (congrArg some (hview.scanSigil hat).extend)
  · obtain rfl := Option.some.inj hread
    exact .inl (congrArg some (hview.scanGlobal hat).extend)
  · split at hread
    · rename_i hcolon
      obtain rfl := Option.some.inj hread
      rw [if_pos hcolon, hoperator]
      exact .inl rfl
    · rename_i hcolon
      obtain rfl := Option.some.inj hread
      rw [if_neg hcolon]
      exact (orOperator_extend_or (scanSymbol?_extend hheld hat) hoperator).imp_left (congrArg some)
  · split at hread
    · rename_i hexpected
      obtain rfl := Option.some.inj hread
      rw [if_pos hexpected, scanCharacter?_extend hheld hcontinued hat, orOperator_extend hoperator]
      exact .inl rfl
    · rename_i hexpected
      obtain rfl := Option.some.inj hread
      rw [if_neg hexpected, hoperator]
      exact .inl rfl
  · split at hread
    · rename_i hexpected
      obtain rfl := Option.some.inj hread
      rw [if_pos hexpected]
      exact (orOperator_extend_or (scanPercent?_extend hheld hat) hoperator).imp_left (congrArg some)
    · rename_i hexpected
      obtain rfl := Option.some.inj hread
      rw [if_neg hexpected, hoperator]
      exact .inl rfl
  · split at hread
    · rename_i hexpected
      obtain rfl := Option.some.inj hread
      rw [if_pos hexpected]
      exact .inl (congrArg some (beginLiteral_extend hpos))
    · rename_i hexpected
      obtain rfl := Option.some.inj hread
      rw [if_neg hexpected, hoperator]
      exact .inl rfl
  · split at hread
    · rename_i o ho
      have hopens : s.heredocOpener? = some o := by
        split at ho
        · exact ho
        · simp at ho
      have hspliced := hread
      rw [scanHeredoc_eq_map] at hspliced
      obtain ⟨body, -, heq⟩ := Option.map_eq_some_iff.mp hspliced
      have hbody : SameBody tail s o := hheredoc o spaced body hopens (heq ▸ rfl)
      exact .inl (scanHeredoc_extend hbody hread)
    · obtain rfl := Option.some.inj hread
      exact .inl (congrArg some hoperator)
  · obtain rfl := Option.some.inj hread
    exact .inl (congrArg some (scanOpeningBrace_extend hpos))
  · obtain rfl := Option.some.inj hread
    exact .inl (congrArg some (scanClosingBrace_extend hpos))
  · obtain rfl := Option.some.inj hread
    exact .inl (congrArg some hoperator)

/-- A token or the name of an operator method is read alike in the longer text, if it is closed. -/
theorem scanToken_extend (hheld : Held tail s.cursor.rest)
    (hcontinued : s.cursor.rest.getLast? ≠ some '\\') (hat : s.cursor.rest = c :: cs)
    (hc : isInLine c = true) (hread : s.scanToken nested c = some s')
    (hheredoc : ∀ o spaced body, s.heredocOpener? = some o →
      s'.core = (s.spliceBody o spaced body).core → SameBody tail s o) :
    (s.extend tail).scanToken nested c = some (s'.extend tail) ∨ RunsOut s s' := by
  have hdefined : ({ s.extend tail with spaceSeen := false } : Scanner).definedOperator? =
      ({ s with spaceSeen := false } : Scanner).definedOperator? :=
    (sameView_extend (s := { s with spaceSeen := false }) hheld).definedOperator?.symm
  unfold scanToken at hread ⊢
  dsimp only at hread ⊢
  rw [hdefined]
  split at hread
  · rename_i n hn
    obtain rfl := Option.some.inj hread
    have hle := (SameView.definedOperator?_le hn).trans (lineAhead_isPrefix_self s.cursor.rest).length_le
    have hemit : (({ s with spaceSeen := false } : Scanner).extend tail).emit .identifier n
        s.spaceSeen =
          (({ s with spaceSeen := false } : Scanner).emit .identifier n s.spaceSeen).extend tail :=
      emit_extend (s := { s with spaceSeen := false }) hle .identifier
    exact .inl (congrArg some (congrArg (fun t : Scanner =>
      { t with definingName := false, expects := .argument }) hemit))
  · have hbody (o : HeredocOpener) (spaced : Bool) (body : Scanner) (ho : s.heredocOpener? = some o)
        (heq : s'.core = (({ s with spaceSeen := false } : Scanner).spliceBody o spaced body).core) :
        SameBody tail { s with spaceSeen := false } o := by
      obtain ⟨hle, hstart, hrange⟩ := hheredoc o spaced body ho heq
      exact ⟨hle, hstart, hrange⟩
    exact (scanTokenAt_extend (s := { s with spaceSeen := false }) hheld hcontinued hat hc hread
      hbody).imp_right fun hout => ⟨hout.rest, hout.modes, hout.faults⟩

/-- A character that begins nothing between tokens is one of the line. -/
lemma isInLine_of_skipTrivia?_eq_none (hat : s.cursor.rest = c :: cs) (h : s.skipTrivia? = none) :
    isInLine c = true := by
  by_contra hc
  have hbreak : c = '\n' ∨ c = '\r' := by
    by_contra hne
    push Not at hne
    simp [isInLine, hne] at hc
  unfold skipTrivia? at h
  rw [hat] at h
  rcases hbreak with rfl | rfl
  all_goals split at h <;> simp at h

/-- Whether the program ends at whole lines is seen in them. -/
lemma atEndMarker_append (hlines : WholeLines cs) (hne : cs ≠ []) :
    atEndMarker (cs ++ tail) = atEndMarker cs := by
  have hheld := hlines.held hne tail
  have hmark : InLine "__END__".toList := by decide +kernel
  have hbegins : "__END__".toList.isPrefixOf (cs ++ tail) = "__END__".toList.isPrefixOf cs := by
    rw [← isPrefixOf_lineAhead hmark, lineAhead_append hheld, isPrefixOf_lineAhead hmark]
  unfold atEndMarker
  rw [hbegins]
  by_cases hstarts : "__END__".toList.isPrefixOf cs = true
  · obtain ⟨ds, rfl⟩ := List.isPrefixOf_iff_prefix.mp hstarts
    have hdrop (es : List Char) : ("__END__".toList ++ es).drop 7 = es := rfl
    have hds : WholeLines ds := by
      have := hlines.drop 7
      rwa [hdrop] at this
    have hne : ds ≠ [] := by
      rintro rfl
      exact absurd (hlines '_' rfl) (by decide)
    obtain ⟨d, ds, rfl⟩ := List.exists_cons_of_ne_nil hne
    rw [List.append_assoc, hdrop, hdrop]
    congr 1
    cases ds with
    | nil => rw [hds.eq_of_cons rfl]; rfl
    | cons e es =>
      by_cases hd : d = '\r'
      · subst hd
        by_cases he : e = '\n'
        · subst he
          rfl
        · simp [he]
      · by_cases hd' : d = '\n'
        · subst hd'
          rfl
        · simp [hd, hd']
  · rw [Bool.not_eq_true] at hstarts
    rw [hstarts, Bool.false_and, Bool.false_and]

/-- The result of a step in the text with something behind it. -/
def Step.extend (tail : List Char) : Step → Step
  | more s => .more (s.extend tail)
  | done s => .done (s.extend tail)

/-- A step in code that finds no fault before the text runs out is made alike in the longer text. -/
theorem step_extend_of_code (htail : Apart tail) (hs : SeesLines s) (hcode : s.InCode)
    (hne : s.cursor.rest ≠ []) {r : Step} (hstep : s.step nested = some r)
    (hfaults : r.scanner.faults = []) : (s.extend tail).step nested = some (r.extend tail) := by
  obtain ⟨d, outer, hmodes⟩ := hcode
  have hmodes' : (s.extend tail).modes = .code d :: outer := hmodes
  have hmarker : atEndMarker (s.extend tail).cursor.rest = atEndMarker s.cursor.rest :=
    atEndMarker_append hs.cursor hne
  unfold step at hstep ⊢
  rw [hmodes] at hstep
  rw [hmodes', atTopLine_extend, hmarker]
  dsimp only at hstep ⊢
  by_cases hend : (s.atTopLine && atEndMarker s.cursor.rest) = true
  · rw [if_pos hend] at hstep ⊢
    obtain rfl := Option.some.inj hstep
    rfl
  rw [if_neg hend] at hstep ⊢
  have hskip : (s.extend tail).skipTrivia? = s.skipTrivia?.map (Scanner.extend tail) := by
    refine skipTrivia?_extend htail hs hne fun s' hs' => ?_
    rw [hs'] at hstep
    obtain rfl := Option.some.inj hstep
    exact hfaults
  rw [hskip]
  cases htrivia : s.skipTrivia? with
  | some s' =>
    rw [htrivia] at hstep
    obtain rfl := Option.some.inj hstep
    rfl
  | none =>
    obtain ⟨c, cs, hat⟩ := List.exists_cons_of_ne_nil hne
    have hat' : (s.extend tail).cursor.rest = c :: (cs ++ tail) := by
      rw [cursor_extend, Cursor.rest_extend, hat, List.cons_append]
    simp only [htrivia, hat] at hstep
    simp only [Option.map_none, hat']
    obtain ⟨s', hread, rfl⟩ := Option.map_eq_some_iff.mp hstep
    have hcontinued : s.cursor.rest.getLast? ≠ some '\\' := by
      intro hlast
      exact absurd (hs.cursor _ hlast) (by decide)
    rcases scanToken_extend (hs.cursor.held hne tail) hcontinued hat
      (isInLine_of_skipTrivia?_eq_none hat htrivia) hread
      fun o spaced body ho heq => sameBody_of_lines hs ho heq hfaults with hextend | hout
    · rw [hextend]
      rfl
    · exact absurd hfaults hout.faults_ne_nil

end Step

end Scanner

end RubyCheck
