import RubyCheck.Proofs.Scanner.Guide
import RubyCheck.Proofs.Scanner.Snapshot

/-!
# What one step of the scanner can do

A step of the scanner is one of a few moves, up to what only guides the scanner: it goes forward
over a blank, a token or a delimiter (`Forward`), after a stretch of content if it stands inside a
literal (`Content`); or the text runs out and it goes back to an opener (`Rewind`) or closes
everything that is open (`Closes`).  Each function of the scanner is shown to be such a move once,
and `step_more` and `step_done` put them together.  Everything that is proved of the scanner later
looks at the moves only.
-/

namespace RubyCheck

namespace Scanner

open Text

/-! ### Moves -/

/-- A move of the scanner that reads on: in code over a blank or a token, inside a literal over a
delimiter.  The scanner after the move is given up to what only guides it. -/
inductive Forward (nested : Scanner → Option Scanner) (s s' : Scanner) : Prop
  /-- A blank, a line break that ends no statement, a continued line or a comment is passed over. -/
  | blank (n : ℕ) (code : s.InCode) (piece : Blank s.cursor.rest n)
      (core_eq : s'.core = (s.skip n).core)
      (unheld : s.cursor.rest.head? = some '\n' → s.resume = none)
  /-- An embedded document is passed over. -/
  | document (n : ℕ) (code : s.InCode) (top : s.atTopLine = true)
      (word : atWord "=begin".toList s.cursor.rest = true)
      (ended : documentEnd 0 s.cursor.rest = (n, true)) (core_eq : s'.core = (s.skip n).core)
  /-- Characters are passed over with a fault. -/
  | stray (cause : Fault.Cause) (n : ℕ) (code : s.InCode) (pos : 0 < n) (ahead : s.cursor.rest ≠ [])
      (core_eq : s'.core = ((s.complain cause (s.spanOf n)).skip n).core)
      (words : cause.Lexical)
      (within : s.atTopLine = true ∨ '\n' ∉ s.cursor.rest.take n)
  /-- A token of code is read. -/
  | token (ms : List Mode) (kind : TokenKind) (n : ℕ) (spaced : Bool) (code : s.InCode)
      (layers : SameLayers s.modes ms) (plain : kind.isPlain = true) (pos : 0 < n)
      (ahead : s.cursor.rest ≠ [])
      (core_eq : s'.core = ({ s with modes := ms }.emit kind n spaced).core)
      (spelled : Token.Spelled ⟨kind, s.textOf n, s.spanOf n, spaced, false⟩)
      (whole : Token.Whole ⟨kind, s.textOf n, s.spanOf n, spaced, false⟩)
      (unheld : kind = .newline → s.resume = none)
  /-- A token of code is read with a fault. -/
  | faulty (cause : Fault.Cause) (k : ℕ) (kind : TokenKind) (n : ℕ) (spaced : Bool)
      (code : s.InCode)
      (plain : kind.isPlain = true) (pos : 0 < n) (ahead : s.cursor.rest ≠ [])
      (core_eq : s'.core = ((s.complain cause (s.spanOf k)).emit kind n spaced).core)
      (spelled : Token.Spelled ⟨kind, s.textOf n, s.spanOf n, spaced, false⟩)
      (words : cause.Lexical) (going : kind ≠ .newline)
  /-- A line break is read, and reading goes on behind the bodies of heredocs. -/
  | jump (t : Scanner) (resume : Cursor) (rest : List Char) (code : s.InCode)
      (lineBreak : s.cursor.rest = '\n' :: rest)
      (read : t = s.emit .newline 1 false ∨ t = s.skip 1) (pending : s.resume = some resume)
      (core_eq : s'.core = { t with cursor := resume, resume := none }.core)
  /-- A heredoc is read, its body by another scanner. -/
  | heredoc (o : HeredocOpener) (spaced : Bool) (body : Scanner) (code : s.InCode)
      (opener : s.heredocOpener? = some o) (read : nested (s.bodyScanner o) = some body)
      (core_eq : s'.core = (s.spliceBody o spaced body).core)
  /-- A literal opens. -/
  | begin (o : Opening) (spaced : Bool) (code : s.InCode) (pos : 0 < o.width)
      (ahead : s.cursor.rest ≠ [])
      (core_eq : s'.core = (s.beginLiteral o spaced).core)
  /-- A closing brace ends the code inside a literal. -/
  | endInterpolation (spaced : Bool) (mode : Mode) (outer : List Mode) (rest : List Char)
      (modes : s.modes = .code 0 :: mode :: outer) (brace : s.cursor.rest = '\x7d' :: rest)
      (core_eq : s'.core = ({ s with modes := mode :: outer }.emit .interpolationEnd 1 spaced).core)
  /-- Code begins inside a literal. -/
  | beginInterpolation (l : OpenLiteral) (outer : List Mode) (modes : s.modes = .literal l :: outer)
      (stop : StopsAt l .interpolation s.cursor.rest)
      (core_eq : s'.core = s.beginInterpolation.core)
  /-- A line break ends a single-line literal. -/
  | abandon (l : OpenLiteral) (outer : List Mode) (modes : s.modes = .literal l :: outer)
      (stop : StopsAt l .lineBreak s.cursor.rest)
      (core_eq : s'.core = (s.abandonLiteral l outer).core)
  /-- A literal ends at its delimiter. -/
  | close (l : OpenLiteral) (outer : List Mode) (modes : s.modes = .literal l :: outer)
      (stop : StopsAt l .delimiter s.cursor.rest)
      (core_eq : s'.core = (s.closeLiteral l outer).core)
  /-- The body of a heredoc ends with its range. -/
  | endBody (l : OpenLiteral) (outer : List Mode) (modes : s.modes = .literal l :: outer)
      (open_ : l.close = none) (stop : s.cursor.rest = [])
      (core_eq : s'.core = { s with modes := outer }.core)

/-- In code a move forward reads something. -/
lemma Forward.ahead {nested : Scanner → Option Scanner} {s s' : Scanner} (h : Forward nested s s')
    (hcode : s.InCode) : s.cursor.rest ≠ [] := by
  obtain ⟨d, ms, hmodes⟩ := hcode
  cases h with
  | blank n code piece => exact piece.pos.2
  | document n code top word => exact ne_nil_of_atWord (by decide) word
  | stray cause n code pos ahead => exact ahead
  | token ms kind n spaced code layers plain pos ahead => exact ahead
  | faulty cause k kind n spaced code plain pos ahead => exact ahead
  | jump t resume rest code lineBreak => simp [lineBreak]
  | heredoc o spaced body code opener =>
    obtain ⟨⟨after, hrest⟩, -⟩ := rest_of_heredocOpener? opener
    simp [hrest]
  | begin o spaced code pos ahead => exact ahead
  | endInterpolation spaced mode outer rest modes brace => simp [brace]
  | beginInterpolation l outer modes => simp [hmodes] at modes
  | abandon l outer modes => simp [hmodes] at modes
  | close l outer modes => simp [hmodes] at modes
  | endBody l outer modes => simp [hmodes] at modes

/-- The innermost literal is read up to the next place where something else begins. -/
inductive Content (s t : Scanner) : Prop
  | intro (l l' : OpenLiteral) (outer : List Mode) (stop : ContentEnd) (n : ℕ)
      (modes : s.modes = .literal l :: outer) (ends : contentEnd l 0 s.cursor.rest = (stop, n, l'))
      (eq : t = { s with modes := .literal l' :: outer }.emitContent n)

/-- The text has run out and the scanner goes back to an opener. -/
inductive Rewind (s s' : Scanner) : Prop
  | intro (c : Checkpoint) (outermost : s.inBody = false) (stop : s.cursor.rest = [])
      (target : s.rewindTarget? = some c) (eq : s' = (s.endOnItsLine c.opener).restore c)

/-- The text has run out and everything that is open is closed. -/
inductive Closes (s s' : Scanner) : Prop
  | intro (t : Scanner) (stop : s.cursor.rest = []) (deep : 2 ≤ s.modes.length)
      (forget : t = s ∧ s.inBody = true ∨
        t = { s with lastMultiline := none } ∧ s.rewindTarget? = none)
      (core_eq : s'.core = (closeModes s.modes t).core)

/-! ### Tokens of code -/

section Code

variable {nested : Scanner → Option Scanner} {s s' : Scanner} {spaced : Bool}

lemma core_beginLiteral_spaceSeen (o : Opening) (b : Bool) :
    (({ s with spaceSeen := b } : Scanner).beginLiteral o spaced).core =
      (s.beginLiteral o spaced).core := by
  have hcheckpoint : ({ s with spaceSeen := b } : Scanner).checkpoint spaced =
      s.checkpoint spaced := rfl
  simp only [beginLiteral, endOnItsLine, hcheckpoint]
  split_ifs <;> rfl

/-- Whether a blank was seen only guides the scanner in code. -/
lemma Forward.of_spaceSeen {b : Bool} (hcode : s.InCode)
    (h : Forward nested { s with spaceSeen := b } s') : Forward nested s s' := by
  obtain ⟨d, ms, hmodes⟩ := hcode
  cases h with
  | blank n code piece core_eq unheld => exact .blank n code piece core_eq unheld
  | document n code top word ended core_eq => exact .document n code top word ended core_eq
  | stray cause n code pos ahead core_eq words within =>
    exact .stray cause n code pos ahead core_eq words within
  | token ms kind n spaced code layers plain pos ahead core_eq spelled whole unheld =>
    exact .token ms kind n spaced code layers plain pos ahead core_eq spelled whole unheld
  | faulty cause k kind n spaced code plain pos ahead core_eq spelled words going =>
    exact .faulty cause k kind n spaced code plain pos ahead core_eq spelled words going
  | jump t resume rest code lineBreak read pending core_eq =>
    rcases read with rfl | rfl
    · exact .jump _ resume rest code lineBreak (.inl rfl) pending core_eq
    · exact .jump _ resume rest code lineBreak (.inr rfl) pending core_eq
  | heredoc o spaced body code opener read core_eq =>
    exact .heredoc o spaced body code opener read core_eq
  | begin o spaced code pos ahead core_eq =>
    exact .begin o spaced code pos ahead (core_eq.trans (core_beginLiteral_spaceSeen o b))
  | endInterpolation spaced mode outer rest modes brace core_eq =>
    exact .endInterpolation spaced mode outer rest modes brace core_eq
  | beginInterpolation l outer modes => simp [hmodes] at modes
  | abandon l outer modes => simp [hmodes] at modes
  | close l outer modes => simp [hmodes] at modes
  | endBody l outer modes => simp [hmodes] at modes

/-- How a token of code is read, up to what only guides the scanner. -/
theorem Lexes.forward (hcode : s.InCode) (hrest : s.cursor.rest ≠ [])
    (hgoing : s.cursor.rest.head? ≠ some '\n') (h : Lexes nested s spaced s') : Forward nested s s' := by
  cases h with
  | opens o opening eq => exact .begin o spaced hcode (width_pos_of_opening? opening) hrest (eq ▸ rfl)
  | heredoc o body expected opener read eq =>
    exact .heredoc o spaced body hcode opener read (eq ▸ rfl)
  | stray cause n pos eq words within =>
    exact .stray cause n hcode pos hrest (eq ▸ rfl) (words hgoing) (.inr (within hgoing))
  | token t guided =>
    cases guided.takes with
    | code n faults modes pos is plain going kept eq =>
      have hspelled := guided.spelled
      have hwhole := guided.whole
      rw [is] at eq hspelled hwhole
      rcases kept with ⟨rfl, hlayers⟩ | ⟨⟨cause, k, words, rfl⟩, rfl⟩
      · exact .token modes t.kind n t.spaced hcode hlayers plain pos hrest (congrArg core eq :)
          hspelled (hwhole (congrArg Scanner.faults eq :)) (absurd · going)
      · exact .faulty cause k t.kind n t.spaced hcode plain pos hrest (congrArg core eq :) hspelled
          (words hgoing) going
    | brace mode outer rest modes ahead is eq =>
      rw [is] at eq
      exact .endInterpolation t.spaced mode outer rest modes ahead (congrArg core eq :)

/-- How what stands between tokens is read, up to what only guides the scanner. -/
theorem Passes.forward (hcode : s.InCode) (h : Passes s s') : Forward nested s s' := by
  cases h with
  | blank n piece eq going => exact .blank n hcode piece (eq ▸ rfl) (absurd · going)
  | document n top word ended eq => exact .document n hcode top word ended (eq ▸ rfl)
  | stray cause n pos ahead eq words top =>
    exact .stray cause n hcode pos ahead (eq ▸ rfl) words (.inl top)
  | lineBreak rest tokens e ahead read eq =>
    have hne : s.cursor.rest ≠ [] := by simp [ahead]
    cases hresume : s.resume with
    | none =>
      rw [hresume, Option.getD_none] at eq
      rcases read with ⟨rfl, rfl⟩ | ⟨rfl, rfl⟩
      · exact .blank 1 hcode (ahead ▸ .space (by simp) rest)
          ((congrArg core eq).trans (by simp [core, skip, hresume])) fun _ => hresume
      · exact .token s.modes .newline 1 false hcode (.refl _) rfl Nat.one_pos hne
          ((congrArg core eq).trans (by simp [core, emit, emitFlagged, hresume, textOf, spanOf]))
          (by simp [Token.Spelled]) (Token.whole_of_ne (by simp)) fun _ => hresume
    | some r =>
      rw [hresume, Option.getD_some] at eq
      rcases read with ⟨rfl, rfl⟩ | ⟨rfl, rfl⟩
      · exact .jump _ r rest hcode ahead (.inr rfl) hresume (congrArg core eq :)
      · exact .jump _ r rest hcode ahead (.inl rfl) hresume (congrArg core eq :)

/-- A token is found unless the body of a heredoc cannot be read. -/
lemma scanToken_isSome (c : Char)
    (h : ∀ o, s.heredocOpener? = some o → (nested (s.bodyScanner o)).isSome = true) :
    (s.scanToken nested c).isSome = true := by
  unfold scanToken
  dsimp only
  split
  · rfl
  · unfold scanTokenAt
    split
    · rfl
    split
    · rfl
    split
    case h_10 =>
      split
      · rename_i o ho
        rw [scanHeredoc_eq_map, Option.isSome_map]
        split at ho
        · exact h o ho
        · simp at ho
      · rfl
    all_goals first | rfl | (split <;> rfl)

end Code

/-! ### The end of the text -/

section Step

variable {nested : Scanner → Option Scanner} {s s' : Scanner}

lemma endOfText_cases (hrest : s.cursor.rest = []) (hne : s.modes ≠ []) :
    s.endOfText = .done s ∧ s.modes.length = 1 ∨
      (∃ s', s.endOfText = .done s' ∧ Closes s s') ∨
      ∃ s', s.endOfText = .more s' ∧ Rewind s s' := by
  match hmodes : s.modes with
  | [] => exact absurd hmodes hne
  | [_] => exact .inl ⟨by unfold endOfText; rw [hmodes], rfl⟩
  | m :: m' :: outer =>
    have hdeep : 2 ≤ s.modes.length := by simp [hmodes]
    right
    unfold endOfText
    rw [hmodes]
    dsimp only
    split
    · rename_i hbody
      exact .inl ⟨_, rfl, s, hrest, hdeep, .inl ⟨rfl, hbody⟩, by rw [hmodes]; rfl⟩
    · rename_i hbody
      cases htarget : s.rewindTarget? with
      | none => exact .inl ⟨_, rfl, _, hrest, hdeep, .inr ⟨rfl, htarget⟩, by rw [hmodes]; rfl⟩
      | some c => exact .inr ⟨_, rfl, c, Bool.eq_false_iff.mpr hbody, hrest, htarget, rfl⟩

/-! ### Inside a literal -/

lemma modes_emitContent (n : ℕ) : (s.emitContent n).modes = s.modes := by
  unfold emitContent
  split <;> rfl

/-- Where a stretch of content ends, the literal that holds it is innermost. -/
lemma Content.modes_eq {t : Scanner} (h : Content s t) :
    ∃ l l' outer, s.modes = .literal l :: outer ∧ t.modes = .literal l' :: outer ∧
      l.SameOpening l' := by
  obtain ⟨l, l', outer, stop, n, hmodes, hends, rfl⟩ := h
  obtain ⟨_, -, -, -, hl⟩ := contentEnd_spec hends
  exact ⟨l, l', outer, hmodes, modes_emitContent n, hl⟩

/-- A stretch of content is read whole, up to what only guides the scanner. -/
lemma cursor_emitContent (n : ℕ) : (s.emitContent n).cursor = Cursor.advanceBy n s.cursor := by
  unfold emitContent
  split
  · rename_i hn
    rw [show n = 0 by simpa using hn, Cursor.advanceBy_zero]
  · rfl

/-- How reading goes on behind a stretch of content. -/
inductive Continues (t s' : Scanner) (l : OpenLiteral) (outer : List Mode) : Prop
  | enters (stop : StopsAt l .interpolation t.cursor.rest) (eq : s' = t.beginInterpolation)
  | abandons (stop : StopsAt l .lineBreak t.cursor.rest) (eq : s' = t.abandonLiteral l outer)
  | closes (stop : StopsAt l .delimiter t.cursor.rest) (eq : s' = t.closeLiteral l outer)
  | endsBody (unclosed : l.close = none) (stop : t.cursor.rest = [])
      (eq : s' = { t with modes := outer })
  | rewinds (move : Rewind t s')
  | ends (move : Closes t s')

/-- Inside a literal a stretch of content is read, and reading goes on behind it. -/
theorem continues_scanContent {l : OpenLiteral} {outer : List Mode} (halt : Alternates s.modes)
    (hmodes : s.modes = .literal l :: outer) :
    ∃ stop n l', contentEnd l 0 s.cursor.rest = (stop, n, l') ∧
      Continues ({ s with modes := .literal l' :: outer }.emitContent n) (s.scanContent l outer)
        l' outer := by
  obtain ⟨stop, n, l', hends⟩ : ∃ stop n l', contentEnd l 0 s.cursor.rest = (stop, n, l') :=
    ⟨_, _, _, rfl⟩
  refine ⟨stop, n, l', hends, ?_⟩
  obtain ⟨k, hk, -, hstop, -⟩ := contentEnd_spec hends
  obtain rfl : n = k := by omega
  generalize ht : { s with modes := .literal l' :: outer }.emitContent n = t
  have hmodes' : t.modes = .literal l' :: outer := by
    rw [← ht, modes_emitContent]
  have hrest : t.cursor.rest = s.cursor.rest.drop n := by
    rw [← ht, cursor_emitContent, Cursor.rest_advanceBy]
  rw [← hrest] at hstop
  unfold scanContent
  rw [hends]
  dsimp only
  rw [ht]
  cases stop with
  | endOfText =>
    have hend : t.cursor.rest = [] := by
      generalize t.cursor.rest = rest at hstop
      cases hstop
      rfl
    dsimp only
    split
    · rename_i hclose
      exact .endsBody (by simpa using hclose) hend rfl
    · obtain ⟨d, outer', rfl⟩ := (hmodes ▸ halt).of_literal
      rcases endOfText_cases hend (by simp [hmodes']) with
        ⟨-, hlength⟩ | ⟨s', hdone, hcloses⟩ | ⟨s', hmore, hrewind⟩
      · simp [hmodes'] at hlength
      · rw [hdone]
        exact .ends hcloses
      · rw [hmore]
        exact .rewinds hrewind
  | interpolation => exact .enters hstop rfl
  | lineBreak => exact .abandons hstop rfl
  | delimiter => exact .closes hstop rfl

/-! ### One step -/

lemma Alternates.inCode_or_literal (h : Alternates s.modes) :
    s.InCode ∨ ∃ l outer, s.modes = .literal l :: outer := by
  unfold InCode
  generalize s.modes = ms at h
  cases h with
  | outermost d => exact .inl ⟨d, [], rfl⟩
  | literal l d outer _ => exact .inr ⟨l, _, rfl⟩
  | code d l outer _ => exact .inl ⟨d, _, rfl⟩

/-- What a step does that is not the last one. -/
inductive Advances (nested : Scanner → Option Scanner) (s s' : Scanner) : Prop
  /-- In code, what stands between tokens is passed over. -/
  | passes (code : s.InCode) (how : Passes s s')
  /-- In code, a token is read. -/
  | lexes (code : s.InCode) (ahead : s.cursor.rest ≠ []) (going : s.cursor.rest.head? ≠ some '\n')
      (how : Lexes nested { s with spaceSeen := false } s.spaceSeen s')
  /-- In code, the text runs out. -/
  | returns (how : Rewind s s')
  /-- In a literal, reading goes on behind a stretch of content. -/
  | continues (l l' : OpenLiteral) (outer : List Mode) (stop : ContentEnd) (n : ℕ)
      (modes : s.modes = .literal l :: outer) (ends : contentEnd l 0 s.cursor.rest = (stop, n, l'))
      (how : Continues ({ s with modes := .literal l' :: outer }.emitContent n) s' l' outer)

theorem advances_of_step (halt : Alternates s.modes) (h : s.step nested = some (.more s')) :
    Advances nested s s' := by
  unfold step at h
  rcases halt.inCode_or_literal with hcode | ⟨l, outer, hmodes⟩
  · obtain ⟨d, outer, hmodes⟩ := id hcode
    rw [hmodes] at h
    dsimp only at h
    split at h
    · simp at h
    split at h
    · rename_i t ht
      simp only [Option.some.injEq, Step.more.injEq] at h
      exact .passes hcode (h ▸ passes_skipTrivia? ht)
    rename_i hnone
    split at h
    · rename_i hrest
      rcases endOfText_cases hrest (by simp [hmodes]) with
        ⟨hdone, -⟩ | ⟨t, hdone, -⟩ | ⟨t, hmore, hrewind⟩
      · simp [hdone] at h
      · simp [hdone] at h
      · simp only [hmore, Option.some.injEq, Step.more.injEq] at h
        exact .returns (h ▸ hrewind)
    · rename_i c cs hrest
      obtain ⟨t, ht, hts⟩ := Option.map_eq_some_iff.mp h
      simp only [Step.more.injEq] at hts
      exact .lexes hcode (by simp [hrest]) (going_of_skipTrivia? hnone)
        (hts ▸ lexes_scanToken hcode hrest ht)
  · rw [hmodes] at h
    simp only [Option.some.injEq, Step.more.injEq] at h
    obtain ⟨stop, n, l', hends, hgoes⟩ := continues_scanContent halt hmodes
    exact .continues l l' outer stop n hmodes hends (h ▸ hgoes)

/-- How reading goes on behind a stretch of content, up to what only guides the scanner. -/
lemma Continues.move {t : Scanner} {l : OpenLiteral} {outer : List Mode}
    (hmodes : t.modes = .literal l :: outer) (h : Continues t s' l outer) :
    Forward nested t s' ∨ Rewind t s' ∨ Closes t s' := by
  cases h with
  | enters stop eq => exact .inl (.beginInterpolation l outer hmodes stop (eq ▸ rfl))
  | abandons stop eq => exact .inl (.abandon l outer hmodes stop (eq ▸ rfl))
  | closes stop eq => exact .inl (.close l outer hmodes stop (eq ▸ rfl))
  | endsBody unclosed stop eq => exact .inl (.endBody l outer hmodes unclosed stop (eq ▸ rfl))
  | rewinds move => exact .inr (.inl move)
  | ends move => exact .inr (.inr move)

/-- What a step does that is not the last one, up to what only guides the scanner. -/
theorem step_more (halt : Alternates s.modes) (h : s.step nested = some (.more s')) :
    ∃ t, (t = s ∨ Content s t) ∧ (Forward nested t s' ∨ Rewind t s') ∨
      Content s t ∧ Closes t s' := by
  cases advances_of_step halt h with
  | passes code how => exact ⟨s, .inl ⟨.inl rfl, .inl (how.forward code)⟩⟩
  | lexes code ahead going how =>
    have hforward : Forward nested { s with spaceSeen := false } s' := how.forward code ahead going
    exact ⟨s, .inl ⟨.inl rfl, .inl (.of_spaceSeen code hforward)⟩⟩
  | returns how => exact ⟨s, .inl ⟨.inl rfl, .inr how⟩⟩
  | continues l l' outer stop n modes ends how =>
    have hcontent : Content s ({ s with modes := .literal l' :: outer }.emitContent n) :=
      ⟨l, l', outer, stop, n, modes, ends, rfl⟩
    rcases how.move (modes_emitContent n) with hforward | hrewind | hcloses
    · exact ⟨_, .inl ⟨.inr hcontent, .inl hforward⟩⟩
    · exact ⟨_, .inl ⟨.inr hcontent, .inr hrewind⟩⟩
    · exact ⟨_, .inr ⟨hcontent, hcloses⟩⟩

/-- The scanner stands at the end of what it may read: where the text runs out, or at the line that
ends the program. -/
def AtEnd (s : Scanner) : Prop :=
  s.cursor.rest = [] ∨
    s.inBody = false ∧ s.cursor.atLineStart = true ∧ atEndMarker s.cursor.rest = true

/-- What the last step does. -/
theorem step_done (halt : Alternates s.modes) (h : s.step nested = some (.done s')) :
    s' = s ∧ s.modes.length = 1 ∧ s.AtEnd ∨ Closes s s' := by
  unfold step at h
  rcases halt.inCode_or_literal with ⟨d, outer, hmodes⟩ | ⟨l, outer, hmodes⟩
  · rw [hmodes] at h
    dsimp only at h
    split at h
    · rename_i hmarker
      simp only [Option.some.injEq, Step.done.injEq] at h
      simp only [atTopLine, hmodes, List.tail_cons, Bool.and_eq_true, List.isEmpty_iff,
        Bool.not_eq_true'] at hmarker
      obtain ⟨⟨⟨hline, rfl⟩, hbody⟩, hmarker⟩ := hmarker
      exact .inl ⟨h.symm, by simp [hmodes], .inr ⟨hbody, hline, hmarker⟩⟩
    split at h
    · simp at h
    split at h
    · rename_i hrest
      rcases endOfText_cases hrest (by simp [hmodes]) with
        ⟨hdone, hlength⟩ | ⟨t, hdone, hcloses⟩ | ⟨t, hmore, -⟩
      · simp only [hdone, Option.some.injEq, Step.done.injEq] at h
        exact .inl ⟨h.symm, hlength, .inl hrest⟩
      · simp only [hdone, Option.some.injEq, Step.done.injEq] at h
        exact .inr (h ▸ hcloses)
      · simp [hmore] at h
    · obtain ⟨t, -, ht⟩ := Option.map_eq_some_iff.mp h
      simp at ht
  · rw [hmodes] at h
    simp at h

/-- A step succeeds unless the body of a heredoc cannot be read. -/
theorem step_isSome
    (h : ∀ o, s.InCode → s.heredocOpener? = some o → (nested (s.bodyScanner o)).isSome = true)
    (halt : Alternates s.modes) : (s.step nested).isSome = true := by
  unfold step
  rcases halt.inCode_or_literal with hcode | ⟨l, outer, hmodes⟩
  · obtain ⟨d, outer, hmodes⟩ := id hcode
    rw [hmodes]
    dsimp only
    split
    · rfl
    split
    · rfl
    split
    · rfl
    · rw [Option.isSome_map]
      exact scanToken_isSome _ fun o ho => h o hcode ho
  · rw [hmodes]
    rfl

end Step

end Scanner

end RubyCheck
