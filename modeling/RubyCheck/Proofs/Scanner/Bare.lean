import RubyCheck.Proofs.Scanner.Stroke

/-!
# Code without literals

Where a text has none of the characters that open a literal, reading never leaves the outermost code:
it goes from blank to token, and every token is read within its line.  Two scanners that stand before
the same line there, and are guided alike, read the same token, whatever was read before
(`SameView.scanToken_of_bare`).
-/

namespace RubyCheck.Scanner

open Text

/-! ### Bare texts -/

/-- The characters that open a literal on their own. -/
def literalOpeners : List Char := ['"', '\'', '\x60', '%', '/', '?']

/-- A text in which no literal and no heredoc can begin. -/
structure Bare (cs : List Char) : Prop where
  opener : ∀ c ∈ literalOpeners, c ∉ cs
  heredoc : ¬ "<<".toList <:+: cs

instance (cs : List Char) : Decidable (Bare cs) :=
  haveI : Decidable (∀ c ∈ literalOpeners, c ∉ cs) := List.decidableBAll _ _
  decidable_of_iff ((∀ c ∈ literalOpeners, c ∉ cs) ∧ ¬ "<<".toList <:+: cs)
    ⟨fun h => ⟨h.1, h.2⟩, fun h => ⟨h.opener, h.heredoc⟩⟩

variable {cs : List Char} {c : Char}

lemma Bare.of_part {ds : List Char} (h : Bare ds) (hcs : cs <:+: ds) : Bare cs :=
  ⟨fun c hc hmem => h.opener c hc (hcs.subset hmem), fun hopener => h.heredoc (hopener.trans hcs)⟩

/-- The next character is none that opens a literal. -/
lemma Bare.head?_ne (h : Bare cs) {d : Char} (hd : d ∈ literalOpeners) : cs.head? ≠ some d :=
  fun hhead => h.opener d hd (List.mem_of_head? hhead)

lemma Bare.not_mem (h : Bare (c :: cs)) : c ∉ literalOpeners := fun hc => h.opener c hc List.mem_cons_self

/-- No heredoc begins where no two angle brackets stand. -/
lemma heredocOpener?_eq_none {s : Scanner} (h : "<<".toList.isPrefixOf s.cursor.rest = false) :
    s.heredocOpener? = none := by
  unfold heredocOpener?
  split
  · rename_i hrest
    simp [hrest] at h
  · rfl

/-- Where no heredoc begins, no body of one is read. -/
lemma scanToken_congr {s : Scanner} (h : "<<".toList.isPrefixOf s.cursor.rest = false)
    (nested nested' : Scanner → Option Scanner) : s.scanToken nested c = s.scanToken nested' c := by
  have hopener : ({ s with spaceSeen := false } : Scanner).heredocOpener? = none :=
    heredocOpener?_eq_none h
  unfold scanToken scanTokenAt
  simp only [hopener, ite_self]

/-! ### The outermost code -/

/-- A scanner that reads code around which nothing is open. -/
structure Outermost (s : Scanner) : Prop where
  modes : ∃ depth, s.modes = [.code depth]
  inBody : s.inBody = false
  resume : s.resume = none

lemma outermost_ofText (source : List Char) : (ofText source).Outermost := ⟨⟨0, rfl⟩, rfl, rfl⟩

section Outermost

variable {s : Scanner}

/-- A step in code around which nothing is open. -/
lemma step_eq (h : ∃ depth, s.modes = [.code depth]) (nested : Scanner → Option Scanner) :
    s.step nested =
    if s.atTopLine && atEndMarker s.cursor.rest then some (.done s)
    else match s.skipTrivia? with
      | some s' => some (.more s')
      | none =>
        match s.cursor.rest with
        | [] => some (.done s)
        | c :: _ => (s.scanToken nested c).map .more := by
  obtain ⟨depth, hmodes⟩ := h
  cases s
  cases hmodes
  rfl

lemma Outermost.atTopLine_eq (h : s.Outermost) : s.atTopLine = s.cursor.atLineStart := by
  obtain ⟨depth, hmodes⟩ := h.modes
  unfold atTopLine
  rw [hmodes, h.inBody]
  simp

/-- Whether an embedded document begins at the cursor. -/
def atDocument (s : Scanner) : Bool := s.atTopLine && atWord "=begin".toList s.cursor.rest

/-- The blanks that stand between tokens within a line. -/
def lineBlanks : List Char := [' ', '\t', '\x0b', '\x0c']

lemma skipTrivia?_document (h : s.atDocument = true) : s.skipTrivia? = some s.skipDocument := by
  unfold skipTrivia?
  exact if_pos h

lemma atDocument_of_head {d : Char} (hd : d ≠ '=') (h : s.cursor.rest = d :: cs) :
    s.atDocument = false := by
  have hstarts : atWord "=begin".toList s.cursor.rest = false := by
    rw [h, atWord, show "=begin".toList = '=' :: "begin".toList from rfl, List.isPrefixOf,
      beq_false_of_ne hd.symm]
    rfl
  rw [atDocument, hstarts, Bool.and_false]

/-- Where no document begins, the next characters decide. -/
lemma skipTrivia?_of_text (hdocument : s.atDocument = false) : s.skipTrivia? =
    match s.cursor.rest with
    | ' ' :: _ | '\t' :: _ | '\r' :: _ | '\x0b' :: _ | '\x0c' :: _ => some (s.skipBlank 1)
    | '\\' :: '\n' :: _ => some (s.skipBlank 2)
    | '#' :: _ => some (s.skipBlank (s.cursor.run (· != '\n')))
    | '\n' :: _ => some s.scanNewline
    | _ => none := by
  have hword : (s.atTopLine && atWord "=begin".toList s.cursor.rest) = false := hdocument
  unfold skipTrivia?
  rw [hword]
  rfl

lemma skipTrivia?_nil (h : s.cursor.rest = []) : s.skipTrivia? = none := by
  have hword : atWord "=begin".toList s.cursor.rest = false := by
    rw [h]
    decide +kernel
  have hdocument : s.atDocument = false := by rw [atDocument, hword, Bool.and_false]
  rw [skipTrivia?_of_text hdocument, h]

lemma skipTrivia?_lineBreak (h : s.cursor.rest = '\n' :: cs) : s.skipTrivia? = some s.scanNewline := by
  rw [skipTrivia?_of_text (atDocument_of_head (by decide) h), h]
  rfl

lemma skipTrivia?_return (h : s.cursor.rest = '\r' :: cs) : s.skipTrivia? = some (s.skipBlank 1) := by
  rw [skipTrivia?_of_text (atDocument_of_head (by decide) h), h]
  rfl

lemma skipTrivia?_comment (h : s.cursor.rest = '#' :: cs) :
    s.skipTrivia? = some (s.skipBlank (s.cursor.run (· != '\n'))) := by
  rw [skipTrivia?_of_text (atDocument_of_head (by decide) h), h]
  rfl

lemma skipTrivia?_blank (hc : c ∈ lineBlanks) (h : s.cursor.rest = c :: cs) :
    s.skipTrivia? = some (s.skipBlank 1) := by
  have hne : c ≠ '=' := by
    rintro rfl
    exact absurd hc (by decide)
  rw [skipTrivia?_of_text (atDocument_of_head hne h), h]
  simp only [lineBlanks, List.mem_cons, List.not_mem_nil, or_false] at hc
  rcases hc with rfl | rfl | rfl | rfl
  all_goals rfl

/-- A character that begins a token, or none at all, is not passed over. -/
lemma skipTrivia?_token (hdocument : s.atDocument = false) (h : s.cursor.rest = c :: cs)
    (hc : c ∉ lineBlanks) (hline : isInLine c = true) (hcomment : c ≠ '#')
    (hcontinued : c = '\\' → cs.head? ≠ some '\n') : s.skipTrivia? = none := by
  have hbreak : c ≠ '\n' := by
    rintro rfl
    exact absurd hline (by decide)
  have hreturn : c ≠ '\r' := by
    rintro rfl
    exact absurd hline (by decide)
  simp only [lineBlanks, List.mem_cons, List.not_mem_nil, or_false, not_or] at hc
  rw [skipTrivia?_of_text hdocument, h]
  split
  all_goals simp_all

end Outermost

/-! ### Strides -/

/-- The scanner behind a token of the outermost code, with a number of braces open. -/
def stride (s : Scanner) (d : Stroke) (depth : ℕ) : Scanner :=
  { s.perform s.spaceSeen d with modes := [.code depth], spaceSeen := false }

variable {s t s' t' : Scanner} {spaced : Bool}

/-- Two scanners in the outermost code read the same token. -/
def InStep (s t s' t' : Scanner) : Prop :=
  ∃ d depth, d.Fits (lineAhead s.cursor.rest).length ∧ s' = s.stride d depth ∧ t' = t.stride d depth

/-- What two scanners do together in the outermost code. -/
lemma Together.inStep {depth : ℕ} (hs : s.modes = [.code depth]) (ht : t.modes = [.code depth])
    (hspace : t.spaceSeen = s.spaceSeen)
    (h : Together s.spaceSeen { s with spaceSeen := false } { t with spaceSeen := false } s' t') :
    InStep s t s' t' := by
  obtain ⟨d, hfits, rfl, rfl⟩ := h
  refine ⟨d, depth, hfits, ?_, ?_⟩
  · unfold stride perform
    rw [← hs]
    rfl
  · unfold stride perform
    rw [← ht, hspace]
    rfl

/-- What two scanners do together may be a choice of readings, the same for both. -/
lemma Together?.orOperator {u v : Option Scanner} (h : Together? spaced s t u v)
    (hoperator : Together spaced s t (s.scanOperator spaced) (t.scanOperator spaced)) :
    Together spaced s t (orOperator u s spaced) (orOperator v t spaced) := by
  rcases h with ⟨rfl, rfl⟩ | ⟨u, v, rfl, rfl, h⟩
  · exact hoperator
  · exact h

namespace SameView

/-- A brace changes how many are open, for both. -/
lemma inStep_brace {depth depth' : ℕ} (h : SameView s t) (hpos : 1 ≤ (lineAhead s.cursor.rest).length)
    (hspace : t.spaceSeen = s.spaceSeen) (kind : TokenKind) (e : Expectation) :
    InStep s t
      { ({ s with spaceSeen := false, modes := [.code depth] }.emit kind 1 s.spaceSeen) with
        modes := [.code depth'], expects := e }
      { ({ t with spaceSeen := false, modes := [.code depth] }.emit kind 1 s.spaceSeen) with
        modes := [.code depth'], expects := e } := by
  refine ⟨⟨1, some kind, none, e, s.definingName, s.inBlockParameters, s.locals⟩, depth',
    ⟨hpos, by simp⟩, rfl, ?_⟩
  unfold stride perform
  rw [hspace, h.definingName, h.inBlockParameters, h.locals]
  rfl

lemma inStep_openingBrace {depth : ℕ} (h : SameView s t)
    (hpos : 1 ≤ (lineAhead s.cursor.rest).length) (hs : s.modes = [.code depth])
    (ht : t.modes = [.code depth]) (hspace : t.spaceSeen = s.spaceSeen) :
    InStep s t (({ s with spaceSeen := false } : Scanner).scanOpeningBrace s.spaceSeen)
      (({ t with spaceSeen := false } : Scanner).scanOpeningBrace s.spaceSeen) := by
  have hbrace (u : Scanner) (hu : u.modes = [.code depth]) :
      ({ u with spaceSeen := false } : Scanner).scanOpeningBrace s.spaceSeen =
        { ({ u with spaceSeen := false, modes := [.code depth] } : Scanner).emit
            (.punct .lBrace) 1 s.spaceSeen with modes := [.code (depth + 1)], expects := .operand } := by
    rw [← hu]
    unfold scanOpeningBrace
    simp only [emit, emitFlagged, expecting, hu]
  rw [hbrace s hs, hbrace t ht]
  exact h.inStep_brace hpos hspace _ _

lemma inStep_closingBrace {depth : ℕ} (h : SameView s t)
    (hpos : 1 ≤ (lineAhead s.cursor.rest).length) (hs : s.modes = [.code depth])
    (ht : t.modes = [.code depth]) (hspace : t.spaceSeen = s.spaceSeen) :
    InStep s t (({ s with spaceSeen := false } : Scanner).scanClosingBrace s.spaceSeen)
      (({ t with spaceSeen := false } : Scanner).scanClosingBrace s.spaceSeen) := by
  have hbrace (u : Scanner) (hu : u.modes = [.code depth]) :
      ({ u with spaceSeen := false } : Scanner).scanClosingBrace s.spaceSeen =
        { ({ u with spaceSeen := false, modes := [.code depth] } : Scanner).emit
            (.punct .rBrace) 1 s.spaceSeen with
          modes := [.code (depth - 1)], expects := .operator } := by
    unfold scanClosingBrace
    simp only [hu]
    rfl
  rw [hbrace s hs, hbrace t ht]
  exact h.inStep_brace hpos hspace _ _

/-- No heredoc begins in front of two scanners before the same bare line. -/
lemma isPrefixOf_brackets (h : SameView s t) (hbare : Bare s.cursor.rest) :
    "<<".toList.isPrefixOf s.cursor.rest = false ∧ "<<".toList.isPrefixOf t.cursor.rest = false := by
  have hline : InLine "<<".toList := by decide +kernel
  have hbrackets : "<<".toList.isPrefixOf s.cursor.rest = false := by
    rw [Bool.eq_false_iff]
    exact fun hstarts => hbare.heredoc (List.isPrefixOf_iff_prefix.mp hstarts).isInfix
  refine ⟨hbrackets, ?_⟩
  rw [← isPrefixOf_lineAhead hline, ← h.line, isPrefixOf_lineAhead hline, hbrackets]

/-- Two scanners before the same bare line read the same token, if it is no brace. -/
theorem scanTokenAt_of_bare (h : SameView s t) (hbare : Bare s.cursor.rest)
    (hat : s.cursor.rest = c :: cs) (hc : isInLine c = true) (hbrace : c ≠ '\x7b' ∧ c ≠ '\x7d')
    (nested : Scanner → Option Scanner) (spaced : Bool) :
    ∃ s' t', s.scanTokenAt nested spaced c = some s' ∧ t.scanTokenAt nested spaced c = some t' ∧
      Together spaced s t s' t' := by
  have hcs : Bare cs := (hat ▸ hbare).of_part (List.suffix_cons c cs).isInfix
  have hnot : c ∉ literalOpeners := (hat ▸ hbare).not_mem
  have hoperator : Together spaced s t (s.scanOperator spaced) (t.scanOperator spaced) :=
    h.scanOperator hat hc
  have hcolons : t.cursor.startsWith "::".toList = s.cursor.startsWith "::".toList := by
    have hline : InLine "::".toList := by decide +kernel
    unfold Cursor.startsWith
    rw [← isPrefixOf_lineAhead hline, ← h.line, isPrefixOf_lineAhead hline]
  obtain ⟨hbrackets, hbrackets'⟩ := h.isPrefixOf_brackets hbare
  unfold scanTokenAt
  rw [hcolons, ← h.expects, heredocOpener?_eq_none hbrackets, heredocOpener?_eq_none hbrackets',
    ite_self, ite_self]
  by_cases hdigit : isAsciiDigit c = true
  · simp only [hdigit, if_true]
    exact ⟨_, _, rfl, rfl, h.scanNumber⟩
  by_cases hname : startsName c = true
  · simp only [hdigit, hname, Bool.false_eq_true, if_true, if_false]
    exact ⟨_, _, rfl, rfl, h.scanName⟩
  simp only [hdigit, hname, Bool.false_eq_true, if_false]
  split
  · exact absurd (by decide) hnot
  · exact absurd (by decide) hnot
  · exact absurd (by decide) hnot
  · exact ⟨_, _, rfl, rfl, h.scanSigil hat⟩
  · exact ⟨_, _, rfl, rfl, h.scanGlobal hat⟩
  · split
    · exact ⟨_, _, rfl, rfl, hoperator⟩
    · have hquote : cs.head? ≠ some '"' ∧ cs.head? ≠ some '\'' :=
        ⟨hcs.head?_ne (by decide), hcs.head?_ne (by decide)⟩
      exact ⟨_, _, rfl, rfl, (h.scanSymbol? hat hquote).orOperator hoperator⟩
  · exact absurd (by decide) hnot
  · exact absurd (by decide) hnot
  · exact absurd (by decide) hnot
  · exact ⟨_, _, rfl, rfl, hoperator⟩
  · exact absurd rfl hbrace.1
  · exact absurd rfl hbrace.2
  · exact ⟨_, _, rfl, rfl, hoperator⟩

/-- Two scanners before the same bare line read the same token, or pass over the same characters. -/
theorem scanToken_of_bare {depth : ℕ} (h : SameView s t) (hbare : Bare s.cursor.rest)
    (hat : s.cursor.rest = c :: cs) (hc : isInLine c = true) (hs : s.modes = [.code depth])
    (ht : t.modes = [.code depth]) (hspace : t.spaceSeen = s.spaceSeen) :
    ∃ s' t', (∀ nested, s.scanToken nested c = some s') ∧ (∀ nested, t.scanToken nested c = some t') ∧
      InStep s t s' t' := by
  obtain ⟨hbrackets, hbrackets'⟩ := h.isPrefixOf_brackets hbare
  suffices hread : ∃ s' t', s.scanToken (fun _ => none) c = some s' ∧
      t.scanToken (fun _ => none) c = some t' ∧ InStep s t s' t' by
    obtain ⟨s', t', hs', ht', hstep⟩ := hread
    refine ⟨s', t', fun nested => ?_, fun nested => ?_, hstep⟩
    · rw [scanToken_congr hbrackets nested, hs']
    · rw [scanToken_congr hbrackets' nested, ht']
  have hview : SameView { s with spaceSeen := false } { t with spaceSeen := false } :=
    ⟨h.line, h.expects, h.definingName, h.inBlockParameters, h.locals, h.lastKind?⟩
  have hpos : 1 ≤ (lineAhead s.cursor.rest).length := by
    rw [hat, lineAhead_cons_of_in hc]
    exact Nat.succ_pos _
  unfold scanToken
  simp only [hspace]
  rw [← hview.definedOperator?]
  cases hdefined : ({ s with spaceSeen := false } : Scanner).definedOperator? with
  | some n =>
    refine ⟨_, _, rfl, rfl, Together.inStep hs ht hspace ?_⟩
    refine ⟨⟨n, some .identifier, none, .argument, false, s.inBlockParameters, s.locals⟩,
      ⟨definedOperator?_le hdefined, by simp⟩, rfl, ?_⟩
    rw [h.inBlockParameters, h.locals]
    rfl
  | none =>
    by_cases hopening : c = '\x7b'
    · subst hopening
      exact ⟨_, _, rfl, rfl, h.inStep_openingBrace hpos hs ht hspace⟩
    by_cases hclosing : c = '\x7d'
    · subst hclosing
      exact ⟨_, _, rfl, rfl, h.inStep_closingBrace hpos hs ht hspace⟩
    obtain ⟨s', t', hs', ht', hread⟩ :=
      hview.scanTokenAt_of_bare hbare hat hc ⟨hopening, hclosing⟩ (fun _ => none) s.spaceSeen
    exact ⟨s', t', hs', ht', hread.inStep hs ht hspace⟩

end SameView

end RubyCheck.Scanner
