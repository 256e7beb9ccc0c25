import Mathlib.Tactic.Common
import RubyCheck.Proofs.OneLine
import RubyCheck.Proofs.Scanner.Lexeme
import RubyCheck.Proofs.Scanner.Lookahead
import RubyCheck.Token.Stream

/-!
# How code is read

Each function of the scanner that reads code is looked at once here.  `Passes` says what becomes of
what stands between tokens, and `Lexes` how the next token is read: a literal opens, a heredoc is
read, characters are passed over with a fault, or a token is read that guides the scanner.  What the
scanner expects next, whether it stands between `def` and a name or between bars, and the names it
knows decide how the next character is read; `Guided` says what one token does to them.  Which literal
opens is decided by the cursor, the expectation and the blank before it alone (`opening?`), so that
the same literal opens again after going back.
-/

namespace RubyCheck

/-- Kinds of tokens that stand in code: all but the delimiters and the content of literals, and the
end of the text. -/
def TokenKind.isPlain : TokenKind → Bool
  | .stringBegin | .stringContent | .stringEnd | .interpolationBegin | .interpolationEnd
  | .regexBegin | .eof => false
  | _ => true

/-- A token behind which the next name is a method's: a dot, a keyword that names methods, or the
first symbol of an `alias`. -/
def Token.awaitsMethod (t : Token) (last : Option TokenKind) : Bool :=
  match t.kind with
  | .punct .dot | .punct .ampDot | .punct .colonColon => true
  | .keyword .def_ | .keyword .alias_ | .keyword .undef_ => true
  | .symbol => t.text.toList.head? == some ':' && last == some (.keyword .alias_)
  | _ => false

/-- Whether a definition still has no name behind a token that is not the keyword `def`, given the
character behind the token: a name ends the search unless a dot follows it. -/
def Token.leavesUnnamed (t : Token) (behind : Option Char) : Bool :=
  match t.kind with
  | .identifier | .constant => behind == some '.'
  | .keyword word => word == .self_
  | .newline | .label => false
  | kind => !kind.isOperatorMethod

/-- A name or a label begins with neither a dot nor a colon, and an integer has no sign. -/
def Token.Spelled (t : Token) : Prop :=
  (t.kind = .identifier ∨ t.kind = .label → ∃ c ∈ t.text.toList.head?, c ≠ '.' ∧ c ≠ ':') ∧
    (t.kind = .integer ∨ t.kind = .legacyOctal → ∀ c ∈ t.text.toList, Number.isSign c = false)

namespace Scanner

open Text

variable {s s' : Scanner} {nested : Scanner → Option Scanner} {spaced : Bool}

/-! ### Modes -/

/-- Code and literals alternate in a stack of modes, and code is outermost. -/
inductive Alternates : List Mode → Prop
  | outermost (d : ℕ) : Alternates [.code d]
  | literal (l : OpenLiteral) (d : ℕ) (outer : List Mode) (h : Alternates (.code d :: outer)) :
      Alternates (.literal l :: .code d :: outer)
  | code (d : ℕ) (l : OpenLiteral) (outer : List Mode) (h : Alternates (.literal l :: outer)) :
      Alternates (.code d :: .literal l :: outer)

/-- Without the innermost of several modes, code and literals still alternate. -/
lemma Alternates.tail {m : Mode} {outer : List Mode} (h : Alternates (m :: outer))
    (hne : outer ≠ []) : Alternates outer := by
  cases h with
  | outermost => exact absurd rfl hne
  | literal _ _ _ h => exact h
  | code _ _ _ h => exact h

/-- Under a literal stands code. -/
lemma Alternates.of_literal {l : OpenLiteral} {outer : List Mode}
    (h : Alternates (.literal l :: outer)) : ∃ d outer', outer = .code d :: outer' := by
  cases h
  exact ⟨_, _, rfl⟩

/-- The scanner reads code. -/
def InCode (s : Scanner) : Prop := ∃ d outer, s.modes = .code d :: outer

/-- Two stacks of modes that differ at most in the number of braces open in the innermost code. -/
inductive SameLayers : List Mode → List Mode → Prop
  | refl (ms : List Mode) : SameLayers ms ms
  | braces (d d' : ℕ) (outer : List Mode) : SameLayers (.code d :: outer) (.code d' :: outer)

/-! ### Heredocs -/

/-- Where the body of a heredoc begins whose opener stands at the cursor. -/
def bodyStart (s : Scanner) (o : HeredocOpener) : Cursor :=
  s.resume.getD (Cursor.advanceBy o.length s.cursor).nextLine

/-- The range of the body of a heredoc whose opener stands at the cursor. -/
def bodyRange (s : Scanner) (o : HeredocOpener) : HeredocRange :=
  o.range 0 0 [] (s.bodyStart o).rest

/-- The scanner that reads the body of a heredoc whose opener stands at the cursor. -/
def bodyScanner (s : Scanner) (o : HeredocOpener) : Scanner :=
  .ofBody ((s.bodyStart o).narrow (s.bodyRange o).body) o.interpolates (s.spanOf o.length) s.locals

/-- The fault of a heredoc whose opener stands at the cursor and whose terminator is missing. -/
def openerFaults (s : Scanner) (o : HeredocOpener) : List Fault :=
  if (s.bodyRange o).terminated then []
  else [⟨.unterminatedHeredoc (String.ofList o.terminator), s.spanOf o.length⟩]

/-- If there is such a fault, it is this one. -/
lemma eq_of_mem_openerFaults {o : HeredocOpener} {f : Fault} (hf : f ∈ s.openerFaults o) :
    f = ⟨.unterminatedHeredoc (String.ofList o.terminator), s.spanOf o.length⟩ := by
  unfold openerFaults at hf
  split at hf
  · simp at hf
  · exact List.mem_singleton.mp hf

/-- The scanner behind the opener of a heredoc whose body was read by another scanner. -/
def spliceBody (s : Scanner) (o : HeredocOpener) (spaced : Bool) (body : Scanner) : Scanner :=
  let opened := s.emit .stringBegin o.length spaced
  { opened with
    tokens := .empty .stringEnd (s.spanOf o.length).stop :: (body.tokens ++ opened.tokens)
    faults := body.faults ++ (s.openerFaults o ++ s.faults)
    resume := some (Cursor.advanceBy (s.bodyRange o).whole (s.bodyStart o)) }

/-- Reading a heredoc is reading its body by another scanner and splicing in what that has read. -/
theorem scanHeredoc_eq_map (o : HeredocOpener) :
    s.scanHeredoc nested o spaced =
      (nested (s.bodyScanner o)).map fun body =>
        (s.spliceBody o spaced body).expecting .operator := by
  have hstart : (s.emit .stringBegin o.length spaced).resume.getD
      (s.emit .stringBegin o.length spaced).cursor.nextLine = s.bodyStart o := rfl
  have hrange : o.range 0 0 [] (s.bodyStart o).rest = s.bodyRange o := rfl
  unfold scanHeredoc
  simp only [hstart, hrange]
  by_cases hterminated : (s.bodyRange o).terminated = true
  · have hfaults : s.openerFaults o = [] := if_pos hterminated
    simp only [spliceBody, hfaults, if_pos hterminated]
    change (nested (s.bodyScanner o)).bind _ = _
    cases nested (s.bodyScanner o) <;> rfl
  · have hfaults : s.openerFaults o = [_] := if_neg hterminated
    simp only [spliceBody, hfaults, if_neg hterminated]
    change (nested (s.bodyScanner o)).bind _ = _
    cases nested (s.bodyScanner o) <;> rfl

/-! ### The literal that opens -/

/-- The literal that a percent sign opens, if it holds code, from the characters behind the sign. -/
def percentOpening? (cs : List Char) : Option Opening :=
  (percentOpener? cs).bind fun (letter, delimiter) =>
    let close := closingOf delimiter
    let bracket := if close == delimiter then none else some delimiter
    let width := if letter.isSome then 3 else 2
    match letter with
    | some 'q' | some 'w' | some 'i' | some 's' => none
    | some 'r' => some ⟨.regex, bracket, close, true, false, width, false⟩
    | _ => some ⟨.string, bracket, close, true, false, width, false⟩

/-- The literal that opens at the cursor in code, if one does. -/
def opening? (s : Scanner) (spaced : Bool) : Option Opening :=
  match s.cursor.rest with
  | '"' :: _ => some (.quoted '"' true)
  | '\x60' :: _ => some (.quoted '\x60' true)
  | '\'' :: _ => some (.quoted '\'' false)
  | '%' :: cs => if s.valueExpected spaced then percentOpening? cs else none
  | '/' :: _ =>
    if s.valueExpected spaced then some (.slashed (s.expects == .argument)) else none
  | _ => none

/-- The opener of a literal is not empty. -/
lemma width_pos_of_opening? {o : Opening} (h : s.opening? spaced = some o) : 0 < o.width := by
  unfold opening? at h
  split at h
  · exact Option.some.inj h ▸ Nat.one_pos
  · exact Option.some.inj h ▸ Nat.one_pos
  · exact Option.some.inj h ▸ Nat.one_pos
  · split at h
    · obtain ⟨⟨letter, delimiter⟩, -, hopens⟩ := Option.bind_eq_some_iff.mp h
      have hwidth : 0 < if letter.isSome then 3 else 2 := by split <;> omega
      dsimp only at hopens
      split at hopens <;> simp at hopens
      all_goals exact hopens ▸ hwidth
    · simp at h
  · split at h
    · exact Option.some.inj h ▸ Nat.one_pos
    · simp at h
  · simp at h

/-- Only a slash in argument position opens what could also be a division. -/
lemma expects_of_ambiguous {o : Opening} (h : s.opening? spaced = some o) (ho : o.ambiguous = true) :
    s.expects = .argument := by
  unfold opening? at h
  split at h
  · simp [← Option.some.inj h, Opening.quoted] at ho
  · simp [← Option.some.inj h, Opening.quoted] at ho
  · simp [← Option.some.inj h, Opening.quoted] at ho
  · split at h
    · obtain ⟨⟨letter, delimiter⟩, -, hopens⟩ := Option.bind_eq_some_iff.mp h
      dsimp only at hopens
      split at hopens <;> simp at hopens
      all_goals
        rw [← hopens] at ho
        simp at ho
    · simp at h
  · split at h
    · simpa [← Option.some.inj h, Opening.slashed] using ho
    · simp at h
  · simp at h

/-! ### Faults -/

/-- A fault at the cursor is lexical, and what is said of it is said on one line, unless a line ends
there. -/
def Words (s : Scanner) (cause : Fault.Cause) : Prop :=
  s.cursor.rest.head? ≠ some '\n' → cause.Lexical

/-- An unexpected character that is no line break is worded in one line. -/
lemma words_unexpectedCharacter {c : Char} (hc : c ≠ '\n') : s.Words (.unexpectedCharacter c) := by
  intro _
  have hchar : OneLine (toString c) := by
    rw [OneLine, show toString c = String.singleton c from rfl, String.toList_singleton]
    simpa using hc.symm
  exact ⟨rfl, .append (.append (by decide) hchar) (by decide)⟩

/-- A literal that is left open is worded in one line. -/
lemma words_unterminatedString : s.Words .unterminatedString := by
  intro _
  exact ⟨rfl, by decide⟩

/-- A number is read without looking beyond the end of its line. -/
lemma words_invalidNumber :
    s.Words (.invalidNumber (s.textOf (Numeral.ofText s.cursor.rest).length)) := by
  intro _
  have hlength : (Numeral.ofText s.cursor.rest).length ≤ (lineAhead s.cursor.rest).length := by
    rw [← Numeral.ofText_lineAhead]
    exact Numeral.ofText_le _
  have htext : OneLine (s.textOf (Numeral.ofText s.cursor.rest).length) := by
    intro hbreak
    rw [textOf, String.toList_ofList, ← take_lineAhead hlength] at hbreak
    have hin := List.mem_takeWhile_imp (List.mem_of_mem_take hbreak)
    exact absurd hin (by decide)
  exact ⟨rfl, .append (.append (by decide) htext) (by decide)⟩

/-! ### Tokens -/

/-- What reading a token of code that opens no literal does to the text, the tokens, the faults and
the modes. -/
inductive Takes (s s' : Scanner) (t : Token) : Prop
  /-- A token that stands in code, perhaps with a fault. -/
  | code (n : ℕ) (faults : List Fault) (modes : List Mode) (pos : 0 < n)
      (is : t = ⟨t.kind, s.textOf n, s.spanOf n, t.spaced, false⟩)
      (plain : t.kind.isPlain = true) (going : t.kind ≠ .newline)
      (kept : faults = s.faults ∧ SameLayers s.modes modes ∨
        (∃ cause k, s.Words cause ∧ faults = ⟨cause, s.spanOf k⟩ :: s.faults) ∧ modes = s.modes)
      (eq : s' = { s with
        cursor := .advanceBy n s.cursor
        tokens := t :: s.tokens
        faults := faults
        modes := modes
        expects := s'.expects
        spaceSeen := s'.spaceSeen
        definingName := s'.definingName
        inBlockParameters := s'.inBlockParameters
        locals := s'.locals })
  /-- The brace that ends the code inside a literal. -/
  | brace (mode : Mode) (outer : List Mode) (rest : List Char)
      (modes : s.modes = .code 0 :: mode :: outer) (ahead : s.cursor.rest = '\x7d' :: rest)
      (is : t = ⟨.interpolationEnd, s.textOf 1, s.spanOf 1, t.spaced, false⟩)
      (eq : s' = { s with
        cursor := .advanceBy 1 s.cursor, tokens := t :: s.tokens, modes := mode :: outer })

/-- What reading a token of code that opens no literal does to what guides the scanner. -/
structure Guided (s s' : Scanner) (t : Token) : Prop where
  takes : Takes s s' t
  locals : s.locals ⊆ s'.locals
  defining : s'.definingName = true → t.kind = .keyword .def_ ∨
    s.definingName = true ∧ t.leavesUnnamed s'.cursor.peek = true
  method : t.kind ≠ .interpolationEnd →
    (s'.expects = .methodName ↔ t.awaitsMethod s.lastKind? = true)
  argument : s'.expects = .argument → t.kind = .identifier →
    s.definingName = true ∨ s.expects = .methodName ∨ t.text ∉ s'.locals
  remembers : t.kind = .identifier → s.definingName = false → s.expects ≠ .methodName →
    s.inBlockParameters = true ∨ assigns s'.cursor.rest = true → t.text ∈ s'.locals
  bar : t.kind = .punct .pipe → s.definingName = false →
    s.lastKind? = some (.keyword .do_) ∨ s.lastKind? = some (.punct .lBrace) →
    s'.inBlockParameters = true
  between : t.kind ≠ .punct .pipe → s'.inBlockParameters = s.inBlockParameters
  named : t.kind = .keyword .def_ ∨ t.kind = .keyword .alias_ ∨ t.kind = .keyword .undef_ →
    s.expects ≠ .methodName
  spelled : t.Spelled
  whole : s'.faults = s.faults → t.Whole

/-- A token is spelled as the text is where it is read. -/
lemma spelled_textOf {kind : TokenKind} {n : ℕ} {span : Span} {ambiguous : Bool} {c : Char}
    {cs : List Char} (hn : 0 < n) (hrest : s.cursor.rest = c :: cs) (hc : c ≠ '.' ∧ c ≠ ':')
    (hkind : kind ≠ .integer ∧ kind ≠ .legacyOctal) :
    Token.Spelled ⟨kind, s.textOf n, span, spaced, ambiguous⟩ := by
  obtain ⟨k, rfl⟩ := Nat.exists_eq_succ_of_ne_zero hn.ne'
  exact ⟨fun _ => ⟨c, by simp [textOf, hrest], hc⟩, fun h => (h.elim hkind.1 hkind.2).elim⟩

/-- Tokens that are values by themselves. -/
def isValue : TokenKind → Bool
  | .integer | .legacyOctal | .float | .symbol | .character | .percentLiteral
  | .instanceVariable | .classVariable | .globalVariable => true
  | _ => false

/-- A value is read, perhaps with a fault. -/
lemma Guided.value {kind : TokenKind} {n : ℕ} (fs : List Fault) (e : Expectation) (hn : 0 < n)
    (hkind : isValue kind = true) (he : e ≠ .argument)
    (hfs : fs = s.faults ∨ ∃ cause k, s.Words cause ∧ fs = ⟨cause, s.spanOf k⟩ :: s.faults)
    (hmethod : e = .methodName ↔
      Token.awaitsMethod ⟨kind, s.textOf n, s.spanOf n, spaced, false⟩ s.lastKind? = true)
    (hsign : kind = .integer ∨ kind = .legacyOctal →
      ∀ c ∈ s.cursor.rest.take n, Number.isSign c = false)
    (hwhole : fs = s.faults → Token.Whole ⟨kind, s.textOf n, s.spanOf n, spaced, false⟩) :
    Guided s ({ s with faults := fs }.emit kind n spaced |>.expecting e)
      ⟨kind, s.textOf n, s.spanOf n, spaced, false⟩ := by
  have hkept : fs = s.faults ∧ SameLayers s.modes s.modes ∨
      (∃ cause k, s.Words cause ∧ fs = ⟨cause, s.spanOf k⟩ :: s.faults) ∧ s.modes = s.modes :=
    hfs.imp (fun h => ⟨h, .refl _⟩) fun h => ⟨h, rfl⟩
  refine ⟨.code n fs s.modes hn rfl ?_ ?_ hkept rfl, List.Subset.refl _,
    fun hdefining => .inr ⟨hdefining, ?_⟩, fun _ => hmethod, fun harg => absurd harg he, ?_, ?_,
    fun _ => rfl, ?_, ?_, hwhole⟩
  all_goals cases kind <;> simp_all [isValue, TokenKind.isPlain, Token.leavesUnnamed,
    TokenKind.isOperatorMethod, Token.Spelled, textOf]

/-- Behind a value that is no symbol, no name of a method follows. -/
lemma awaitsMethod_eq_false {t : Token} {last : Option TokenKind} (hkind : isValue t.kind = true)
    (hsymbol : t.kind ≠ .symbol) : t.awaitsMethod last = false := by
  unfold Token.awaitsMethod
  split <;> simp_all [isValue]

/-- How a token of code is read: a literal opens, a heredoc is read, characters are passed over with
a fault, or a token is read that guides the scanner. -/
inductive Lexes (nested : Scanner → Option Scanner) (s : Scanner) (spaced : Bool)
    (s' : Scanner) : Prop
  | opens (o : Opening) (opening : s.opening? spaced = some o) (eq : s' = s.beginLiteral o spaced)
  | heredoc (o : HeredocOpener) (body : Scanner) (expected : s.valueExpected spaced = true)
      (opener : s.heredocOpener? = some o) (read : nested (s.bodyScanner o) = some body)
      (eq : s' = (s.spliceBody o spaced body).expecting .operator)
  | stray (cause : Fault.Cause) (n : ℕ) (pos : 0 < n)
      (eq : s' = (s.complain cause (s.spanOf n)).skip n) (words : s.Words cause)
      (within : s.cursor.rest.head? ≠ some '\n' → '\n' ∉ s.cursor.rest.take n)
  | token (t : Token) (guided : Guided s s' t)

/-- Unless a line ends at the cursor, the next character is not its end. -/
lemma notMem_take_one {cs : List Char} (h : cs.head? ≠ some '\n') : '\n' ∉ cs.take 1 := by
  cases cs with
  | nil => simp
  | cons c cs => simpa [eq_comm] using h

/-- A number is one token. -/
lemma lexes_scanNumber {c : Char} {cs : List Char} (hrest : s.cursor.rest = c :: cs)
    (hc : isAsciiDigit c = true) : Lexes nested s spaced (s.scanNumber spaced) := by
  have hpos : 0 < (Numeral.ofText s.cursor.rest).length := by
    rw [hrest]
    exact Numeral.ofText_length_pos hc
  have hkind : isValue (Numeral.ofText s.cursor.rest).kind = true ∧
      (Numeral.ofText s.cursor.rest).kind ≠ .symbol := by
    rcases Numeral.ofText_kind s.cursor.rest with h | h | h <;> rw [h] <;> decide
  have hsign := Numeral.isSign_of_mem_ofText s.cursor.rest
  have hwhole : Token.Whole
      ⟨(Numeral.ofText s.cursor.rest).kind, s.textOf (Numeral.ofText s.cursor.rest).length,
        s.spanOf (Numeral.ofText s.cursor.rest).length, spaced, false⟩ :=
    Token.whole_of_ne (by
      rcases Numeral.ofText_kind s.cursor.rest with h | h | h <;> simp [h])
  unfold scanNumber
  have hmethod : .operator = Expectation.methodName ↔ Token.awaitsMethod
      ⟨(Numeral.ofText s.cursor.rest).kind, s.textOf (Numeral.ofText s.cursor.rest).length,
        s.spanOf (Numeral.ofText s.cursor.rest).length, spaced, false⟩ s.lastKind? = true := by
    rw [awaitsMethod_eq_false hkind.1 hkind.2]
    decide
  dsimp only
  split
  · exact .token _ (.value _ .operator hpos hkind.1 (by decide)
      (.inr ⟨_, _, words_invalidNumber, rfl⟩) hmethod hsign fun _ => hwhole)
  · exact .token _ (.value s.faults .operator hpos hkind.1 (by decide) (.inl rfl) hmethod hsign
      fun _ => hwhole)

/-- A sigil behind the next character ends no line. -/
lemma notMem_take_sigils {cs : List Char} (h : cs.head? ≠ some '\n') (hsigil : cs[1]? = some '@') :
    '\n' ∉ cs.take 2 := by
  match cs with
  | [] => simp
  | [_] => simp at hsigil
  | c :: d :: _ =>
    obtain rfl : d = '@' := by simpa using hsigil
    simpa [eq_comm] using h

/-- A variable of an object or a class is one token, or a fault. -/
lemma lexes_scanSigil : Lexes nested s spaced (s.scanSigil spaced) := by
  unfold scanSigil
  by_cases hclass : s.cursor.peekAt 1 == some '@'
  all_goals
    simp only [hclass, if_true, if_false, Bool.false_eq_true]
    split
    · refine .token _ (.value s.faults .operator (by omega) rfl (by decide) (.inl rfl) ?_ (by simp)
        fun _ => Token.whole_of_ne (by simp))
      simp [Token.awaitsMethod]
    · refine .stray _ _ (by omega) rfl (words_unexpectedCharacter (by decide)) fun hgoing => ?_
      first | exact notMem_take_one hgoing | exact notMem_take_sigils hgoing (eq_of_beq hclass)

/-- A global variable is one token, or a fault. -/
lemma lexes_scanGlobal : Lexes nested s spaced (s.scanGlobal spaced) := by
  unfold scanGlobal
  split
  · rename_i n hn
    refine .token _ (.value s.faults .operator (Nat.succ_pos n) rfl (by decide) (.inl rfl) ?_
      (by simp) fun _ => Token.whole_of_ne (by simp))
    simp [Token.awaitsMethod]
  · exact .stray _ 1 Nat.one_pos rfl (words_unexpectedCharacter (by decide)) notMem_take_one

/-- A character literal is one token. -/
lemma lexes_scanCharacter? (h : s.scanCharacter? spaced = some s') :
    Lexes nested s spaced s' := by
  obtain ⟨n, hn, rfl⟩ := Option.map_eq_some_iff.mp h
  refine .token _ (.value s.faults .operator (characterLength?_pos hn) rfl (by decide) (.inl rfl) ?_
    (by simp) fun _ => Token.whole_of_ne (by simp))
  simp [Token.awaitsMethod]

/-- Behind the first symbol of an `alias` a method name is expected. -/
lemma lexes_scanSymbol? {cs : List Char} (hrest : s.cursor.rest = ':' :: cs)
    (h : s.scanSymbol? spaced = some s') : Lexes nested s spaced s' := by
  obtain ⟨⟨n, complete⟩, hlength, rfl⟩ := Option.map_eq_some_iff.mp h
  have hcolon : (s.textOf (n + 1)).toList.head? = some ':' := by
    simp [textOf, hrest]
  have hlast : ∀ fs, ({ s with faults := fs } : Scanner).lastKind? = s.lastKind? := fun _ => rfl
  have hwhole (hcomplete : complete = true) : Token.Whole
      ⟨.symbol, s.textOf (n + 1), s.spanOf (n + 1), spaced, false⟩ := by
    refine ⟨fun _ => ?_, by simp⟩
    rw [hrest, List.tail_cons, hcomplete] at hlength
    rw [textOf, String.toList_ofList, hrest, List.take_succ_cons]
    exact symbolText_of_symbolLength? hlength
  by_cases halias : s.lastKind? = some (.keyword .alias_)
  · cases complete with
    | true =>
      simp only [halias, beq_self_eq_true, if_true]
      refine .token _ (.value s.faults .methodName (Nat.succ_pos n) rfl (by decide) (.inl rfl) ?_
        (by simp) fun _ => hwhole rfl)
      simp [Token.awaitsMethod, hcolon, halias]
    | false =>
      simp only [halias, beq_self_eq_true, if_true, Bool.false_eq_true, if_false]
      refine .token _ (.value (⟨_, _⟩ :: s.faults) .methodName (Nat.succ_pos n) rfl (by decide)
        (.inr ⟨_, _, words_unterminatedString, rfl⟩) ?_ (by simp)
        fun hfaults => absurd hfaults (List.cons_ne_self _ _))
      simp [Token.awaitsMethod, hcolon, halias]
  · have hne : (s.lastKind? == some (.keyword .alias_)) = false := by simpa using halias
    cases complete with
    | true =>
      simp only [hne, Bool.false_eq_true, if_true, if_false]
      refine .token _ (.value s.faults .operator (Nat.succ_pos n) rfl (by decide) (.inl rfl) ?_
        (by simp) fun _ => hwhole rfl)
      simp [Token.awaitsMethod, halias]
    | false =>
      simp only [hne, Bool.false_eq_true, if_false]
      refine .token _ (.value (⟨_, _⟩ :: s.faults) .operator (Nat.succ_pos n) rfl (by decide)
        (.inr ⟨_, _, words_unterminatedString, rfl⟩) ?_ (by simp)
        fun hfaults => absurd hfaults (List.cons_ne_self _ _))
      simp [Token.awaitsMethod, halias]

/-- A literal of words, or a symbol between delimiters, is one token or left open. -/
lemma lexes_scanVerbatim {bracket : Option Char} {letter d : Char} {kind : TokenKind}
    {cs : List Char} (hrest : s.cursor.rest = '%' :: letter :: d :: cs)
    (hkind : kind = .percentLiteral ∨ kind = .symbol ∧ letter = 's') :
    Lexes nested s spaced (s.scanVerbatim spaced 3 bracket (closingOf d) kind) := by
  have hpos := (Nat.succ_pos 2).trans_le
    (le_verbatimEnd bracket (closingOf d) 0 3 (s.cursor.rest.drop 3))
  generalize hend : verbatimEnd bracket (closingOf d) 0 3 (s.cursor.rest.drop 3) = r at hpos
  obtain ⟨n, complete⟩ := r
  have hpercent : (s.textOf n).toList.head? = some '%' := by
    obtain ⟨m, rfl⟩ : ∃ m, n = m + 1 := ⟨n - 1, by omega⟩
    simp [textOf, hrest]
  have hwhole (hcomplete : complete = true) :
      Token.Whole ⟨kind, s.textOf n, s.spanOf n, spaced, false⟩ := by
    rw [hrest, hcomplete] at hend
    obtain ⟨body, rest, hbody, rfl⟩ := verbatimEnd_true hend
    have htext : PercentText letter (s.textOf (3 + body.length + 1)).toList body := by
      refine ⟨d, ?_⟩
      rw [textOf, String.toList_ofList, hrest]
      simp only [List.drop_succ_cons, List.drop_zero] at hbody
      rw [hbody, Nat.add_assoc, Nat.add_comm 3, List.take_succ_cons, List.take_succ_cons,
        List.take_succ_cons, List.append_cons, List.take_left' (by simp)]
    refine ⟨fun hsymbol => ⟨body, .percent ?_⟩, fun _ => ⟨letter, body, htext⟩⟩
    rcases hkind with hkind | ⟨-, rfl⟩
    · exact absurd (hsymbol.symm.trans hkind) (by decide)
    · exact htext
  have hvalue : isValue kind = true := by rcases hkind with rfl | ⟨rfl, -⟩ <;> rfl
  have hmethod : ∀ sp, .operator = Expectation.methodName ↔
      Token.awaitsMethod ⟨kind, s.textOf n, s.spanOf n, sp, false⟩ s.lastKind? = true := by
    intro sp
    rcases hkind with rfl | ⟨rfl, -⟩ <;> simp [Token.awaitsMethod, hpercent]
  have hsign : kind = .integer ∨ kind = .legacyOctal →
      ∀ c ∈ s.cursor.rest.take n, Number.isSign c = false := by
    rcases hkind with rfl | ⟨rfl, -⟩ <;> simp
  unfold scanVerbatim
  rw [hend]
  dsimp only
  split
  · rename_i hcomplete
    exact .token _ (.value s.faults .operator hpos hvalue (by decide) (.inl rfl) (hmethod spaced)
      hsign fun _ => hwhole hcomplete)
  · exact .token _ (.value (⟨_, _⟩ :: s.faults) .operator hpos hvalue (by decide)
      (.inr ⟨_, _, words_unterminatedString, rfl⟩) (hmethod spaced) hsign
      fun hfaults => absurd hfaults (List.cons_ne_self _ _))

/-- Every form of a percent literal opens a literal or is one token. -/
lemma lexes_scanPercent? {cs : List Char} (hrest : s.cursor.rest = '%' :: cs)
    (hvalue : s.valueExpected spaced = true) (h : s.scanPercent? spaced = some s') :
    Lexes nested s spaced s' := by
  obtain ⟨⟨letter, delimiter⟩, hopener, rfl⟩ := Option.map_eq_some_iff.mp h
  have hopening : s.opening? spaced = percentOpening? cs := by
    simp [opening?, hrest, hvalue]
  rw [hrest, List.tail_cons] at hopener
  rw [percentOpening?, hopener, Option.bind_some] at hopening
  dsimp only at hopening ⊢
  split
  case h_1 | h_2 | h_3 =>
    obtain ⟨rest, rfl⟩ := percentOpener?_letter hopener
    exact lexes_scanVerbatim hrest (.inl rfl)
  case h_4 =>
    obtain ⟨rest, rfl⟩ := percentOpener?_letter hopener
    exact lexes_scanVerbatim hrest (.inr ⟨rfl, rfl⟩)
  · exact .opens _ hopening rfl
  · refine .opens _ (hopening.trans ?_) rfl
    split <;> simp_all

/-- An opening brace is one token, and one more brace is open. -/
lemma lexes_scanOpeningBrace (hcode : s.InCode) :
    Lexes nested s spaced (s.scanOpeningBrace spaced) := by
  obtain ⟨d, outer, hmodes⟩ := hcode
  have heq : s.scanOpeningBrace spaced =
      { (s.emit (.punct .lBrace) 1 spaced).expecting .operand with
        modes := .code (d + 1) :: outer } := by
    have hopened : ((s.emit (.punct .lBrace) 1 spaced).expecting .operand).modes =
        .code d :: outer := hmodes
    simp only [scanOpeningBrace, hopened]
  rw [heq]
  refine .token ⟨.punct .lBrace, s.textOf 1, s.spanOf 1, spaced, false⟩ ?_
  exact
    { takes := .code 1 s.faults _ Nat.one_pos rfl rfl (by simp)
        (.inl ⟨rfl, hmodes ▸ .braces d (d + 1) outer⟩) rfl
      locals := List.Subset.refl _
      defining := fun h => .inr ⟨h, rfl⟩
      method := fun _ => by simp [expecting, Token.awaitsMethod]
      argument := by simp
      remembers := by simp
      bar := by simp
      between := fun _ => rfl
      named := by simp
      spelled := by simp [Token.Spelled]
      whole := fun _ => Token.whole_of_ne (by simp) }

/-- A closing brace closes one of them, or the interpolation. -/
lemma lexes_scanClosingBrace {cs : List Char} (hcode : s.InCode)
    (hrest : s.cursor.rest = '\x7d' :: cs) :
    Lexes nested s spaced (s.scanClosingBrace spaced) := by
  unfold scanClosingBrace
  split
  · rename_i mode outer hmodes
    refine .token ⟨.interpolationEnd, s.textOf 1, s.spanOf 1, spaced, false⟩ ?_
    exact
      { takes := .brace mode outer cs hmodes hrest rfl rfl
        locals := List.Subset.refl _
        defining := fun h => .inr ⟨h, rfl⟩
        method := by simp
        argument := by simp
        remembers := by simp
        bar := by simp
        between := fun _ => rfl
        named := by simp
        spelled := by simp [Token.Spelled]
        whole := fun _ => Token.whole_of_ne (by simp) }
  · rename_i d outer _ hmodes
    refine .token ⟨.punct .rBrace, s.textOf 1, s.spanOf 1, spaced, false⟩ ?_
    exact
      { takes := .code 1 s.faults _ Nat.one_pos rfl rfl (by simp)
          (.inl ⟨rfl, hmodes ▸ .braces d (d - 1) outer⟩) rfl
        locals := List.Subset.refl _
        defining := fun h => .inr ⟨h, rfl⟩
        method := fun _ => by simp [expecting, Token.awaitsMethod]
        argument := by simp
        remembers := by simp
        bar := by simp
        between := fun _ => rfl
        named := by simp
        spelled := by simp [Token.Spelled]
        whole := fun _ => Token.whole_of_ne (by simp) }
  · rename_i hne
    obtain ⟨d, outer, hmodes⟩ := hcode
    exact absurd hmodes (hne d outer)

/-- Operators are marks, or assignments with an operator. -/
def isOperator : TokenKind → Bool
  | .punct _ | .opAssign => true
  | _ => false

/-- The operators of the table are operators. -/
lemma isOperator_of_mem_operators : ∀ op ∈ operators, isOperator op.2 = true := by
  decide

/-- Only the marks behind which a method is named await its name. -/
lemma afterOperator_eq_methodName (kind : TokenKind) (hkind : isOperator kind = true)
    {text : String} {span : Span} {last : Option TokenKind} :
    afterOperator kind = .methodName ↔
      Token.awaitsMethod ⟨kind, text, span, spaced, false⟩ last = true := by
  cases kind with
  | punct mark => cases mark <;> simp [afterOperator, Token.awaitsMethod]
  | opAssign => simp [afterOperator, Token.awaitsMethod]
  | _ => simp [isOperator] at hkind

/-- Behind an operator that names a method no other name of one follows. -/
lemma awaitsMethod_of_isOperatorMethod {t : Token} {last : Option TokenKind}
    (h : t.kind.isOperatorMethod = true) : t.awaitsMethod last = false := by
  unfold Token.awaitsMethod
  split <;> simp_all [TokenKind.isOperatorMethod, Punct.isMethodName]

/-- An operator is one token, or an unexpected character is passed. -/
lemma lexes_scanOperator : Lexes nested s spaced (s.scanOperator spaced) := by
  unfold scanOperator
  split
  · refine .stray _ 1 Nat.one_pos rfl
      (fun hgoing => words_unexpectedCharacter (fun hbreak => ?_) hgoing) notMem_take_one
    cases hpeek : s.cursor.peek with
    | none => simp [hpeek] at hbreak
    | some c => exact hgoing (hpeek.trans (congrArg some (by simpa [hpeek] using hbreak)))
  · rename_i text kind hfind
    have hmem := List.mem_of_find?_eq_some hfind
    have hpos := length_pos_of_mem_operators _ hmem
    have hkind := isOperator_of_mem_operators _ hmem
    dsimp only at hpos hkind ⊢
    generalize text.length = n at hpos
    have hframe : kind.isPlain = true ∧ kind ≠ .newline ∧ kind ≠ .identifier ∧
        kind ≠ .label ∧ kind ≠ .keyword .def_ ∧ kind ≠ .keyword .alias_ ∧ kind ≠ .keyword .undef_ := by
      cases kind <;> simp_all [isOperator, TokenKind.isPlain]
    obtain ⟨hplain, hnewline, hidentifier, hlabel, hdef, halias, hundef⟩ := hframe
    have hnumber : kind ≠ .integer ∧ kind ≠ .legacyOctal := by
      cases kind <;> simp_all [isOperator]
    have hvalue : kind ≠ .symbol ∧ kind ≠ .percentLiteral := by
      cases kind <;> simp_all [isOperator]
    refine .token ⟨kind, s.textOf n, s.spanOf n, spaced, false⟩ ?_
    split
    · -- The operator is the name of the method that is defined.
      rename_i hdefined
      obtain ⟨hdefining, hmethod⟩ := Bool.and_eq_true_iff.mp hdefined
      exact
        { takes := .code n s.faults s.modes hpos rfl hplain (hnewline) (.inl ⟨rfl, .refl _⟩) rfl
          locals := List.Subset.refl _
          defining := by simp
          method := fun _ => by simp [awaitsMethod_of_isOperatorMethod (t := ⟨kind, _, _, _, _⟩) hmethod]
          argument := fun _ h => absurd h hidentifier
          remembers := fun h => absurd h hidentifier
          bar := fun _ h => by
            rw [show s.definingName = true from hdefining] at h
            simp at h
          between := fun _ => rfl
          named := by simp [hdef, halias, hundef]
          spelled := by simp [Token.Spelled, hidentifier, hlabel, hnumber]
          whole := fun _ => Token.whole_of_ne hvalue }
    · rename_i hdefined
      have hleaves (h : s.definingName = true) (behind : Option Char) : Token.leavesUnnamed
          ⟨kind, s.textOf n, s.spanOf n, spaced, false⟩ behind = true := by
        have hmethod : kind.isOperatorMethod = false := by
          simpa [emit, emitFlagged, h] using hdefined
        cases kind with
        | punct mark => simp [Token.leavesUnnamed, hmethod]
        | opAssign => rfl
        | _ => simp [isOperator] at hkind
      by_cases hpipe : kind = .punct .pipe
      · simp only [hpipe, beq_self_eq_true, if_true]
        exact
          { takes := .code n s.faults s.modes hpos rfl rfl (by simp) (.inl ⟨rfl, .refl _⟩) rfl
            locals := List.Subset.refl _
            defining := fun h => .inr ⟨h, hpipe ▸ hleaves h _⟩
            method := fun _ => afterOperator_eq_methodName (.punct .pipe) rfl
            argument := by simp
            remembers := by simp
            bar := fun _ _ h => by simpa [expecting] using h
            between := fun h => absurd rfl h
            named := by simp
            spelled := by simp [Token.Spelled]
            whole := fun _ => Token.whole_of_ne (by simp) }
      · have hne : (kind == .punct .pipe) = false := by simpa using hpipe
        simp only [hne, Bool.false_eq_true, if_false]
        exact
          { takes := .code n s.faults s.modes hpos rfl hplain (hnewline) (.inl ⟨rfl, .refl _⟩) rfl
            locals := List.Subset.refl _
            defining := fun h => .inr ⟨h, hleaves h _⟩
            method := fun _ => afterOperator_eq_methodName kind hkind
            argument := fun _ h => absurd h hidentifier
            remembers := fun h => absurd h hidentifier
            bar := fun h => absurd h hpipe
            between := fun _ => rfl
            named := by simp [hdef, halias, hundef]
            spelled := by simp [Token.Spelled, hidentifier, hlabel, hnumber]
            whole := fun _ => Token.whole_of_ne hvalue }

/-- What may be read in another way is one token, and an operator otherwise. -/
lemma lexes_orOperator {reading : Option Scanner}
    (h : ∀ t, reading = some t → Lexes nested s spaced t) :
    Lexes nested s spaced (orOperator reading s spaced) := by
  cases reading with
  | none => exact lexes_scanOperator
  | some t => exact h t rfl

/-- A name that is no keyword, whatever its kind. -/
def isName (kind : TokenKind) : Bool := kind == .constant || kind == .identifier

/-- A name is read that is the name of a method, or of a constant, or is remembered if it is that of a
variable that is assigned or bound here. -/
lemma Guided.name {kind : TokenKind} {n : ℕ} (names : List String) (e : Expectation)
    (defining : Bool) (hn : 0 < n) (hkind : isName kind = true)
    (hspelled : Token.Spelled ⟨kind, s.textOf n, s.spanOf n, spaced, false⟩)
    (hlocals : s.locals ⊆ names) (hmethod : e ≠ .methodName)
    (hdefining : defining = true →
      s.definingName = true ∧ (Cursor.advanceBy n s.cursor).peek = some '.')
    (hargument : e = .argument → kind = .identifier →
      s.definingName = true ∨ s.expects = .methodName ∨ s.textOf n ∉ names)
    (hremembers : kind = .identifier → s.definingName = false → s.expects ≠ .methodName →
      s.inBlockParameters = true ∨ assigns (Cursor.advanceBy n s.cursor).rest = true →
        s.textOf n ∈ names) :
    Guided s { s.emit kind n spaced with locals := names, expects := e, definingName := defining }
      ⟨kind, s.textOf n, s.spanOf n, spaced, false⟩ := by
  obtain rfl | rfl : kind = .constant ∨ kind = .identifier := by simpa [isName] using hkind
  all_goals exact
    { takes := .code n s.faults s.modes hn rfl rfl (by simp) (.inl ⟨rfl, .refl _⟩) rfl
      locals := hlocals
      defining := fun h => .inr ⟨(hdefining h).1, by simp [Token.leavesUnnamed, emit, emitFlagged,
        (hdefining h).2]⟩
      method := fun _ => by simp [Token.awaitsMethod, hmethod]
      argument := hargument
      remembers := hremembers
      bar := by simp
      between := fun _ => rfl
      named := by simp
      spelled := hspelled
      whole := fun _ => Token.whole_of_ne (by simp) }

/-- Remembering a name changes the names that are known and nothing else. -/
lemma remember_eq (name : String) :
    s.remember name = { s with locals := (s.remember name).locals } := by
  unfold remember
  split <;> rfl

/-- A name that was remembered is known. -/
lemma mem_remember (name : String) : name ∈ (s.remember name).locals := by
  unfold remember
  split
  · rename_i h
    simpa using h
  · exact List.mem_cons_self

/-- Names that were known are known after another one was remembered. -/
lemma subset_remember (name : String) : s.locals ⊆ (s.remember name).locals := by
  unfold remember
  split
  · exact List.Subset.refl _
  · exact List.subset_cons_self _ _

/-- A name begins with neither a dot nor a colon. -/
lemma ne_of_startsName {c : Char} (hc : startsName c = true) : c ≠ '.' ∧ c ≠ ':' := by
  refine ⟨?_, ?_⟩
  · rintro rfl
    revert hc
    decide
  · rintro rfl
    revert hc
    decide

/-- A name that is no keyword is one token, a label included. -/
lemma lexes_scanPlainName {n : ℕ} {c : Char} {cs : List Char} (hn : 0 < n)
    (hrest : s.cursor.rest = c :: cs) (hc : startsName c = true) :
    Lexes nested s spaced
      (s.scanPlainName n spaced ((s.cursor.rest.drop n).head? == some '.')) := by
  have hpeek : (Cursor.advanceBy n s.cursor).peek = (s.cursor.rest.drop n).head? := by
    rw [Cursor.peek, Cursor.rest_advanceBy]
  generalize hkind : (if s.cursor.rest.head?.any Text.isCapital then TokenKind.constant
    else .identifier) = kind
  have hname : isName kind = true := by
    rw [← hkind]
    split <;> rfl
  have hspelled : Token.Spelled ⟨kind, s.textOf n, s.spanOf n, spaced, false⟩ :=
    spelled_textOf hn hrest (ne_of_startsName hc) (by
      constructor <;> rintro rfl <;> simp [isName] at hname)
  unfold scanPlainName
  simp only [hkind]
  refine .token ⟨kind, s.textOf n, s.spanOf n, spaced, false⟩ ?_
  split
  · rename_i hdefining
    refine .name s.locals .argument _ hn hname hspelled (List.Subset.refl _) (by decide) (fun h => ?_)
      (fun _ _ => .inl hdefining) (fun _ h => ?_)
    · exact ⟨hdefining, hpeek.trans (by simpa using h)⟩
    · simp [hdefining] at h
  rename_i hdefining
  replace hdefining : s.definingName = false := Bool.eq_false_iff.mpr hdefining
  have hnone {P : Prop} (h : s.definingName = true) : P := by simp [hdefining] at h
  split
  · rename_i hdot
    have hmethod : s.expects = .methodName := by
      simpa [behindDot, hdefining] using hdot
    exact .name s.locals .argument s.definingName hn hname hspelled (List.Subset.refl _) (by decide) hnone
      (fun _ _ => .inr (.inl hmethod)) (fun _ _ h => absurd hmethod h)
  split
  · rename_i hcapital
    obtain rfl : TokenKind.constant = kind := by simpa [hcapital] using hkind
    exact .name s.locals .operator s.definingName hn hname hspelled (List.Subset.refl _) (by decide) hnone
      (by simp) (by simp)
  · rename_i hcapital
    obtain rfl : TokenKind.identifier = kind := by simpa [hcapital] using hkind
    set after := s.emit .identifier n spaced with hafter
    generalize hknown : (if s.inBlockParameters || assigns after.cursor.rest then
      after.remember (s.textOf n) else after) = known
    have hlocals : known = { after with locals := known.locals } ∧ s.locals ⊆ known.locals := by
      rw [← hknown]
      split
      · exact ⟨remember_eq _, subset_remember (s := after) _⟩
      · exact ⟨rfl, List.Subset.refl _⟩
    have hremembers (h : s.inBlockParameters = true ∨ assigns after.cursor.rest = true) :
        s.textOf n ∈ known.locals := by
      rw [← hknown, if_pos (by simpa using h)]
      exact mem_remember _
    rw [hlocals.1]
    refine .name known.locals _ s.definingName hn rfl hspelled hlocals.2 ?_ hnone (fun h _ => ?_)
      (fun _ _ _ => hremembers)
    · split <;> decide
    · refine .inr (.inr fun hmem => ?_)
      simp [hmem] at h

/-- A keyword is read. Behind `def` only `self` is one, and behind a dot there is none. -/
lemma Guided.keyword {n : ℕ} {dotFollows : Bool} {word : Keyword} (hn : 0 < n)
    (hword : s.keywordHere? n dotFollows = some word) :
    Guided s { s.emit (.keyword word) n spaced with
        definingName := word == .def_ || (s.definingName && word == .self_)
        expects := afterKeyword word }
      ⟨.keyword word, s.textOf n, s.spanOf n, spaced, false⟩ := by
  unfold keywordHere? at hword
  dsimp only at hword
  split at hword
  · simp at hword
  rename_i hhere
  have hself : s.expects = .methodName → word = .self_ := by
    intro hmethod
    have hname : s.definingName = true ∧ s.textOf n = "self" := by
      simp [behindDot, hmethod] at hhere
      simp_all
    rw [hname.2] at hword
    exact (Option.some.inj hword).symm
  exact
    { takes := .code n s.faults s.modes hn rfl rfl (by simp) (.inl ⟨rfl, .refl _⟩) rfl
      locals := List.Subset.refl _
      defining := fun h => by
        simp only [Bool.or_eq_true, beq_iff_eq, Bool.and_eq_true] at h
        exact h.imp (congrArg _) fun h => ⟨h.1, by simp [Token.leavesUnnamed, h.2]⟩
      method := fun _ => by cases word <;> simp [afterKeyword, Token.awaitsMethod]
      argument := by simp
      remembers := by simp
      bar := by simp
      between := fun _ => rfl
      named := fun h hmethod => by simp [hself hmethod] at h
      spelled := by simp [Token.Spelled]
      whole := fun _ => Token.whole_of_ne (by simp) }

/-- Every name is one token, a keyword included. -/
lemma lexes_scanName {c : Char} {cs : List Char}
    (hrest : s.cursor.rest = c :: cs) (hc : startsName c = true) :
    Lexes nested s spaced (s.scanName spaced) := by
  have hpos : 0 < nameLength s.cursor.rest := by
    rw [hrest]
    exact nameLength_pos hc
  unfold scanName
  dsimp only
  split
  · rename_i hlabel
    have hdefining : s.definingName = false := by
      simp [labelAllowed] at hlabel
      exact hlabel.1.1.1.2
    have hn : 0 < nameLength s.cursor.rest + 1 := Nat.succ_pos _
    generalize nameLength s.cursor.rest + 1 = n at hn
    refine .token ⟨.label, s.textOf n, s.spanOf n, spaced, false⟩ ?_
    exact
      { takes := .code n s.faults s.modes hn rfl rfl (by simp) (.inl ⟨rfl, .refl _⟩) rfl
        locals := List.Subset.refl _
        defining := fun h => absurd (hdefining.symm.trans h) (by decide)
        method := fun _ => by simp [expecting, Token.awaitsMethod]
        argument := by simp
        remembers := by simp
        bar := by simp
        between := fun _ => rfl
        named := by simp
        spelled := spelled_textOf hn hrest (ne_of_startsName hc) (by simp)
        whole := fun _ => Token.whole_of_ne (by simp) }
  · -- The equals sign of a setter belongs to its name.
    generalize hn : (if s.definingName &&
        "=(".toList.isPrefixOf (s.cursor.rest.drop (nameLength s.cursor.rest)) then
      nameLength s.cursor.rest + 1 else nameLength s.cursor.rest) = n
    have hn' : 0 < n := by
      rw [← hn]
      split <;> omega
    split
    · rename_i word hword
      exact .token _ (.keyword hn' hword)
    · exact lexes_scanPlainName hn' hrest hc

/-- In code, whatever the first character is, a token, a literal's opener or a fault is read. -/
lemma lexes_scanTokenAt {c : Char} {cs : List Char} (hcode : s.InCode)
    (hrest : s.cursor.rest = c :: cs) (h : s.scanTokenAt nested spaced c = some s') :
    Lexes nested s spaced s' := by
  unfold scanTokenAt at h
  split at h
  · rename_i hc
    exact Option.some.inj h ▸ lexes_scanNumber hrest hc
  split at h
  · rename_i hc
    exact Option.some.inj h ▸ lexes_scanName hrest hc
  split at h
  · exact Option.some.inj h ▸ .opens _ (by simp [opening?, hrest]) rfl
  · exact Option.some.inj h ▸ .opens _ (by simp [opening?, hrest]) rfl
  · exact Option.some.inj h ▸ .opens _ (by simp [opening?, hrest]) rfl
  · exact Option.some.inj h ▸ lexes_scanSigil
  · exact Option.some.inj h ▸ lexes_scanGlobal
  · split at h
    · exact Option.some.inj h ▸ lexes_scanOperator
    · exact Option.some.inj h ▸ lexes_orOperator fun _ => lexes_scanSymbol? hrest
  · split at h
    · exact Option.some.inj h ▸ lexes_orOperator fun _ => lexes_scanCharacter?
    · exact Option.some.inj h ▸ lexes_scanOperator
  · split at h
    · rename_i hvalue
      exact Option.some.inj h ▸ lexes_orOperator fun _ => lexes_scanPercent? hrest hvalue
    · exact Option.some.inj h ▸ lexes_scanOperator
  · split at h
    · rename_i hvalue
      exact Option.some.inj h ▸ .opens _ (by simp [opening?, hrest, hvalue]) rfl
    · exact Option.some.inj h ▸ lexes_scanOperator
  · split at h
    · rename_i o ho
      split at ho
      · rename_i hvalue
        rw [scanHeredoc_eq_map] at h
        obtain ⟨body, hbody, rfl⟩ := Option.map_eq_some_iff.mp h
        exact .heredoc o body hvalue ho hbody rfl
      · simp at ho
    · exact Option.some.inj h ▸ lexes_scanOperator
  · exact Option.some.inj h ▸ lexes_scanOpeningBrace hcode
  · exact Option.some.inj h ▸ lexes_scanClosingBrace hcode hrest
  · exact Option.some.inj h ▸ lexes_scanOperator

/-- An operator that can be defined begins with neither a dot nor a colon. -/
lemma head?_of_mem_definedOperators :
    ∀ op ∈ definedOperators, ∃ c ∈ op.head?, c ≠ '.' ∧ c ≠ ':' := by
  simp [definedOperators]

/-- How the next token of code is read. -/
theorem lexes_scanToken {c : Char} {cs : List Char} (hcode : s.InCode)
    (hrest : s.cursor.rest = c :: cs) (h : s.scanToken nested c = some s') :
    Lexes nested { s with spaceSeen := false } s.spaceSeen s' := by
  unfold scanToken at h
  dsimp only at h
  split at h
  · rename_i n hn
    obtain rfl := Option.some.inj h
    unfold definedOperator? at hn
    split at hn
    · rename_i hdefining
      obtain ⟨op, hop, rfl⟩ := Option.map_eq_some_iff.mp hn
      have hpos := length_pos_of_mem_definedOperators op (List.mem_of_find?_eq_some hop)
      have hspelled : Token.Spelled ⟨.identifier, s.textOf op.length, s.spanOf op.length,
          s.spaceSeen, false⟩ := by
        refine ⟨fun _ => ?_, by simp⟩
        have htext : op = s.cursor.rest.take op.length := by
          have hstarts := List.find?_some hop
          exact List.prefix_iff_eq_take.mp (List.isPrefixOf_iff_prefix.mp hstarts)
        rw [textOf, String.toList_ofList, ← htext]
        exact head?_of_mem_definedOperators op (List.mem_of_find?_eq_some hop)
      exact .token _ (.name s.locals .argument false hpos rfl hspelled (List.Subset.refl _)
        (by decide) (by simp) (fun _ _ => .inl hdefining)
        (fun _ h => absurd (hdefining.symm.trans h) (by decide)))
    · simp at hn
  · exact lexes_scanTokenAt hcode hrest h

/-- A percent literal whose opener is seen is begun there. -/
lemma scanPercent?_of_percentOpening? {o : Opening} {cs : List Char}
    (hrest : s.cursor.rest = '%' :: cs) (ho : percentOpening? cs = some o) :
    s.scanPercent? spaced = some (s.beginLiteral o spaced) := by
  obtain ⟨⟨letter, delimiter⟩, hopener, hopens⟩ := Option.bind_eq_some_iff.mp ho
  rw [scanPercent?, hrest, List.tail_cons, hopener, Option.map_some]
  dsimp only at hopens ⊢
  congr 1
  split at hopens <;> simp_all

/-- The characters that may open a literal. -/
def opensLiteral (c : Char) : Prop := c = '"' ∨ c = '\x60' ∨ c = '\'' ∨ c = '%' ∨ c = '/'

/-- A literal whose opener is seen is begun by the character at the cursor. -/
lemma scanTokenAt_of_opening? {o : Opening} (ho : s.opening? spaced = some o) :
    ∃ c cs, s.cursor.rest = c :: cs ∧ opensLiteral c ∧
      s.scanTokenAt nested spaced c = some (s.beginLiteral o spaced) := by
  unfold opensLiteral
  unfold opening? at ho
  split at ho
  · rename_i cs hrest
    exact ⟨_, _, hrest, by simp, by rw [← Option.some.inj ho]; rfl⟩
  · rename_i cs hrest
    exact ⟨_, _, hrest, by simp, by rw [← Option.some.inj ho]; rfl⟩
  · rename_i cs hrest
    exact ⟨_, _, hrest, by simp, by rw [← Option.some.inj ho]; rfl⟩
  · rename_i cs hrest
    split at ho
    · rename_i hvalue
      have hat : s.scanTokenAt nested spaced '%' =
          if s.valueExpected spaced then
            some (orOperator (s.scanPercent? spaced) s spaced)
          else some (s.scanOperator spaced) := rfl
      refine ⟨_, _, hrest, by simp, ?_⟩
      rw [hat, if_pos hvalue, scanPercent?_of_percentOpening? hrest ho]
      rfl
    · simp at ho
  · rename_i cs hrest
    split at ho
    · rename_i hvalue
      refine ⟨_, _, hrest, by simp, ?_⟩
      rw [← Option.some.inj ho]
      exact if_pos hvalue
    · simp at ho
  · simp at ho

/-- Characters that begin neither what stands between tokens nor a word that is looked for at the
beginning of a line. -/
def beginsToken (c : Char) : Bool := !"_= \t\r\x0b\x0c\\#\n".toList.contains c

/-- A token begins where such a character stands in code. -/
theorem step_of_beginsToken {c : Char} {cs : List Char} (hcode : s.InCode)
    (hrest : s.cursor.rest = c :: cs) (hc : beginsToken c = true) (hdefining : s.definingName = false) :
    s.step nested =
      ({ s with spaceSeen := false }.scanTokenAt nested s.spaceSeen c).map .more := by
  have hnot : c ≠ '_' ∧ c ≠ '=' ∧ c ≠ ' ' ∧ c ≠ '\t' ∧ c ≠ '\r' ∧ c ≠ '\x0b' ∧ c ≠ '\x0c' ∧
      c ≠ '\\' ∧ c ≠ '#' ∧ c ≠ '\n' := by
    simpa [beginsToken] using hc
  have hmarker : atEndMarker (c :: cs) = false := by
    simp [atEndMarker, List.isPrefixOf, Ne.symm hnot.1]
  have hword : atWord "=begin".toList s.cursor.rest = false := by
    rw [hrest]
    simp [atWord, List.isPrefixOf, Ne.symm hnot.2.1]
  have hskip : s.skipTrivia? = none := by
    unfold skipTrivia?
    rw [hword, Bool.and_false, if_neg Bool.false_ne_true, hrest]
    split <;> simp_all
  have hscan : s.scanToken nested c =
      { s with spaceSeen := false }.scanTokenAt nested s.spaceSeen c := by
    unfold scanToken
    dsimp only
    rw [show ({ s with spaceSeen := false } : Scanner).definedOperator? = none by
      simp [definedOperator?, hdefining]]
  obtain ⟨d, outer, hmodes⟩ := hcode
  rw [← hscan]
  unfold step
  rw [hmodes]
  dsimp only
  rw [hrest, hmarker, Bool.and_false, if_neg Bool.false_ne_true, hskip]

/-- A literal that can open at the cursor does, unless the name of a method is expected. -/
theorem step_of_opening? {o : Opening} (hcode : s.InCode) (hdefining : s.definingName = false)
    (ho : s.opening? s.spaceSeen = some o) :
    s.step nested =
      some (.more ({ s with spaceSeen := false }.beginLiteral o s.spaceSeen)) := by
  obtain ⟨c, cs, hrest, hopens, htoken⟩ :=
    @scanTokenAt_of_opening? { s with spaceSeen := false } nested s.spaceSeen o ho
  have hbegins : beginsToken c = true := by
    rcases hopens with rfl | rfl | rfl | rfl | rfl <;> decide
  rw [step_of_beginsToken hcode hrest hbegins hdefining, htoken]
  rfl

/-! ### Between tokens -/

/-- A piece of text that counts as a blank, by its length: a blank or a line break, a continued
line, a comment. -/
inductive Blank : List Char → ℕ → Prop
  | space {c : Char} (hc : c ∈ [' ', '\t', '\r', '\x0b', '\x0c', '\n']) (rest : List Char) :
      Blank (c :: rest) 1
  | continuation (rest : List Char) : Blank ('\\' :: '\n' :: rest) 2
  | comment (rest : List Char) : Blank ('#' :: rest) (('#' :: rest).takeWhile (· != '\n')).length

/-- A blank is at least one character. -/
lemma Blank.pos {cs : List Char} {n : ℕ} (h : Blank cs n) : 0 < n ∧ cs ≠ [] := by
  cases h with
  | space hc rest => exact ⟨Nat.one_pos, List.cons_ne_nil _ _⟩
  | continuation rest => exact ⟨Nat.two_pos, List.cons_ne_nil _ _⟩
  | comment rest => exact ⟨by simp, List.cons_ne_nil _ _⟩

/-- How what stands between tokens is read: a blank or an embedded document is passed over, or a line
break is read, which ends a statement or not. -/
inductive Passes (s s' : Scanner) : Prop
  | blank (n : ℕ) (piece : Blank s.cursor.rest n) (eq : s' = s.skipBlank n)
      (going : s.cursor.rest.head? ≠ some '\n')
  | document (n : ℕ) (top : s.atTopLine = true)
      (word : atWord "=begin".toList s.cursor.rest = true)
      (ended : documentEnd 0 s.cursor.rest = (n, true)) (eq : s' = s.skip n)
  | stray (cause : Fault.Cause) (n : ℕ) (pos : 0 < n) (ahead : s.cursor.rest ≠ [])
      (eq : s' = (s.complain cause (s.spanOf n)).skip n) (words : cause.Lexical)
      (top : s.atTopLine = true)
  | lineBreak (rest : List Char) (tokens : List Token) (e : Expectation)
      (ahead : s.cursor.rest = '\n' :: rest)
      (read : tokens = s.tokens ∧ e = s.expects ∨
        tokens = ⟨.newline, s.textOf 1, s.spanOf 1, false, false⟩ :: s.tokens ∧ e = .operand)
      (eq : s' = { s with
        cursor := s.resume.getD (.advanceBy 1 s.cursor)
        tokens := tokens
        expects := e
        spaceSeen := true
        definingName := false
        inBlockParameters := false
        resume := none })

/-- A line break is passed. -/
lemma passes_scanNewline {rest : List Char} (hrest : s.cursor.rest = '\n' :: rest) :
    Passes s s.scanNewline := by
  by_cases hmatters : s.newlineMatters = true
  · refine .lineBreak rest _ .operand hrest (.inr ⟨rfl, rfl⟩) ?_
    simp [scanNewline, hmatters, emit, emitFlagged, expecting]
  · refine .lineBreak rest s.tokens s.expects hrest (.inl ⟨rfl, rfl⟩) ?_
    simp [scanNewline, hmatters, skip]

/-- A document is passed. -/
lemma passes_skipDocument (htop : s.atTopLine = true)
    (hword : atWord "=begin".toList s.cursor.rest = true) : Passes s s.skipDocument := by
  have hne : s.cursor.rest ≠ [] := ne_nil_of_atWord (by decide) hword
  unfold skipDocument
  split
  · rename_i n hn
    exact .document n htop hword hn rfl
  · rename_i n hn
    have hlength := documentEnd_false hn
    have := List.length_pos_of_ne_nil hne
    have hwords : Fault.Cause.unterminatedComment.Lexical := ⟨rfl, by decide⟩
    exact .stray _ n (by omega) hne rfl hwords htop

/-- No token begins at a line break. -/
lemma going_of_skipTrivia? (h : s.skipTrivia? = none) : s.cursor.rest.head? ≠ some '\n' := by
  intro hbreak
  obtain ⟨cs, hrest⟩ := List.head?_eq_some_iff.mp hbreak
  unfold skipTrivia? at h
  split at h
  · simp at h
  · rw [hrest] at h
    simp at h

/-- How what stands between tokens is read. -/
theorem passes_skipTrivia? (h : s.skipTrivia? = some s') : Passes s s' := by
  unfold skipTrivia? at h
  split at h
  · rename_i hdocument
    obtain ⟨htop, hword⟩ := Bool.and_eq_true_iff.mp hdocument
    exact Option.some.inj h ▸ passes_skipDocument htop hword
  · split at h
    case h_8 cs hrest => exact Option.some.inj h ▸ passes_scanNewline hrest
    case h_9 => simp at h
    all_goals
      rename_i cs hrest
      obtain rfl := Option.some.inj h
    case h_6 => exact .blank 2 (hrest ▸ .continuation cs) rfl (by simp [hrest])
    case h_7 =>
      refine .blank _ ?_ rfl (by simp [hrest])
      rw [Cursor.run, hrest]
      exact .comment cs
    all_goals exact .blank 1 (hrest ▸ .space (by simp) cs) rfl (by simp [hrest])

end Scanner

end RubyCheck
