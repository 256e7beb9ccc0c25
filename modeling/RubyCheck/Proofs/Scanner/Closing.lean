import Mathlib.Algebra.Order.BigOperators.Group.List
import RubyCheck.Proofs.Scanner.Bracket
import RubyCheck.Proofs.Scanner.Termination
import RubyCheck.Proofs.Scanner.Tiling

/-!
# Literals that never close end on their line

`literals` reads the literals of a text off its tokens: an opening token, the content that lies
directly in the literal, the stretches of code inside it, and the closing token.  A closing token
without text stands for a delimiter that the text never wrote.  In a text without heredocs such a
literal is ended on the line it was opened on, but for escaped line breaks and the lines of the code
inside it (`Literal.Cut`): a literal is cut at a line break if it ends on its line, and where the
text runs out nothing is closed that was opened on an earlier line, because the scanner goes back to
such an opener first.  `Lined` is the invariant; it ties the open literals of the tokens to the
modes and the checkpoints of the scanner.
-/

namespace RubyCheck

/-! ### The literals of the tokens -/

/-- Whether a text has a line break that no backslash escapes.  A backslash takes the next character
with it. -/
def breaksLine : List Char → Bool
  | [] => false
  | '\\' :: _ :: cs => breaksLine cs
  | c :: cs => c == '\n' || breaksLine cs

/-- A character that is no backslash breaks the line if it is a line break, or if the rest does. -/
lemma breaksLine_cons {c : Char} (hc : c ≠ '\\') (cs : List Char) :
    breaksLine (c :: cs) = (c == '\n' || breaksLine cs) := by
  rw [breaksLine]
  intro d ds heq
  exact absurd heq hc

/-- Without a line break no line is broken. -/
lemma breaksLine_of_notMem {cs : List Char} (h : '\n' ∉ cs) : breaksLine cs = false := by
  fun_induction breaksLine cs with
  | case1 => rfl
  | case2 d cs ih =>
    apply ih
    intro hmem
    exact h (List.mem_cons_of_mem _ (List.mem_cons_of_mem _ hmem))
  | case3 c cs _ ih =>
    rw [List.mem_cons, not_or] at h
    have hc : (c == '\n') = false := beq_false_of_ne fun heq => h.1 heq.symm
    rw [hc, ih h.2]
    rfl

/-- The number of line breaks in the text of a token. -/
def Token.lineBreaks (t : Token) : ℕ := t.text.toList.count '\n'

/-- The number of lines from the beginning of a span to its end. -/
def Span.lines (span : Span) : ℕ := span.stop.line - span.start.line

/-- A literal as far as it has been read. -/
structure Unclosed where
  opening : Token
  /-- The content that lies directly in the literal, from the last stretch to the first. -/
  content : List Token
  /-- The spans of the code inside the literal, with the marks around it. -/
  code : List Span

/-- The line that the content of a literal and the code inside it lead to from its opener. -/
def Unclosed.reaches (u : Unclosed) : ℕ :=
  u.opening.span.stop.line + (u.content.map Token.lineBreaks).sum + (u.code.map Span.lines).sum

/-- A literal with the token that closes it. -/
structure Literal extends Unclosed where
  closing : Token

/-- A literal that is cut short: no line break in its content lacks a backslash, and it is closed on
the line of its opener, but for escaped line breaks and for the lines of the code inside it. -/
structure Literal.Cut (l : Literal) : Prop where
  escaped : ∀ t ∈ l.content, breaksLine t.text.toList = false
  line_eq : l.closing.span.start.line = l.reaches

/-- What a token can stand in: a literal, or the code inside one behind its mark. -/
inductive Layer where
  | literal (u : Unclosed)
  | code (mark : Token)

/-- The token that opens the literal, if it is one. -/
def Layer.opening? : Layer → Option Token
  | literal u => some u.opening
  | code _ => none

/-- The literals of some tokens: those that are still open, from the inside out, with the code inside
them, and those that are closed. -/
structure Literals where
  layers : List Layer
  closed : List Literal

/-- The literals with one more token. -/
def Literals.read (r : Literals) (t : Token) : Literals :=
  match t.kind, r.layers with
  | .stringBegin, ls | .regexBegin, ls => { r with layers := .literal ⟨t, [], []⟩ :: ls }
  | .stringContent, .literal u :: ls =>
    { r with layers := .literal { u with content := t :: u.content } :: ls }
  | .interpolationBegin, .literal u :: ls => { r with layers := .code t :: .literal u :: ls }
  | .interpolationEnd, .code mark :: .literal u :: ls =>
    { r with
      layers := .literal { u with code := ⟨mark.span.start, t.span.stop⟩ :: u.code } :: ls }
  | .stringEnd, .literal u :: ls => ⟨ls, ⟨u, t⟩ :: r.closed⟩
  | _, _ => r

/-- The literals of some tokens, given from the last to the first. -/
def reading : List Token → Literals
  | [] => ⟨[], []⟩
  | t :: ts => (reading ts).read t

/-- The literals of some tokens that are closed there. -/
def literals (ts : List Token) : List Literal := (ts.foldl Literals.read ⟨[], []⟩).closed

/-- Reading from the last token to the first is reading in order. -/
lemma foldl_read (ts : List Token) : ts.reverse.foldl Literals.read ⟨[], []⟩ = reading ts := by
  induction ts with
  | nil => rfl
  | cons t ts ih => rw [List.reverse_cons, List.foldl_concat, ih, reading]

/-- The literals of some tokens are those that have been closed when all are read. -/
lemma literals_reverse (ts : List Token) : literals ts.reverse = (reading ts).closed := by
  rw [literals, foldl_read]

section Read

variable {r : Literals} {t : Token} {u : Unclosed} {ls : List Layer} {mark : Token}

/-- A token of code and the end of the text change nothing. -/
lemma Literals.read_plain (h : t.kind.isPlain = true ∨ t.kind = .eof) : r.read t = r := by
  unfold Literals.read
  rcases h with h | h
  · split <;> simp_all [TokenKind.isPlain]
  · simp [h]

/-- An opening token opens a literal around what is read next. -/
lemma Literals.read_begin (h : t.kind = .stringBegin ∨ t.kind = .regexBegin) :
    r.read t = { r with layers := .literal ⟨t, [], []⟩ :: r.layers } := by
  unfold Literals.read
  rcases h with h | h <;> rw [h]

/-- Content belongs to the innermost literal. -/
lemma Literals.read_content (h : t.kind = .stringContent) (hr : r.layers = .literal u :: ls) :
    r.read t = { r with layers := .literal { u with content := t :: u.content } :: ls } := by
  unfold Literals.read
  rw [h, hr]

/-- Code inside a literal is put on top of it. -/
lemma Literals.read_interpolationBegin (h : t.kind = .interpolationBegin)
    (hr : r.layers = .literal u :: ls) :
    r.read t = { r with layers := .code t :: .literal u :: ls } := by
  unfold Literals.read
  rw [h, hr]

/-- Code inside a literal belongs to it as a stretch from its mark to its end. -/
lemma Literals.read_interpolationEnd (h : t.kind = .interpolationEnd)
    (hr : r.layers = .code mark :: .literal u :: ls) :
    r.read t =
      { r with
        layers := .literal { u with code := ⟨mark.span.start, t.span.stop⟩ :: u.code } :: ls } := by
  unfold Literals.read
  rw [h, hr]

/-- A closing token closes the innermost literal. -/
lemma Literals.read_stringEnd (h : t.kind = .stringEnd) (hr : r.layers = .literal u :: ls) :
    r.read t = ⟨ls, ⟨u, t⟩ :: r.closed⟩ := by
  unfold Literals.read
  rw [h, hr]

/-- The tokens that open the literals, whether these are closed or not. -/
def Literals.openings (r : Literals) : List Token :=
  r.layers.filterMap Layer.opening? ++ r.closed.map (·.opening)

/-- No literal gets lost. -/
lemma Literals.openings_subset (r : Literals) (t : Token) : r.openings ⊆ (r.read t).openings := by
  obtain ⟨layers, closed⟩ := r
  intro x hx
  unfold Literals.openings at hx
  unfold Literals.read
  dsimp only at hx ⊢
  split
  case h_1 | h_2 => exact List.mem_cons_of_mem _ hx
  case h_3 | h_4 | h_5 | h_7 => exact hx
  case h_6 => exact List.perm_middle.symm.subset hx

/-- Every opening token opens a literal. -/
theorem mem_openings {ts : List Token} (ht : t ∈ ts)
    (hkind : t.kind = .stringBegin ∨ t.kind = .regexBegin) : t ∈ (reading ts).openings := by
  induction ts with
  | nil => simp at ht
  | cons u ts ih =>
    rw [reading]
    rcases List.mem_cons.mp ht with rfl | ht
    · rw [Literals.read_begin hkind]
      exact List.mem_cons_self
    · exact Literals.openings_subset _ _ (ih ht)

end Read

namespace Scanner

variable {source : List Char} {s s' t : Scanner} {nested : Scanner → Option Scanner}

/-! ### Content of literals that end on their line -/

/-- The text of a token is what is in front of the cursor. -/
lemma toList_textOf (n : ℕ) : (s.textOf n).toList = s.cursor.rest.take n := String.toList_ofList

/-- In a literal that ends on its line, a stretch of content counted on from `n` has no line break
without a backslash. -/
theorem contentEnd_singleLine {l l' : OpenLiteral} {n k : ℕ} {cs : List Char} {stop : ContentEnd}
    (hsingle : l.singleLine = true) (h : contentEnd l n cs = (stop, n + k, l')) :
    breaksLine (cs.take k) = false := by
  fun_induction contentEnd l n cs generalizing k with
  | case1 l n =>
    rw [List.take_nil]
    rfl
  | case2 l n =>
    obtain ⟨-, rfl, -⟩ := by simpa [eq_comm] using h
    rfl
  | case3 l n cs ih =>
    obtain ⟨j, hj, -⟩ := contentEnd_spec h
    obtain rfl : k = j + 2 := by omega
    exact ih hsingle (by rw [h, hj])
  | case4 l n d cs _ ih =>
    obtain ⟨j, hj, -⟩ := contentEnd_spec h
    obtain rfl : k = j + 2 := by omega
    exact ih hsingle (by rw [h, hj])
  | case5 l n cs _ =>
    obtain rfl : k = 0 := by simpa [eq_comm] using congrArg (·.2.1) h
    rfl
  | case6 l n cs hnot _ => exact absurd hsingle hnot
  | case7 l n c cs _ _ _ _ _ =>
    obtain rfl : k = 0 := by simpa [eq_comm] using congrArg (·.2.1) h
    rfl
  | case8 l n c cs _ _ _ _ _ _ _ =>
    obtain rfl : k = 0 := by simpa [eq_comm] using congrArg (·.2.1) h
    rfl
  | case9 l n c cs hlast hbroken hescaped hbreak _ _ _ ih
  | case10 l n c cs hlast hbroken hescaped hbreak _ _ _ ih
  | case11 l n c cs hlast hbroken hescaped hbreak _ _ _ ih =>
    obtain ⟨j, hj, -⟩ := contentEnd_spec h
    obtain rfl : k = j + 1 := by omega
    have hc : c ≠ '\\' := by
      rintro rfl
      cases cs with
      | nil => exact hlast rfl rfl
      | cons d ds => exact hescaped d ds rfl rfl
    have hline : (c == '\n') = false := beq_false_of_ne hbreak
    rw [List.take_succ_cons, breaksLine_cons hc, hline, Bool.false_or]
    exact ih hsingle (by rw [h, hj])

/-! ### The invariant -/

/-- What is known of an open literal that has been read up to a position, of its checkpoint, and of
its tokens.  `single` are the openers whose literals end on their line. -/
structure Known (single : List ℕ) (p : Position) (l : OpenLiteral) (c : Checkpoint)
    (u : Unclosed) : Prop where
  opener_eq : c.opener = u.opening.span.start.byte
  line_eq : c.line = u.opening.span.start.line
  ordered : u.opening.span.start.line ≤ u.opening.span.stop.line
  behind : u.opening.span.start.byte < p.byte
  reaches : p.line = u.reaches
  forced : u.opening.span.start.byte ∈ single → l.singleLine = true
  clean : l.singleLine = true → ∀ t ∈ u.content, breaksLine t.text.toList = false

/-- The open literals of the tokens are those among the modes, each with its checkpoint, and the
innermost one has been read up to a position. -/
inductive Layered (single : List ℕ) :
    Position → List Mode → List Layer → List Checkpoint → Prop
  | outermost (p : Position) (d : ℕ) : Layered single p [.code d] [] []
  | literal {p : Position} {l : OpenLiteral} {d : ℕ} {ms : List Mode} {c : Checkpoint}
      {u : Unclosed} {ls : List Layer} {cs : List Checkpoint} (known : Known single p l c u)
      (outer : Layered single u.opening.span.start (.code d :: ms) ls cs) :
      Layered single p (.literal l :: .code d :: ms) (.literal u :: ls) (c :: cs)
  | code {p : Position} {l : OpenLiteral} {ms : List Mode} {mark : Token} {u : Unclosed}
      {ls : List Layer} {cs : List Checkpoint} (d : ℕ)
      (byte_le : mark.span.start.byte ≤ p.byte) (line_le : mark.span.start.line ≤ p.line)
      (inside : Layered single mark.span.start (.literal l :: ms) (.literal u :: ls) cs) :
      Layered single p (.code d :: .literal l :: ms) (.code mark :: .literal u :: ls) cs

section Layered

variable {single single' : List ℕ} {p q : Position} {ms : List Mode} {ls : List Layer}
  {cs : List Checkpoint} {d : ℕ}

/-- Code may be read on, and braces opened and closed in it. -/
lemma Layered.read_on (h : Layered single p (.code d :: ms) ls cs) (d' : ℕ)
    (hbyte : p.byte ≤ q.byte) (hline : p.line ≤ q.line) :
    Layered single q (.code d' :: ms) ls cs := by
  cases h with
  | outermost => exact .outermost q d'
  | code _ byte_le line_le inside =>
    exact .code d' (byte_le.trans hbyte) (line_le.trans hline) inside

/-- Openers that end their literals on their line may be added if they are not among those that are
open. -/
lemma Layered.grow (h : Layered single p ms ls cs)
    (hnew : ∀ x ∈ single', x ∈ single ∨ p.byte ≤ x) : Layered single' p ms ls cs := by
  induction h with
  | outermost p d => exact .outermost p d
  | literal known outer ih =>
    have hopener := known.behind
    refine .literal { known with forced := fun hmem => ?_ } (ih fun x hx => ?_)
    · rcases hnew _ hmem with hold | hlater
      · exact known.forced hold
      · omega
    · exact (hnew x hx).imp_right fun hle => by omega
  | code d byte_le line_le inside ih =>
    exact .code d byte_le line_le (ih fun x hx => (hnew x hx).imp_right byte_le.trans)

/-- An open literal is known, and code stands around it. -/
lemma Layered.of_literal {l : OpenLiteral} (h : Layered single p (.literal l :: ms) ls cs) :
    ∃ u ls' c cs', ls = .literal u :: ls' ∧ cs = c :: cs' ∧ Known single p l c u ∧
      Layered single u.opening.span.start ms ls' cs' ∧ ∃ d outer, ms = .code d :: outer := by
  cases h with
  | @literal _ _ d outer c u ls' cs' known outside =>
    exact ⟨u, ls', c, cs', rfl, rfl, known, outside, d, outer, rfl⟩

/-- The code around a literal has been read as far as the literal. -/
lemma Known.around {l : OpenLiteral} {c : Checkpoint} {u : Unclosed} (h : Known single p l c u)
    (outside : Layered single u.opening.span.start (.code d :: ms) ls cs) :
    Layered single p (.code d :: ms) ls cs := by
  have hline : u.opening.span.start.line ≤ p.line := by
    rw [h.reaches, Unclosed.reaches, Nat.add_assoc]
    exact h.ordered.trans (Nat.le_add_right _ _)
  exact outside.read_on d h.behind.le hline

/-- The code inside a literal began where the literal had been read to. -/
lemma Layered.of_code {m : Mode} (h : Layered single p (.code d :: m :: ms) ls cs) :
    ∃ mark u ls', ls = .code mark :: .literal u :: ls' ∧ mark.span.start.byte ≤ p.byte ∧
      mark.span.start.line ≤ p.line ∧
      Layered single mark.span.start (m :: ms) (.literal u :: ls') cs ∧ ∃ l, m = .literal l := by
  cases h with
  | @code _ l _ mark u ls' _ _ byte_le line_le inside =>
    exact ⟨mark, u, ls', rfl, byte_le, line_le, inside, l, rfl⟩

/-- The openers of open literals lie behind the place that has been read up to. -/
lemma Layered.opener_lt (h : Layered single p ms ls cs) : ∀ c ∈ cs, c.opener < p.byte := by
  induction h with
  | outermost => simp
  | literal known outer ih =>
    have hbehind := known.behind
    intro c hc
    rcases List.mem_cons.mp hc with rfl | hc
    · exact known.opener_eq ▸ hbehind
    · exact (ih c hc).trans hbehind
  | code d byte_le line_le inside ih => exact fun c hc => (ih c hc).trans_le byte_le

/-- In outermost code no literal is open among the tokens. -/
lemma Layered.layers_eq_nil (h : Layered single p ms ls cs) (hms : ms.length = 1) : ls = [] := by
  cases h with
  | outermost => rfl
  | literal => simp at hms
  | code => simp at hms

end Layered

/-- The open literals of a snapshot are known, and those that were never closed are cut at the end
of their lines. -/
structure Lined (source : List Char) (single : List ℕ) (r : Snapshot) : Prop where
  tiled : Tiled source r
  layered : Layered single r.cursor.position r.modes (reading r.tokens).layers r.openLiterals
  cut : ∀ l ∈ (reading r.tokens).closed, l.closing.text = "" → l.Cut

/-- At the beginning the invariant holds of no tokens. -/
lemma lined_ofText (source : List Char) : Lined source [] (ofText source).snapshot where
  tiled := tiled_ofText source
  layered := .outermost _ 0
  cut := by simp [ofText, ofCursor, snapshot, reading]

section Lined

variable {single single' : List ℕ} {r r' : Snapshot}

/-- The invariant is kept if more literals that begin here or later are to end on their lines. -/
lemma Lined.grow (h : Lined source single r)
    (hnew : ∀ x ∈ single', x ∈ single ∨ r.cursor.position.byte ≤ x) : Lined source single' r where
  tiled := h.tiled
  layered := h.layered.grow hnew
  cut := h.cut

/-- Reading on along the text. -/
lemma byte_line_le {c : Cursor} (n : ℕ) (h : c = .advanceBy n s.cursor) :
    s.cursor.position.byte ≤ c.position.byte ∧ s.cursor.position.line ≤ c.position.line := by
  subst h
  refine ⟨Cursor.byte_le_byte_advanceBy n _, ?_⟩
  rw [Cursor.line_advanceBy]
  exact Nat.le_add_right _ _

/-- Code is read on without a token that opens or closes anything. -/
lemma Lined.read_code {n : ℕ} {ms : List Mode} (h : Lined source single s.snapshot)
    (hcode : s.InCode) (hlayers : SameLayers s.modes ms) (htiled : Tiled source r')
    (hcursor : r'.cursor = .advanceBy n s.cursor) (hmodes : r'.modes = ms)
    (hopen : r'.openLiterals = s.openLiterals)
    (hreading : reading r'.tokens = reading s.tokens) : Lined source single r' := by
  refine ⟨htiled, ?_, ?_⟩
  · obtain ⟨d, outer, hcode⟩ := hcode
    have hlayered : Layered single s.cursor.position s.modes (reading s.tokens).layers
      s.openLiterals := h.layered
    obtain ⟨hbyte, hline⟩ := byte_line_le n hcursor
    rw [hmodes, hopen, hreading]
    rw [hcode] at hlayered hlayers
    cases hlayers with
    | refl => exact hlayered.read_on d hbyte hline
    | braces _ d' => exact hlayered.read_on d' hbyte hline
  · rw [hreading]
    exact h.cut

/-- A literal is closed by a token, which the text wrote or which cuts the literal. -/
lemma Lined.close {l : OpenLiteral} {outer : List Mode} {u : Token} {n : ℕ}
    (h : Lined source single s.snapshot) (hmodes : s.modes = .literal l :: outer)
    (htiled : Tiled source r') (hcursor : r'.cursor = .advanceBy n s.cursor)
    (houter : r'.modes = outer) (hopen : r'.openLiterals = s.openLiterals.tail)
    (htokens : r'.tokens = u :: s.tokens) (hkind : u.kind = .stringEnd)
    (hcut : u.text = "" → ∀ c v, s.openLiterals.head? = some c →
      Known single s.cursor.position l c v → Literal.Cut ⟨v, u⟩) : Lined source single r' := by
  have hlayered : Layered single s.cursor.position s.modes (reading s.tokens).layers
    s.openLiterals := h.layered
  rw [hmodes] at hlayered
  obtain ⟨v, ls, c, cs, hls, hcs, hknown, houtside, d, outer', rfl⟩ := hlayered.of_literal
  obtain ⟨hbyte, hline⟩ := byte_line_le n hcursor
  have hreading : reading r'.tokens = ⟨ls, ⟨v, u⟩ :: (reading s.tokens).closed⟩ := by
    rw [htokens, reading, Literals.read_stringEnd hkind hls]
  refine ⟨htiled, ?_, ?_⟩
  · rw [houter, hopen, hreading, hcs]
    exact (hknown.around houtside).read_on d hbyte hline
  · rw [hreading]
    refine List.forall_mem_cons.mpr ⟨fun htext => ?_, h.cut⟩
    exact hcut htext c v (by rw [hcs, List.head?_cons]) hknown

/-- What is known of an open literal is known of the same literal further on. -/
lemma Known.of_sameOpening {p : Position} {l l' : OpenLiteral} {c : Checkpoint} {u : Unclosed}
    (h : Known single p l c u) (hl : l.SameOpening l') : Known single p l' c u :=
  { h with
    forced := by
      rw [hl.singleLine]
      exact h.forced
    clean := by
      rw [hl.singleLine]
      exact h.clean }

/-- Content is read over the lines that its text has. -/
lemma Known.read {p q : Position} {l : OpenLiteral} {c : Checkpoint} {u : Unclosed} {t : Token}
    (h : Known single p l c u) (hbyte : p.byte ≤ q.byte) (hline : q.line = p.line + t.lineBreaks)
    (hclean : l.singleLine = true → breaksLine t.text.toList = false) :
    Known single q l c { u with content := t :: u.content } :=
  { h with
    behind := h.behind.trans_le hbyte
    reaches := by
      have hreaches := h.reaches
      simp only [Unclosed.reaches, List.map_cons, List.sum_cons] at hreaches ⊢
      omega
    clean := fun hsingle => List.forall_mem_cons.mpr ⟨hclean hsingle, h.clean hsingle⟩ }

/-- Reading content keeps the invariant. -/
lemma Lined.content (h : Lined source single s.snapshot) (hmove : Content s t) :
    Lined source single t.snapshot := by
  have htiled := h.tiled.content hmove
  have hlayered : Layered single s.cursor.position s.modes (reading s.tokens).layers
    s.openLiterals := h.layered
  obtain ⟨l, l', outer, stop, n, hmodes, hends, rfl⟩ := hmove
  obtain ⟨-, -, -, -, hl⟩ := contentEnd_spec hends
  rw [hmodes] at hlayered
  obtain ⟨u, ls, c, cs, hls, hcs, hknown, houtside, d, outer', rfl⟩ := hlayered.of_literal
  refine ⟨htiled, ?_, ?_⟩ <;>
    rcases snapshot_emitContent (s := { s with modes := .literal l' :: .code d :: outer' }) n with
      ⟨hsnap, -⟩ | ⟨-, hsnap⟩ <;> rw [hsnap]
  · change Layered _ _ _ (reading s.tokens).layers s.openLiterals
    rw [hls, hcs]
    exact .literal (hknown.of_sameOpening hl) houtside
  · have hline : (Cursor.advanceBy n s.cursor).position.line = s.cursor.position.line +
        Token.lineBreaks ⟨.stringContent, s.textOf n, s.spanOf n, false, false⟩ := by
      rw [Token.lineBreaks, toList_textOf]
      exact Cursor.line_advanceBy n s.cursor
    have hclean : l.singleLine = true → breaksLine (s.textOf n).toList = false := by
      intro hsingle
      rw [toList_textOf]
      exact contentEnd_singleLine hsingle (by rw [hends, Nat.zero_add])
    have hread := hknown.read (Cursor.byte_le_byte_advanceBy n _) hline hclean
    change Layered _ _ _ (reading (_ :: s.tokens)).layers s.openLiterals
    rw [reading, Literals.read_content rfl hls, hcs]
    exact .literal (hread.of_sameOpening hl) houtside
  · exact h.cut
  · change ∀ x ∈ (reading (_ :: s.tokens)).closed, _
    rw [reading, Literals.read_content rfl hls]
    exact h.cut

/-- A literal opens. -/
lemma Lined.begin {o : Opening} {spaced : Bool} (h : Lined source single s.snapshot)
    (hcode : s.InCode) (hpos : 0 < o.width) (hahead : s.cursor.rest ≠ [])
    (htiled : Tiled source (s.beginLiteral o spaced).snapshot)
    (hforced : s.cursor.position.byte ∈ single → (s.openedLiteral o).singleLine = true) :
    Lined source single (s.beginLiteral o spaced).snapshot := by
  have hlayered : Layered single s.cursor.position s.modes (reading s.tokens).layers
    s.openLiterals := h.layered
  have hbegin : (s.openingToken o spaced).kind = .stringBegin ∨
      (s.openingToken o spaced).kind = .regexBegin := by
    unfold openingToken
    cases o.flavor with
    | regex => exact .inr rfl
    | string | heredoc => exact .inl rfl
  obtain ⟨d, outer, hcode⟩ := hcode
  obtain ⟨-, hline⟩ := byte_line_le (s := s) o.width rfl
  refine ⟨htiled, ?_, ?_⟩ <;> rw [snapshot_beginLiteral]
  · change Layered _ _ _ (reading (_ :: s.tokens)).layers (_ :: s.openLiterals)
    rw [reading, Literals.read_begin hbegin]
    dsimp only
    rw [hcode] at hlayered ⊢
    have hbehind := Cursor.byte_lt_byte_advanceBy hpos hahead
    exact .literal ⟨rfl, rfl, hline, hbehind, rfl, hforced, by simp⟩ hlayered
  · change ∀ x ∈ (reading (_ :: s.tokens)).closed, _
    rw [reading, Literals.read_begin hbegin]
    exact h.cut

/-- Code begins inside a literal. -/
lemma Lined.beginInterpolation {l : OpenLiteral} {outer : List Mode}
    (h : Lined source single s.snapshot) (hmodes : s.modes = .literal l :: outer)
    (htiled : Tiled source s.beginInterpolation.snapshot) :
    Lined source single s.beginInterpolation.snapshot := by
  have hlayered : Layered single s.cursor.position s.modes (reading s.tokens).layers
    s.openLiterals := h.layered
  rw [hmodes] at hlayered
  obtain ⟨u, ls, c, cs, hls, -⟩ := hlayered.of_literal
  obtain ⟨hbyte, hline⟩ := byte_line_le (s := s) 2 rfl
  refine ⟨htiled, ?_, ?_⟩
  · change Layered _ _ (.code 0 :: s.modes) (reading (_ :: s.tokens)).layers s.openLiterals
    rw [reading, Literals.read_interpolationBegin rfl hls, hmodes]
    rw [hls] at hlayered
    exact .code 0 hbyte hline hlayered
  · change ∀ x ∈ (reading (_ :: s.tokens)).closed, _
    rw [reading, Literals.read_interpolationBegin rfl hls]
    exact h.cut

/-- The code inside a literal ends, and the literal goes on. -/
lemma Lined.endInterpolation {d n : ℕ} {m : Mode} {outer : List Mode} {u : Token}
    (h : Lined source single s.snapshot) (hmodes : s.modes = .code d :: m :: outer)
    (htiled : Tiled source r') (hcursor : r'.cursor = .advanceBy n s.cursor)
    (houter : r'.modes = m :: outer) (hopen : r'.openLiterals = s.openLiterals)
    (htokens : r'.tokens = u :: s.tokens) (hkind : u.kind = .interpolationEnd)
    (hstop : u.span.stop = r'.cursor.position) : Lined source single r' := by
  have hlayered : Layered single s.cursor.position s.modes (reading s.tokens).layers
    s.openLiterals := h.layered
  rw [hmodes] at hlayered
  obtain ⟨mark, v, ls, hls, hmark, hmarkLine, hinside, l, rfl⟩ := hlayered.of_code
  obtain ⟨_, _, c, cs, hlayers, hcs, hknown, houtside, d', outer', rfl⟩ := hinside.of_literal
  obtain ⟨hv, rfl⟩ := List.cons.inj hlayers
  obtain rfl := Layer.literal.inj hv
  obtain ⟨hbyte, hline⟩ := byte_line_le n hcursor
  have hknown' : Known single r'.cursor.position l c
      { v with code := ⟨mark.span.start, u.span.stop⟩ :: v.code } :=
    { hknown with
      behind := hknown.behind.trans_le (hmark.trans hbyte)
      reaches := by
        have hreaches := hknown.reaches
        simp only [Unclosed.reaches, List.map_cons, List.sum_cons, Span.lines] at hreaches ⊢
        rw [hstop]
        omega }
  refine ⟨htiled, ?_, ?_⟩
  · rw [houter, hopen, htokens, reading, Literals.read_interpolationEnd hkind hls, hcs]
    exact .literal hknown' houtside
  · rw [htokens, reading, Literals.read_interpolationEnd hkind hls]
    exact h.cut

/-- A move forward keeps the open literals known and cuts those that it closes unwritten. -/
theorem Lined.forward (hsource : ¬ "<<".toList <:+: source) (hs : Stacked s.snapshot)
    (h : Lined source s.singleLine s.snapshot) (hmove : Forward nested s s') :
    Lined source s'.singleLine s'.snapshot := by
  have htiled := h.tiled.forward hsource hmove
  have hgrown : Lined source s'.singleLine s.snapshot :=
    h.grow fun x hx => (hmove.mem_singleLine hx).imp_right Eq.ge
  cases hmove with
  | blank n code piece core_eq =>
    rw [snapshot_eq_of_core core_eq] at htiled ⊢
    exact hgrown.read_code code (.refl _) htiled rfl rfl rfl rfl
  | document n code top word ended core_eq =>
    rw [snapshot_eq_of_core core_eq] at htiled ⊢
    exact hgrown.read_code code (.refl _) htiled rfl rfl rfl rfl
  | stray cause n code pos ahead core_eq =>
    rw [snapshot_eq_of_core core_eq] at htiled ⊢
    exact hgrown.read_code code (.refl _) htiled rfl rfl rfl rfl
  | token ms kind n spaced code layers plain pos ahead core_eq =>
    rw [snapshot_eq_of_core core_eq] at htiled ⊢
    exact hgrown.read_code code layers htiled rfl rfl rfl (Literals.read_plain (.inl plain))
  | faulty cause k kind n spaced code plain pos ahead core_eq =>
    rw [snapshot_eq_of_core core_eq] at htiled ⊢
    exact hgrown.read_code code (.refl _) htiled rfl rfl rfl (Literals.read_plain (.inl plain))
  | jump t resume rest code lineBreak read pending core_eq =>
    have hnone : s.resume = none := h.tiled.inPlace
    simp [hnone] at pending
  | heredoc o spaced body code opener read core_eq =>
    simp [h.tiled.heredocOpener?_eq_none hsource] at opener
  | begin o spaced code pos ahead core_eq =>
    rw [snapshot_eq_of_core core_eq] at htiled ⊢
    refine hgrown.begin code pos ahead htiled fun hmem => ?_
    rw [singleLine_eq_of_core core_eq, singleLine_beginLiteral] at hmem
    cases hsingle : o.singleLine with
    | true => simp [openedLiteral, hsingle]
    | false => simpa [openedLiteral, hsingle] using hmem
  | endInterpolation spaced mode outer rest modes brace core_eq =>
    rw [snapshot_eq_of_core core_eq] at htiled ⊢
    exact hgrown.endInterpolation (n := 1) modes htiled rfl rfl rfl rfl rfl rfl
  | beginInterpolation l outer modes stop core_eq =>
    rw [snapshot_eq_of_core core_eq] at htiled ⊢
    exact hgrown.beginInterpolation modes htiled
  | abandon l outer modes stop core_eq =>
    rw [snapshot_eq_of_core core_eq, snapshot_abandonLiteral] at htiled ⊢
    refine hgrown.close (n := 0) modes htiled rfl rfl rfl rfl rfl fun _ c u _ hknown => ?_
    have hsingle : l.singleLine = true := by
      generalize s.cursor.rest = rest at stop
      cases stop with
      | lineBreak _ single => exact single
    exact ⟨hknown.clean hsingle, hknown.reaches⟩
  | close l outer modes stop core_eq =>
    rw [snapshot_eq_of_core core_eq, snapshot_closeLiteral] at htiled ⊢
    refine hgrown.close modes htiled rfl rfl rfl rfl rfl fun htext => ?_
    have hahead : s.cursor.rest ≠ [] := by
      intro hnil
      rw [hnil] at stop
      cases stop
    exact absurd htext (textOf_ne_empty (Nat.add_pos_left Nat.one_pos _) hahead)
  | endBody l outer modes open_ stop core_eq =>
    have hdelimited := hs.delimited l (by rw [snapshot_modes, modes]; exact List.mem_cons_self)
    simp [open_] at hdelimited

end Lined

/-! ### The end of the text -/

/-- A checkpoint that is not worth going back to: its literal ends on its line anyway, or that line is
the one where the text runs out. -/
def Settled (s : Scanner) (c : Checkpoint) : Prop :=
  c.opener ∈ s.singleLine ∨ s.cursor.position.line ≤ c.line

/-- Where nothing is gone back to, no open literal is worth it. -/
lemma settled_of_rewindTarget? (h : s.rewindTarget? = none) : ∀ c ∈ s.openLiterals, s.Settled c := by
  intro c hc
  have hworth : s.worthRestoring c = false := by
    unfold rewindTarget? at h
    split at h
    · simp at h
    · exact Bool.eq_false_iff.mpr (List.find?_eq_none.mp h c (List.mem_reverse.mpr hc))
  unfold worthRestoring at hworth
  by_cases hsingle : c.opener ∈ s.singleLine
  · exact .inl hsingle
  · right
    simpa [hsingle] using hworth

/-- A literal that is not worth going back to is cut where the text runs out. -/
lemma Known.cut {single : List ℕ} {p : Position} {l : OpenLiteral} {c : Checkpoint} {u : Unclosed}
    {t : Token} (h : Known single p l c u) (hc : c.opener ∈ single ∨ p.line ≤ c.line)
    (ht : t.span.start = p) : Literal.Cut ⟨u, t⟩ := by
  refine ⟨?_, by rw [ht, h.reaches]⟩
  rcases hc with hsingle | hline
  · exact h.clean (h.forced (h.opener_eq ▸ hsingle))
  · -- The literal began on this line, so there is no line break in it.
    intro x hx
    have hreaches := h.reaches
    have hordered := h.ordered
    rw [h.line_eq] at hline
    unfold Unclosed.reaches at hreaches
    have hle : x.lineBreaks ≤ (u.content.map Token.lineBreaks).sum :=
      List.le_sum_of_mem (List.mem_map_of_mem hx)
    apply breaksLine_of_notMem
    rw [← List.count_eq_zero]
    change x.lineBreaks = 0
    omega

/-- Closing what is open at the end of the text cuts the literals that are closed. -/
lemma Lined.dropMode {single : List ℕ} {m m' : Mode} {outer : List Mode}
    (h : Lined source single s.snapshot) (hmodes : s.modes = m :: m' :: outer)
    (hdelimited : ∀ l, m = .literal l → l.close.isSome = true)
    (hsettled : ∀ c ∈ s.openLiterals, c.opener ∈ single ∨ s.cursor.position.line ≤ c.line) :
    Lined source single (s.dropMode m (m' :: outer)).snapshot := by
  have htiled := h.tiled.dropMode m (m' :: outer)
  cases m with
  | code d =>
    rw [snapshot_dropMode_code] at htiled ⊢
    exact h.endInterpolation (n := 0) hmodes htiled rfl rfl rfl rfl rfl rfl
  | literal l =>
    rw [snapshot_dropMode_literal (hdelimited l rfl)] at htiled ⊢
    refine h.close (n := 0) hmodes htiled rfl rfl rfl rfl rfl fun _ c u hc hknown => ?_
    exact hknown.cut (hsettled c (List.mem_of_mem_head? hc)) rfl

/-- Dropping the innermost mode opens no literal. -/
lemma openLiterals_dropMode (m : Mode) (outer : List Mode) :
    (s.dropMode m outer).openLiterals ⊆ s.openLiterals := by
  cases m with
  | code d => exact List.Subset.refl _
  | literal l =>
    cases hclose : l.close with
    | none =>
      have hsnap := snapshot_dropMode_body (s := s) hclose outer
      have hsame : (s.dropMode (.literal l) outer).openLiterals = s.openLiterals :=
        (congrArg Snapshot.openLiterals hsnap :)
      rw [hsame]
      exact List.Subset.refl _
    | some c =>
      have hsnap := snapshot_dropMode_literal (s := s) (l := l) (by simp [hclose]) outer
      have htail : (s.dropMode (.literal l) outer).openLiterals = s.openLiterals.tail :=
        (congrArg Snapshot.openLiterals hsnap :)
      rw [htail]
      exact List.tail_subset _

/-- Closing everything at the end of the text cuts everything that is open. -/
theorem Lined.closes (h : Sound (Lined source s.singleLine) s) (hmove : Closes s s') :
    Lined source s'.singleLine s'.snapshot := by
  have htarget : s.rewindTarget? = none := by
    obtain ⟨-, -, -, ⟨-, hbody⟩ | ⟨-, htarget⟩, -⟩ := id hmove
    · simp [h.outermost] at hbody
    · exact htarget
  rw [hmove.fields.2.2.2.1]
  refine (hmove.holds (Q := fun u => u.cursor = s.cursor ∧ Stacked u.snapshot ∧
    (∀ c ∈ u.openLiterals, s.Settled c) ∧ Lined source s.singleLine u.snapshot) ?_ ?_ ?_).2.2.2
  · intro u v hcore hv
    rwa [cursor_eq_of_core hcore, openLiterals_eq_of_core hcore, snapshot_eq_of_core hcore]
  · rintro u m m' outer hmodes - ⟨hcursor, hstacked, hsettled, hlined⟩
    have hdelimited : ∀ l, m = .literal l → l.close.isSome = true := by
      rintro l rfl
      exact hstacked.delimited l (by rw [snapshot_modes, hmodes]; exact List.mem_cons_self)
    refine ⟨(dropMode_fields m _).1.trans hcursor, hstacked.dropMode hmodes, ?_, ?_⟩
    · exact fun c hc => hsettled c (openLiterals_dropMode m _ hc)
    · exact hlined.dropMode hmodes hdelimited (hcursor ▸ hsettled)
  · rintro t (⟨rfl, hbody⟩ | rfl)
    · simp [h.outermost] at hbody
    · exact ⟨rfl, h.stacked, fun c hc => settled_of_rewindTarget? htarget c hc, h.holds⟩

/-! ### Runs -/

/-- The invariant of a scanner of a text without heredocs: the open literals are known, now and after
going back, and going back leads backwards. -/
structure Lining (source : List Char) (s : Scanner) : Prop where
  sound : Sound (Lined source s.singleLine) s
  behind : ∀ c ∈ s.live, c.cursor.position.byte ≤ s.cursor.position.byte

/-- At the beginning the scanner keeps it with no literal to end on its line. -/
lemma lining_ofText (source : List Char) : Lining source (ofText source) where
  sound := sound_ofText (lined_ofText source)
  behind := by simp [live, ofText, ofCursor]

/-- Openers that are added behind the cursor keep the invariant. -/
lemma Lining.grow {single : List ℕ} (h : Lining source s)
    (hnew : ∀ x ∈ single, x ∈ s.singleLine ∨ s.cursor.position.byte ≤ x) :
    Sound (Lined source single) s := by
  refine h.sound.imp (fun hlined => hlined.grow hnew) fun c hc hlined => ?_
  exact hlined.grow fun x hx => (hnew x hx).imp_right (h.behind c hc).trans

/-- In a text without heredocs every move forward keeps the invariant. -/
lemma Lining.forward (hsource : ¬ "<<".toList <:+: source) (h : Lining source s)
    (hmove : Forward nested s s') : Lining source s' := by
  have hlined := h.sound.holds.forward hsource h.sound.stacked hmove
  constructor
  · exact (h.grow fun x hx => (hmove.mem_singleLine hx).imp_right Eq.ge).forward hmove hlined
  · have hbyte : s.cursor.position.byte ≤ s'.cursor.position.byte := by
      cases hmove.stride with
      | on n pos ahead cursor resume => exact cursor ▸ Cursor.byte_le_byte_advanceBy n _
      | out l outer modes modes' cursor resume => rw [cursor]
      | jump rest code lineBreak pending resume modes =>
        have hnone : s.resume = none := h.sound.holds.tiled.inPlace
        simp [hnone] at pending
      | heredoc o opener cursor resume => exact cursor ▸ Cursor.byte_le_byte_advanceBy o.length _
    intro c hc
    rcases hmove.liveFrom h.sound.stacked h.sound.fits c hc with ⟨hold, -⟩ | ⟨spaced, rfl, -⟩
    · exact (h.behind c hold).trans hbyte
    · exact hbyte

/-- Reading content keeps the invariant of the scanner. -/
lemma Lining.content (h : Lining source s) (hmove : Content s t) : Lining source t := by
  have hlined := h.sound.holds.content hmove
  constructor
  · rw [hmove.singleLine_eq]
    exact h.sound.content hmove hlined
  · intro c hc
    obtain ⟨n, hcursor, -⟩ := hmove.stride
    rw [hmove.live_eq] at hc
    rw [hcursor]
    exact (h.behind c hc).trans (Cursor.byte_le_byte_advanceBy n _)

/-- The literal that opens at the cursor may be ended on its line from now on. -/
lemma Lining.endOnItsLine (h : Lining source s) :
    Lining source (s.endOnItsLine s.cursor.position.byte) := by
  constructor
  · exact (h.grow fun x hx => (mem_endOnItsLine hx).imp_right Eq.ge).endOnItsLine _
  · have hbehind := h.behind
    unfold Scanner.endOnItsLine
    split <;> exact hbehind

/-- Going back keeps the invariant: the opener gone back to lies ahead of those still open. -/
lemma Lining.rewind (h : Lining source s) (hmove : Rewind s s') : Lining source s' := by
  obtain ⟨c, -, -, htarget, rfl⟩ := hmove
  have hlive := (mem_live_of_rewindTarget? htarget).1
  have hsound : Sound (Lined source s.singleLine) (s.restore c) := h.sound.restore hlive
  have hback : Lining source (s.restore c) := by
    refine ⟨hsound, fun d hd => ?_⟩
    have hopen : d ∈ (s.restore c).openLiterals := by
      rcases mem_live.mp hd with hlast | hopen
      · simp [Scanner.restore] at hlast
      · exact hopen
    rw [← (hsound.fits d hd).opener_eq]
    exact (hsound.holds.layered.opener_lt d hopen).le
  have hcommute : (s.endOnItsLine c.opener).restore c = (s.restore c).endOnItsLine c.opener := by
    unfold Scanner.endOnItsLine Scanner.restore
    dsimp only
    split <;> rfl
  have hopener : c.opener = (s.restore c).cursor.position.byte := (h.sound.fits c hlive).opener_eq
  rw [hcommute, hopener]
  exact hback.endOnItsLine

/-- Closing a literal at the end of the text keeps the invariant. -/
lemma Lining.closes (h : Lining source s) (hmove : Closes s s') : Lining source s' := by
  constructor
  · exact h.sound.of_closes hmove (Lined.closes h.sound hmove)
  · simp [(h.sound.live_of_closes hmove).2]

/-- A step keeps the invariant, whatever reads the bodies of heredocs: there are none. -/
theorem Lining.step_more (hsource : ¬ "<<".toList <:+: source) (h : Lining source s)
    (hstep : s.step nested = some (.more s')) : Lining source s' := by
  obtain ⟨t, ⟨rfl | hcontent, hforward | hrewind⟩ | ⟨hcontent, hcloses⟩⟩ :=
    Scanner.step_more h.sound.stacked.alternates hstep
  · exact h.forward hsource hforward
  · exact h.rewind hrewind
  · exact (h.content hcontent).forward hsource hforward
  · exact (h.content hcontent).rewind hrewind
  · exact (h.content hcontent).closes hcloses

/-- At the end it holds, and no literal is open. -/
theorem Lining.step_done (h : Lining source s) (hstep : s.step nested = some (.done s')) :
    Lining source s' ∧ s'.modes.length = 1 := by
  rcases Scanner.step_done h.sound.stacked.alternates hstep with ⟨rfl, hlength, -⟩ | hcloses
  · exact ⟨h, hlength⟩
  · exact ⟨h.closes hcloses, hcloses.fields.2.2.2.2⟩

/-- A run keeps the invariant and ends where every literal is closed. -/
theorem Lining.run {fuel : ℕ} (hsource : ¬ "<<".toList <:+: source) (h : Lining source s)
    (hrun : run fuel s = some t) : Lining source t ∧ t.modes.length = 1 := by
  induction fuel generalizing s with
  | zero => simp [Scanner.run] at hrun
  | succ fuel ih =>
    rw [Scanner.run] at hrun
    split at hrun
    · simp at hrun
    · rename_i s' hstep
      obtain rfl := Option.some.inj hrun
      exact h.step_done hstep
    · rename_i s' hstep
      exact ih (h.step_more hsource hstep) hrun

/-- In a text without two angle brackets in a row, every opening token opens a literal that is
closed, and one that the text does not close is cut. -/
theorem cut_of_run {fuel : ℕ} (hsource : ¬ "<<".toList <:+: source)
    (h : run fuel (ofText source) = some t) :
    (∀ x ∈ t.tokens, x.kind = .stringBegin ∨ x.kind = .regexBegin →
      ∃ l ∈ (reading t.tokens).closed, l.opening = x) ∧
    ∀ l ∈ (reading t.tokens).closed, l.closing.text = "" → l.Cut := by
  obtain ⟨hlining, hlength⟩ := (lining_ofText source).run hsource h
  have hlined := hlining.sound.holds
  refine ⟨fun x hx hkind => ?_, hlined.cut⟩
  have hmem := mem_openings hx hkind
  have hnone : (reading t.tokens).layers = [] := hlined.layered.layers_eq_nil hlength
  rw [Literals.openings, hnone] at hmem
  exact List.mem_map.mp hmem

end Scanner

end RubyCheck
