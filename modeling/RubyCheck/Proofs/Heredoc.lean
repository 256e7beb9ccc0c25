import Mathlib.Data.List.DropRight
import RubyCheck.Proofs.Grammar.Operation
import RubyCheck.Proofs.Scanner.Bare
import RubyCheck.Proofs.Scanner.Beyond
import RubyCheck.Proofs.TokenStream

/-!
# Several heredocs on one line

A call whose arguments are heredocs with quoted terminators, `f(<<'A', <<-'B', <<~'C')`, and the bodies
on the lines below it.  Each opener gets its own body, whatever the bodies hold, and reading goes on
behind the last terminator (`TokenStream.ofText_heredocs`).

On the opener's line the scanner keeps two places: the cursor, and where the next line of code begins
(`Scanner.nextCode`).  What is read on the line moves the first alone, but for a heredoc, which moves the
second over its body and its terminator (`OnLine.heredoc`); the line break goes to it.
-/

namespace RubyCheck

/-! ### Heredocs as written -/

/-- What stands between the angle brackets of a heredoc and its terminator. -/
inductive HeredocMark where
  | bare
  | dash
  | tilde
deriving DecidableEq

namespace HeredocMark

/-- The mark as written. -/
def text : HeredocMark → List Char
  | bare => []
  | dash => ['-']
  | tilde => ['~']

/-- Whether blanks may stand in front of the terminator. -/
def indented : HeredocMark → Bool
  | bare => false
  | dash | tilde => true

/-- What of a line is compared with the terminator. -/
def shown (mark : HeredocMark) (line : List Char) : List Char :=
  let line := line.rdropWhile (· == '\r')
  if mark.indented then Text.trimLeft line else line

end HeredocMark

/-- A heredoc with its terminator in quotes, and the lines of its body. -/
structure Heredoc where
  mark : HeredocMark
  terminator : List Char
  lines : List (List Char)
  ne_nil : terminator ≠ []
  /-- The terminator is made of the characters of names. -/
  named : ∀ c ∈ terminator, Text.continuesName c = true
  unbroken : ∀ line ∈ lines, '\n' ∉ line
  /-- No line of the body holds the terminator. -/
  unended : ∀ line ∈ lines, mark.shown line ≠ terminator

namespace Heredoc

/-- The opener as written. -/
def opener (h : Heredoc) : List Char :=
  '<' :: '<' :: (h.mark.text ++ '\'' :: (h.terminator ++ ['\'']))

/-- The opener as the scanner reads it. -/
def reading (h : Heredoc) : Scanner.HeredocOpener where
  terminator := h.terminator
  indented := h.mark.indented
  interpolates := false
  length := h.opener.length

/-- The body as written. -/
def body (h : Heredoc) : List Char := h.lines.flatMap (· ++ ['\n'])

/-- The tokens that a heredoc is read as: no content if the body is empty, and an empty end. -/
def lexemes (h : Heredoc) : List (TokenKind × String) :=
  (.stringBegin, String.ofList h.opener) ::
    ((if h.body = [] then [] else [(.stringContent, String.ofList h.body)]) ++ [(.stringEnd, "")])

/-- The bodies of some heredocs, each with its terminator behind it and a line break in front. -/
def bodies (hs : List Heredoc) : List Char := hs.flatMap fun h => '\n' :: (h.body ++ h.terminator)

/-- The line of a call with some heredocs. -/
def call (hs : List Heredoc) : List Char :=
  'f' :: '(' :: ([',', ' '].intercalate (hs.map opener) ++ [')'])

/-- A call with some heredocs, their bodies, and what stands behind the last terminator. -/
def text (hs : List Heredoc) (tail : List Char) : List Char := call hs ++ (bodies hs ++ tail)

/-- The tokens of the line of a call with some heredocs, up to the line break. -/
def callLexemes (hs : List Heredoc) : List (TokenKind × String) :=
  [(.identifier, "f"), (.punct .lParen, "(")] ++
    [(.punct .comma, ",")].intercalate (hs.map lexemes) ++ [(.punct .rParen, ")")]

end Heredoc

/-! ### Characters of openers -/

/-- A terminator holds neither the quote nor the characters that end lines. -/
lemma ne_of_continuesName {c : Char} (hc : Text.continuesName c = true) :
    c ≠ '\'' ∧ c ≠ '\n' ∧ c ≠ '\r' := by
  refine ⟨?_, ?_, ?_⟩ <;> rintro rfl <;> revert hc <;> decide

namespace Heredoc

lemma notMem_terminator (h : Heredoc) : '\n' ∉ h.terminator :=
  fun hc => (ne_of_continuesName (h.named _ hc)).2.1 rfl

lemma notMem_opener (h : Heredoc) : '\n' ∉ h.opener := by
  cases hmark : h.mark <;> simp [opener, hmark, HeredocMark.text, h.notMem_terminator]

/-- The call stands on one line. -/
lemma notMem_call (hs : List Heredoc) : '\n' ∉ call hs := by
  have hopeners : '\n' ∉ [',', ' '].intercalate (hs.map opener) := by
    induction hs with
    | nil => simp [List.intercalate]
    | cons h hs ih =>
      cases hs with
      | nil => simpa using h.notMem_opener
      | cons h' hs =>
        rw [List.map_cons, List.map_cons, List.intercalate_cons_cons, ← List.map_cons,
          List.mem_append, List.mem_append, not_or, not_or]
        exact ⟨⟨h.notMem_opener, by decide⟩, ih⟩
  simp [call, hopeners]

end Heredoc

/-! ### Cursors -/

namespace Cursor

variable {c : Cursor}

/-- The next line of a cursor begins behind the first line break ahead. -/
lemma rest_nextLine_of_eq {p rest : List Char} (h : c.rest = p ++ '\n' :: rest)
    (hline : '\n' ∉ p) : c.nextLine.rest = rest := by
  have hrun : c.run (· != '\n') = p.length := by
    have hall : ∀ x ∈ p, (x != '\n') = true := fun x hx => by
      simpa using ne_of_mem_of_not_mem hx hline
    rw [run, h, List.takeWhile_append_of_pos hall]
    simp
  rw [nextLine, hrun, rest_advance, rest_advanceBy, h, List.drop_left, List.tail_cons]

end Cursor

namespace Scanner

open Text

variable {source p ahead behind : List Char} {s t body : Scanner}
  {written : List (TokenKind × String)} {nested : Scanner → Option Scanner} {e k : Expectation}
  {c : Char} {cs : List Char}

/-! ### Marks -/

/-- The marks of a call, with what is expected behind them. -/
def callMarks : List (Char × Punct × Expectation) :=
  [(',', .comma, .operand), ('(', .lParen, .operand), (')', .rParen, .operator)]

/-- A mark of a call is read as what it is. -/
lemma step_of_mark {m : Punct} (hmodes : s.modes = [.code 0]) (hrest : s.cursor.rest = c :: cs)
    (hc : (c, m, e) ∈ callMarks) (hdefining : s.definingName = false) :
    s.step nested = some (.more
      (({ s with spaceSeen := false }.emit (.punct m) 1 s.spaceSeen).expecting e)) := by
  have hcases : c = ',' ∧ m = .comma ∧ e = .operand ∨ c = '(' ∧ m = .lParen ∧ e = .operand ∨
      c = ')' ∧ m = .rParen ∧ e = .operator := by
    simpa [callMarks] using hc
  have hbegins : beginsToken c = true := by
    rcases hcases with ⟨rfl, -⟩ | ⟨rfl, -⟩ | ⟨rfl, -⟩ <;> decide
  have hscan : ({ s with spaceSeen := false } : Scanner).scanTokenAt nested s.spaceSeen c =
      some ({ s with spaceSeen := false }.scanOperator s.spaceSeen) := by
    rcases hcases with ⟨rfl, -⟩ | ⟨rfl, -⟩ | ⟨rfl, -⟩ <;> rfl
  have hfind : operators.find? (fun op => s.cursor.startsWith op.1) = some ([c], .punct m) := by
    unfold Cursor.startsWith
    rw [hrest]
    rcases hcases with ⟨rfl, rfl, -⟩ | ⟨rfl, rfl, -⟩ | ⟨rfl, rfl, -⟩ <;> rfl
  have hmark : (TokenKind.punct m == .punct .pipe) = false ∧ afterOperator (.punct m) = e := by
    rcases hcases with ⟨-, rfl, rfl⟩ | ⟨-, rfl, rfl⟩ | ⟨-, rfl, rfl⟩ <;> exact ⟨rfl, rfl⟩
  rw [step_of_beginsToken ⟨0, [], hmodes⟩ hrest hbegins hdefining, hscan, scanOperator, hfind]
  simp [hmark, hdefining, emit, emitFlagged]

/-! ### The opener -/

lemma quotedTerminator?_of_named {terminator : List Char} (hne : terminator ≠ [])
    (hname : ∀ c ∈ terminator, continuesName c = true) (rest : List Char) :
    quotedTerminator? '\'' (terminator ++ '\'' :: rest) = some terminator := by
  have htake : (terminator ++ '\'' :: rest).takeWhile (· != '\'') = terminator := by
    rw [List.takeWhile_append_of_pos fun c hc => by
      simpa using (ne_of_continuesName (hname c hc)).1]
    simp
  have hline : '\n' ∉ terminator := fun h => (ne_of_continuesName (hname _ h)).2.1 rfl
  unfold quotedTerminator?
  rw [htake]
  simp [hne, hline]

lemma heredocOpener?_opener {h : Heredoc} (hrest : s.cursor.rest = h.opener ++ ahead) :
    s.heredocOpener? = some h.reading := by
  have hquoted := quotedTerminator?_of_named h.ne_nil h.named ahead
  unfold heredocOpener?
  rw [hrest]
  cases hmark : h.mark <;>
    simp [Heredoc.opener, Heredoc.reading, hmark, HeredocMark.text, HeredocMark.indented, hquoted,
      Nat.add_comm, Nat.add_left_comm]

/-- Where an operand is expected the opener of a heredoc is read with its body. -/
lemma step_of_heredocOpener? {o : HeredocOpener} (hmodes : s.modes = [.code 0])
    (hrest : s.cursor.rest = '<' :: cs) (hexpects : s.expects = .operand)
    (hdefining : s.definingName = false) (hopener : s.heredocOpener? = some o)
    (hbody : nested ({ s with spaceSeen := false }.bodyScanner o) = some body) :
    s.step nested = some (.more
      (({ s with spaceSeen := false }.spliceBody o s.spaceSeen body).expecting .operator)) := by
  have hvalue : ({ s with spaceSeen := false } : Scanner).valueExpected s.spaceSeen = true := by
    simp [valueExpected, hexpects]
  have hopener' : ({ s with spaceSeen := false } : Scanner).heredocOpener? = some o := hopener
  have hscan : ({ s with spaceSeen := false } : Scanner).scanTokenAt nested s.spaceSeen '<' =
      ({ s with spaceSeen := false } : Scanner).scanHeredoc nested o s.spaceSeen := by
    unfold scanTokenAt
    rw [if_neg (by decide), if_neg (by decide)]
    simp only [hvalue, if_true, hopener']
  rw [step_of_beginsToken ⟨0, [], hmodes⟩ hrest (by decide) hdefining, hscan, scanHeredoc_eq_map,
    hbody]
  rfl

/-! ### The range of the body -/

lemma endsAt_reverse (h : Heredoc) (line : List Char) :
    h.reading.endsAt line.reverse = (h.mark.shown line == h.terminator) := rfl

/-- The terminator line is found, unless blanks that do not count are its beginning. -/
lemma shown_terminator {h : Heredoc}
    (hblank : h.mark.indented = true → ∀ c ∈ h.terminator.head?, isBlank c = false) :
    h.mark.shown h.terminator = h.terminator := by
  have hkept : h.terminator.rdropWhile (· == '\r') = h.terminator := by
    rw [List.rdropWhile_eq_self_iff]
    intro hne
    simpa using (ne_of_continuesName (h.named _ (List.getLast_mem hne))).2.2
  unfold HeredocMark.shown
  rw [hkept]
  split
  · rename_i hindented
    obtain ⟨c, cs, hcons⟩ := List.exists_cons_of_ne_nil h.ne_nil
    have hc := hblank hindented c (by simp [hcons])
    rw [trimLeft, hcons, List.dropWhile_cons_of_neg (by simp [hc])]
  · rfl

/-- No line holds the terminator of an indented heredoc that begins with a blank: the line is compared
without the blanks it begins with. -/
lemma endsAt_of_blank {o : HeredocOpener} (hindented : o.indented = true)
    (hc : o.terminator.head? = some c) (hblank : isBlank c = true) (line : List Char) :
    o.endsAt line = false := by
  unfold HeredocOpener.endsAt
  dsimp only
  rw [if_pos hindented, beq_eq_false_iff_ne]
  intro heq
  have hkept := List.head?_dropWhile_not isBlank (line.dropWhile (· == '\r')).reverse
  rw [← heq, trimLeft] at hc
  rw [hc] at hkept
  simp [hblank] at hkept

/-- So the heredoc is not terminated, whatever text follows. -/
theorem terminated_range_of_blank {o : HeredocOpener} (hindented : o.indented = true)
    (hc : o.terminator.head? = some c) (hblank : isBlank c = true) (start n : ℕ)
    (line cs : List Char) : (o.range start n line cs).terminated = false := by
  have hends := endsAt_of_blank hindented hc hblank
  fun_induction HeredocOpener.range o start n line cs with
  | case1 _ _ line hend | case3 _ _ line _ hend => simp [hends line] at hend
  | case2 => rfl
  | case4 _ _ _ _ _ ih | case5 _ _ _ _ _ _ ih => exact ih

/-- Up to a line break the characters of a line are counted and kept. -/
lemma range_append_line (o : HeredocOpener) {line : List Char} (hline : '\n' ∉ line) (start n : ℕ)
    (before rest : List Char) :
    o.range start n before (line ++ rest) =
      o.range start (n + line.length) (line.reverse ++ before) rest := by
  induction line generalizing n before with
  | nil => rfl
  | cons c line ih =>
    rw [List.cons_append, HeredocOpener.range, ih (fun h => hline (List.mem_cons_of_mem c h))]
    · simp [Nat.add_comm, Nat.add_left_comm]
    · exact fun hc => hline (hc ▸ List.mem_cons_self)

/-- Lines that do not hold the terminator are passed over. -/
lemma range_lines (o : HeredocOpener) {lines : List (List Char)}
    (hunbroken : ∀ line ∈ lines, '\n' ∉ line)
    (hends : ∀ line ∈ lines, o.endsAt line.reverse = false) (n : ℕ) (rest : List Char) :
    o.range n n [] (lines.flatMap (· ++ ['\n']) ++ rest) =
      o.range (n + (lines.flatMap (· ++ ['\n'])).length)
        (n + (lines.flatMap (· ++ ['\n'])).length) [] rest := by
  induction lines generalizing n with
  | nil => simp
  | cons line lines ih =>
    have hline : ¬ o.endsAt (line.reverse ++ []) = true := by
      rw [List.append_nil, hends line List.mem_cons_self]
      exact Bool.false_ne_true
    rw [List.flatMap_cons, List.append_assoc, List.append_assoc, List.singleton_append,
      range_append_line o (hunbroken line List.mem_cons_self), HeredocOpener.range, if_neg hline,
      ih (fun l hl => hunbroken l (List.mem_cons_of_mem _ hl))
        (fun l hl => hends l (List.mem_cons_of_mem _ hl))]
    simp [Nat.add_assoc, Nat.add_comm, Nat.add_left_comm]

/-- The range of a heredoc's body is the body, whatever is in it. -/
theorem range_body {h : Heredoc} (hshown : h.mark.shown h.terminator = h.terminator)
    (hbehind : behind = [] ∨ behind.head? = some '\n') :
    h.reading.range 0 0 [] (h.body ++ (h.terminator ++ behind)) =
      ⟨h.body.length, h.body.length + h.terminator.length + (behind.take 1).length, true⟩ := by
  have hopen : ∀ line ∈ h.lines, h.reading.endsAt line.reverse = false := by
    intro line hline
    rw [endsAt_reverse]
    simpa using h.unended line hline
  have hend : h.reading.endsAt (h.terminator.reverse ++ []) = true := by
    rw [List.append_nil, endsAt_reverse]
    simpa using hshown
  rw [Heredoc.body, range_lines _ h.unbroken hopen, Nat.zero_add,
    range_append_line _ h.notMem_terminator]
  rcases hbehind with rfl | hbehind
  · rw [HeredocOpener.range, if_pos hend]
    rfl
  · obtain ⟨rest, rfl⟩ := List.head?_eq_some_iff.mp hbehind
    rw [HeredocOpener.range, if_pos hend]
    rfl

/-! ### The body -/

/-- Where nothing can end a literal it goes on to the end of the text. -/
lemma contentEnd_of_unclosed {l : OpenLiteral} (hclose : l.close = none)
    (hbracket : l.bracket = none) (hcode : l.interpolates = false) (hline : l.singleLine = false)
    (n : ℕ) (cs : List Char) :
    ∃ l', contentEnd l n cs = (.endOfText, n + cs.length, l') ∧ l'.close = none := by
  fun_induction contentEnd l n cs <;> simp_all [Nat.add_comm, Nat.add_left_comm]

/-- At the end of its body a scanner of a body is done. -/
lemma step_of_bodyEnd {d : ℕ} (hmodes : s.modes = [.code d]) (hbody : s.inBody = true)
    (hrest : s.cursor.rest = []) : s.step nested = some (.done s) := by
  have htop : s.atTopLine = false := by simp [atTopLine, hbody]
  rw [step_eq ⟨d, hmodes⟩, htop, Bool.false_and, if_neg Bool.false_ne_true, skipTrivia?_nil hrest,
    hrest]

/-- A body without code is read as one piece of content, or as none if it is empty. -/
theorem exists_run_ofBody (body : Cursor) (opener : Span) (locals : List String) :
    ∃ t, run 2 (ofBody body false opener locals) = some t ∧ t.faults = [] ∧
      t.tokens.map Token.lexeme =
        if body.rest = [] then [] else [(.stringContent, String.ofList body.rest)] := by
  let s : Scanner := ofBody body false opener locals
  obtain ⟨l, hends, hclose⟩ := contentEnd_of_unclosed
    (l := ⟨.heredoc, none, none, false, opener, false, false, 0⟩) rfl rfl rfl rfl 0 body.rest
  rw [Nat.zero_add] at hends
  let t : Scanner := { s with modes := [.literal l, .code 0] }.emitContent body.rest.length
  have hstep : s.step (run 1) = some (.more { t with modes := [.code 0] }) := by
    have hcontent : s.scanContent ⟨.heredoc, none, none, false, opener, false, false, 0⟩ [.code 0] =
        { t with modes := [.code 0] } := by
      unfold scanContent
      rw [show s.cursor.rest = body.rest from rfl, hends]
      simp [hclose, t]
    exact congrArg (fun u => some (Step.more u)) hcontent
  obtain ⟨hbody, hrest, hfaults, htokens⟩ : t.inBody = true ∧ t.cursor.rest = [] ∧ t.faults = [] ∧
      t.tokens.map Token.lexeme =
        if body.rest = [] then [] else [(.stringContent, String.ofList body.rest)] := by
    simp only [t, emitContent, beq_iff_eq, List.length_eq_zero_iff]
    split
    · rename_i hnil
      exact ⟨rfl, hnil, rfl, rfl⟩
    · refine ⟨rfl, ?_, rfl, ?_⟩
      · simp [emit, emitFlagged, s, ofBody, ofCursor]
      · simp [emit, emitFlagged, s, ofBody, ofCursor, Token.lexeme, textOf]
  have hdone : step (run 0) { t with modes := [.code 0] } =
      some (.done { t with modes := [.code 0] }) :=
    step_of_bodyEnd rfl hbody hrest
  refine ⟨{ t with modes := [.code 0] }, ?_, hfaults, htokens⟩
  rw [run, hstep]
  dsimp only
  rw [run, hdone]

/-! ### The opener's line -/

/-- Where the next line of code begins: behind the bodies of the heredocs opened so far. -/
def nextCode (s : Scanner) : Cursor := s.resume.getD s.cursor.nextLine

/-- The scanner of a text reads code on its first line, with nothing open, nothing wrong and nothing to
go back to: what is written, what it expects, what is ahead, and what stands behind the line and the
bodies of the heredocs that were opened on it. -/
structure OnLine (source : List Char) (s : Scanner) (written : List (TokenKind × String))
    (e : Expectation) (ahead behind : List Char) : Prop where
  leads : Leads (ofText source) s
  outermost : s.inBody = false
  modes : s.modes = [.code 0]
  undefined : s.definingName = false
  live : s.live = []
  faults : s.faults = []
  written : (s.tokens.map Token.lexeme).reverse = written
  expects : s.expects = e
  ahead : s.cursor.rest = ahead
  behind : s.nextCode.rest = behind
  surveys : s.nextCode.Surveys source

namespace OnLine

/-- What is read on the line, but for heredocs, leaves the place of the next line as it is. -/
lemma nextCode_eq (h : OnLine source s written e (p ++ ahead) behind) (hline : '\n' ∉ p)
    (hcursor : t.cursor = Cursor.advanceBy p.length s.cursor) (hresume : t.resume = s.resume) :
    t.nextCode = s.nextCode := by
  rw [nextCode, nextCode, hcursor, hresume, Cursor.nextLine_advanceBy]
  rw [h.ahead, List.take_left]
  exact hline

/-- A token on the line. -/
lemma read {kind : TokenKind} {spaced : Bool}
    (h : OnLine source s written e (p ++ ahead) behind) (hline : '\n' ∉ p)
    (hstep : s.step (run 0) = some (.more
      (({ s with spaceSeen := false }.emit kind p.length spaced).expecting k))) :
    ∃ t, OnLine source t (written ++ [(kind, String.ofList p)]) k ahead behind := by
  let t := ({ s with spaceSeen := false }.emit kind p.length spaced).expecting k
  have hnext : t.nextCode = s.nextCode := h.nextCode_eq hline rfl rfl
  refine ⟨t, h.leads.tail ⟨0, hstep⟩, h.outermost, h.modes, h.undefined, h.live, h.faults, ?_, rfl,
    ?_, hnext ▸ h.behind, hnext ▸ h.surveys⟩
  · rw [← h.written]
    simp [t, emit, emitFlagged, expecting, Token.lexeme, textOf, h.ahead]
  · simp [t, emit, emitFlagged, expecting, h.ahead]

/-- A blank on the line. -/
lemma blank (h : OnLine source s written e (' ' :: ahead) behind) :
    ∃ t, OnLine source t written e ahead behind := by
  have hmarker : atEndMarker s.cursor.rest = false := by rw [h.ahead]; rfl
  have hstep : s.step (run 0) = some (.more (s.skipBlank 1)) := by
    rw [step_eq ⟨0, h.modes⟩, hmarker, Bool.and_false, if_neg Bool.false_ne_true,
      skipTrivia?_blank (by decide) h.ahead]
  have hnext : (s.skipBlank 1).nextCode = s.nextCode :=
    h.nextCode_eq (p := [' ']) (by decide) rfl rfl
  refine ⟨s.skipBlank 1, h.leads.tail ⟨0, hstep⟩, h.outermost, h.modes, h.undefined, h.live,
    h.faults, h.written, h.expects, ?_, hnext ▸ h.behind, hnext ▸ h.surveys⟩
  simp [skipBlank, skip, h.ahead]

/-- A mark of a call on the line. -/
lemma mark {m : Punct} (h : OnLine source s written e (c :: ahead) behind)
    (hc : (c, m, k) ∈ callMarks) :
    ∃ t, OnLine source t (written ++ [(.punct m, String.ofList [c])]) k ahead behind := by
  have hline : '\n' ∉ [c] := by
    simp only [callMarks, List.mem_cons, Prod.mk.injEq, List.not_mem_nil, or_false] at hc
    rcases hc with ⟨rfl, -⟩ | ⟨rfl, -⟩ | ⟨rfl, -⟩ <;> decide
  exact h.read hline (step_of_mark h.modes h.ahead hc h.undefined)

/-- A heredoc on the line where an operand is expected: its tokens are those of the opener, of the body
and of an empty end, and the next line of code begins behind its terminator. -/
theorem heredoc {h : Heredoc} (hline : OnLine source s written .operand (h.opener ++ ahead)
      (h.body ++ (h.terminator ++ behind)))
    (hshown : h.mark.shown h.terminator = h.terminator)
    (hbehind : behind = [] ∨ behind.head? = some '\n') :
    ∃ t, OnLine source t (written ++ h.lexemes) .operator ahead behind.tail := by
  let u : Scanner := { s with spaceSeen := false }
  have htake : u.cursor.rest.take h.opener.length = h.opener := by
    rw [show u.cursor.rest = h.opener ++ ahead from hline.ahead, List.take_left]
  have hstart : u.bodyStart h.reading = s.nextCode := by
    rw [bodyStart, nextCode, Cursor.nextLine_advanceBy]
    exact htake.symm ▸ h.notMem_opener
  have hrange : u.bodyRange h.reading =
      ⟨h.body.length, h.body.length + h.terminator.length + (behind.take 1).length, true⟩ := by
    rw [bodyRange, hstart, hline.behind, range_body hshown hbehind]
  -- The body is read by a scanner of its own, which two steps bring to the end of its range.
  obtain ⟨body, hrun, hfaults, htokens⟩ := exists_run_ofBody (s.nextCode.narrow h.body.length)
    (u.spanOf h.reading.length) s.locals
  have hcontent : (s.nextCode.narrow h.body.length).rest = h.body := by
    rw [Cursor.narrow, hline.behind, List.take_left]
  have hbody : run 2 (u.bodyScanner h.reading) = some body := by
    rw [bodyScanner, hrange, hstart]
    exact hrun
  let t : Scanner := (u.spliceBody h.reading s.spaceSeen body).expecting .operator
  have hstep : s.step (run 2) = some (.more t) :=
    step_of_heredocOpener? hline.modes hline.ahead hline.expects hline.undefined
      (heredocOpener?_opener hline.ahead) hbody
  have hnext : t.nextCode = Cursor.advanceBy
      (h.body.length + h.terminator.length + (behind.take 1).length) s.nextCode := by
    rw [← hstart]
    change (some (Cursor.advanceBy (u.bodyRange h.reading).whole (u.bodyStart h.reading))).getD _ = _
    rw [hrange]
    rfl
  refine ⟨t, hline.leads.tail ⟨2, hstep⟩, hline.outermost, hline.modes, hline.undefined, hline.live,
    ?_, ?_, rfl, ?_, ?_, hnext ▸ hline.surveys.advanceBy _⟩
  · change body.faults ++ (u.openerFaults h.reading ++ s.faults) = []
    rw [openerFaults, hrange, hfaults, hline.faults]
    rfl
  · have hbegin : u.textOf h.reading.length = String.ofList h.opener := congrArg String.ofList htake
    change (List.map Token.lexeme (.empty .stringEnd _ :: (body.tokens ++ _ :: s.tokens))).reverse = _
    rw [← hline.written, List.map_cons, List.map_append, List.map_cons, htokens, hcontent]
    simp only [Token.lexeme, Token.empty, hbegin, Heredoc.lexemes]
    split <;> simp
  · change (Cursor.advanceBy h.opener.length s.cursor).rest = ahead
    rw [Cursor.rest_advanceBy, hline.ahead, List.drop_left]
  · rw [hnext, Cursor.rest_advanceBy, hline.behind, Nat.add_assoc, ← List.drop_drop, List.drop_left,
      ← List.drop_drop, List.drop_left]
    cases behind <;> rfl

/-- The heredocs of a call, with commas between them. -/
theorem heredocs {hs : List Heredoc} (hne : hs ≠ [])
    (hshown : ∀ h ∈ hs, h.mark.shown h.terminator = h.terminator) {tail : List Char}
    (htail : tail = [] ∨ tail.head? = some '\n')
    (hline : OnLine source s written .operand
      ([',', ' '].intercalate (hs.map Heredoc.opener) ++ ahead) (Heredoc.bodies hs ++ tail).tail) :
    ∃ t, OnLine source t (written ++ [(.punct .comma, ",")].intercalate (hs.map Heredoc.lexemes))
      .operator ahead tail.tail := by
  induction hs generalizing s written with
  | nil => exact absurd rfl hne
  | cons h hs ih =>
    have hbodies : (Heredoc.bodies (h :: hs) ++ tail).tail =
        h.body ++ (h.terminator ++ (Heredoc.bodies hs ++ tail)) := by
      simp [Heredoc.bodies]
    have hafter : Heredoc.bodies hs ++ tail = [] ∨
        (Heredoc.bodies hs ++ tail).head? = some '\n' := by
      cases hs with
      | nil => exact htail
      | cons => exact .inr rfl
    have hfirst := hshown h List.mem_cons_self
    rw [hbodies] at hline
    cases hs with
    | nil =>
      rw [List.map_singleton, List.intercalate_singleton] at hline ⊢
      exact hline.heredoc hfirst hafter
    | cons h' hs =>
      rw [List.map_cons, List.map_cons, List.intercalate_cons_cons, ← List.map_cons] at hline ⊢
      rw [List.append_assoc, List.append_assoc] at hline
      obtain ⟨t, ht⟩ := hline.heredoc hfirst hafter
      obtain ⟨t, ht⟩ := ht.mark (m := .comma) (k := .operand) (by simp [callMarks])
      obtain ⟨t, ht⟩ := ht.blank
      obtain ⟨t, ht⟩ := ih (List.cons_ne_nil h' hs)
        (fun k hk => hshown k (List.mem_cons_of_mem h hk)) ht
      refine ⟨t, ?_⟩
      rw [← List.append_assoc, ← List.append_assoc]
      exact ht

/-- The line break goes to the next line of code.  It is a token unless that line goes on with a method
call. -/
theorem lineBreak (h : OnLine source s written .operator ('\n' :: ahead) behind) :
    ∃ t, Leads (ofText source) t ∧ t.Clear ∧ t.faults = [] ∧
      (t.tokens.map Token.lexeme).reverse =
        written ++ (if continuesChain false behind then [] else [(.newline, "\n")]) ∧
      t.cursor = s.nextCode := by
  have hmarker : atEndMarker s.cursor.rest = false := by rw [h.ahead]; rfl
  have hstep : s.step (run 0) = some (.more s.scanNewline) := by
    rw [step_eq ⟨0, h.modes⟩, hmarker, Bool.and_false, if_neg Bool.false_ne_true,
      skipTrivia?_lineBreak h.ahead]
  have hnext : s.resume.getD s.cursor.advance = s.nextCode := by
    have hrun : s.cursor.run (· != '\n') = 0 := by simp [Cursor.run, h.ahead]
    rw [nextCode, Cursor.nextLine, hrun, Cursor.advanceBy_zero]
  have hmatters : s.newlineMatters = !continuesChain false behind := by
    rw [newlineMatters, h.expects, ← h.behind, ← hnext]
    cases s.resume <;> rfl
  refine ⟨s.scanNewline, h.leads.tail ⟨0, hstep⟩, ?_, ?_, ?_, ?_⟩
  all_goals
    unfold scanNewline
    rw [hmatters]
    cases continuesChain false behind
  · exact ⟨h.outermost, ⟨0, h.modes⟩, h.live, rfl⟩
  · exact ⟨h.outermost, ⟨0, h.modes⟩, h.live, rfl⟩
  · exact h.faults
  · exact h.faults
  · change List.reverse (List.map Token.lexeme (_ :: s.tokens)) = _
    have hlexeme : s.textOf 1 = "\n" := by rw [textOf, h.ahead]; rfl
    rw [List.map_cons, List.reverse_cons, h.written, Token.lexeme, hlexeme]
    rfl
  · exact h.written.trans (List.append_nil _).symm
  · exact hnext
  · exact hnext

end OnLine

/-- The line of a call with some heredocs is read up to its line break. -/
lemma exists_onLine_call {hs : List Heredoc} (hne : hs ≠ [])
    (hshown : ∀ h ∈ hs, h.mark.shown h.terminator = h.terminator) {tail : List Char}
    (htail : tail = [] ∨ tail.head? = some '\n') :
    ∃ t, OnLine (Heredoc.text hs tail) t (Heredoc.callLexemes hs) .operator
      (Heredoc.bodies hs ++ tail) tail.tail := by
  let below := Heredoc.bodies hs ++ tail
  let ahead := [',', ' '].intercalate (hs.map Heredoc.opener) ++ ')' :: below
  have hsource : Heredoc.text hs tail = ['f'] ++ '(' :: ahead := by
    simp [Heredoc.text, Heredoc.call, ahead, below]
  let s := ofText (['f'] ++ '(' :: ahead)
  have hstart :
      OnLine (Heredoc.text hs tail) s [] .operand (['f'] ++ '(' :: ahead) below.tail := by
    have hnext : s.nextCode.Surveys (Heredoc.text hs tail) := by
      rw [nextCode, hsource, show s.resume = none from rfl, Option.getD_none,
        Cursor.nextLine_eq_advanceBy]
      exact (Cursor.surveys_ofText _).advanceBy _
    have hrest : s.nextCode.rest = below.tail := by
      have hbreak : below = '\n' :: below.tail := by
        cases hs with
        | nil => exact absurd rfl hne
        | cons => rfl
      refine Cursor.rest_nextLine_of_eq (p := Heredoc.call hs) ?_ (Heredoc.notMem_call hs)
      rw [← hbreak]
      exact hsource.symm
    exact ⟨hsource ▸ .refl, rfl, rfl, rfl, rfl, rfl, rfl, rfl, rfl, hrest, hnext⟩
  have hname : s.step (run 0) = some (.more
      (({ s with spaceSeen := false }.emit .identifier 1 false).expecting .argument)) := by
    rw [step_of_beginsToken ⟨0, [], rfl⟩ rfl (by decide) rfl]
    rfl
  obtain ⟨t, ht⟩ := hstart.read (by decide) hname
  obtain ⟨t, ht⟩ := ht.mark (m := .lParen) (k := .operand) (by simp [callMarks])
  obtain ⟨t, ht⟩ := ht.heredocs hne hshown htail
  exact ht.mark (m := .rParen) (by simp [callMarks])

end Scanner

namespace TokenStream

open Scanner

/-- Several heredocs on one line each get their own body, whatever is in it: the tokens of the line are
those of the call, with the content of each body behind its opener, and what is found besides, tokens
and faults, stands behind the line of the last terminator.  Of an indented heredoc the terminator may
not begin with a blank, or else no line ends it (`Scanner.terminated_range_of_blank`). -/
theorem ofText_heredocs (hs : List Heredoc) (tail : List Char) (hne : hs ≠ [])
    (hblank : ∀ h ∈ hs, h.mark.indented = true → ∀ c ∈ h.terminator.head?, Text.isBlank c = false)
    (htail : tail = [] ∨ tail.head? = some '\n') :
    ∃ line rest, (ofText (Heredoc.text hs tail)).tokens = line ++ rest ∧
      line.map Token.lexeme = Heredoc.callLexemes hs ++
        (if continuesChain false tail.tail then [] else [(.newline, "\n")]) ∧
      rest ≠ [] ∧
      (∀ t ∈ rest, Source.byteLength (Heredoc.text hs (tail.take 1)) ≤ t.span.start.byte) ∧
      ∀ f ∈ (ofText (Heredoc.text hs tail)).faults,
        Source.byteLength (Heredoc.text hs (tail.take 1)) ≤ f.span.start.byte := by
  obtain ⟨s, hline⟩ := exists_onLine_call hne (fun h hh => shown_terminator (hblank h hh)) htail
  obtain ⟨below, hbelow⟩ : ∃ below, Heredoc.bodies hs ++ tail = '\n' :: below := by
    cases hs with
    | nil => exact absurd rfl hne
    | cons => exact ⟨_, rfl⟩
  obtain ⟨t, hleads, hclear, hfaults, hwritten, hcursor⟩ := (hbelow ▸ hline).lineBreak
  obtain ⟨v, hrun, hstream⟩ := exists_run (Heredoc.text hs tail)
  obtain ⟨fuel, hrun'⟩ := hleads.run (hrun _ le_rfl)
  obtain ⟨hbeyond, hbody⟩ := beyond_of_run (hleads.visited .start) hclear hfaults hrun'
  have hplace : t.cursor.position.byte = Source.byteLength (Heredoc.text hs (tail.take 1)) := by
    obtain ⟨before, hbefore, hposition⟩ := hline.surveys
    have hsplit : Heredoc.text hs tail = Heredoc.text hs (tail.take 1) ++ tail.tail := by
      rw [Heredoc.text, Heredoc.text, List.append_assoc, List.append_assoc, ← List.drop_one,
        List.take_append_drop]
    rw [hline.behind, hsplit] at hbefore
    rw [hcursor, hposition, List.append_cancel_right hbefore, Position.byte_behind]
  rw [hplace] at hbeyond
  obtain ⟨newer, htokens, hnewer⟩ := hbeyond.tokens
  rw [snapshot_tokens, snapshot_inBody, hbody, if_neg Bool.false_ne_true] at htokens
  refine ⟨t.tokens.reverse, newer.reverse ++ [endToken v.cursor.position], ?_, ?_, by simp, ?_, ?_⟩
  · rw [hstream, tokens_ofScanner, htokens, List.reverse_append, List.append_assoc]
  · rw [List.map_reverse, hwritten]
  · intro u hu
    rcases List.mem_append.mp hu with hu | hu
    · exact hnewer u (List.mem_reverse.mp hu)
    · obtain rfl := List.mem_singleton.mp hu
      exact hbeyond.cursor
  · intro f hf
    rw [hstream, ofScanner, List.mem_reverse] at hf
    exact hbeyond.faults f hf

/-- Two bodies with quotes, an interpolation mark, a backslash and the terminator of the other one. -/
theorem ofText_heredocs_two :
    ∃ line rest, (ofText "f(<<'A', <<~'B')\nit's #\x7bx\nB\nA\n  \"A\\\nB\nx\n".toList).tokens =
        line ++ rest ∧
      line.map Token.lexeme =
        [(.identifier, "f"), (.punct .lParen, "("), (.stringBegin, "<<'A'"),
          (.stringContent, "it's #\x7bx\nB\n"), (.stringEnd, ""), (.punct .comma, ","),
          (.stringBegin, "<<~'B'"), (.stringContent, "  \"A\\\n"), (.stringEnd, ""),
          (.punct .rParen, ")"), (.newline, "\n")] ∧
      rest ≠ [] ∧ (∀ t ∈ rest, 38 ≤ t.span.start.byte) ∧
      ∀ f ∈ (ofText "f(<<'A', <<~'B')\nit's #\x7bx\nB\nA\n  \"A\\\nB\nx\n".toList).faults,
        38 ≤ f.span.start.byte :=
  ofText_heredocs
    [⟨.bare, ['A'], ["it's #\x7bx".toList, ['B']], by simp, by simp; decide, by decide, by decide⟩,
      ⟨.tilde, ['B'], ["  \"A\\".toList], by simp, by simp; decide, by decide, by decide⟩]
    "\nx\n".toList (by simp) (by simp [HeredocMark.indented]; decide) (.inr rfl)

/-- The terminator line of an indented heredoc is not found if the terminator begins with a blank: the
line is compared without the blanks it begins with, the terminator with them. -/
theorem ofText_heredocs_blank :
    ∃ h : Heredoc, h.mark = .tilde ∧ h.terminator = "\u00a0A".toList ∧ h.lines = [] ∧
      Heredoc.text [h] ['\n'] = "f(<<~'\u00a0A')\n\u00a0A\n".toList ∧
      (ofText (Heredoc.text [h] ['\n'])).faults =
        [⟨.unterminatedHeredoc "\u00a0A", ⟨⟨2, 0, 2⟩, ⟨10, 0, 9⟩⟩⟩] :=
  ⟨⟨.tilde, "\u00a0A".toList, [], by simp, by simp; decide, by simp, by simp⟩, rfl, rfl, rfl, rfl,
    by decide +kernel⟩

end TokenStream

end RubyCheck
