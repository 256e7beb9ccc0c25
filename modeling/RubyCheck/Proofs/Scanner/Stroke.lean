import RubyCheck.Proofs.Scanner.Guide
import RubyCheck.Proofs.Scanner.Lookahead

/-!
# Two readers of one line

What a token of code that opens no literal does to the scanner is put into data here, a `Stroke`.  Two
scanners that stand before the same line, and are guided alike, make the same stroke: the texts behind
that line, and all that was read before, may differ.
-/

namespace RubyCheck.Scanner

open Text

/-! ### Strokes -/

/-- What the reading of one token of code does. -/
structure Stroke where
  /-- How many characters are read. -/
  length : ℕ
  /-- The kind of the token, if one is read. -/
  kind? : Option TokenKind
  /-- The fault that is found, and over how many characters. -/
  fault? : Option (Fault.Cause × ℕ)
  expects : Expectation
  definingName : Bool
  inBlockParameters : Bool
  locals : List String

/-- The scanner behind a stroke. -/
def perform (s : Scanner) (spaced : Bool) (d : Stroke) : Scanner :=
  { s with
    cursor := .advanceBy d.length s.cursor
    tokens := (d.kind?.map fun kind =>
      ⟨kind, s.textOf d.length, s.spanOf d.length, spaced, false⟩).toList ++ s.tokens
    faults := (d.fault?.map fun f => ⟨f.1, s.spanOf f.2⟩).toList ++ s.faults
    expects := d.expects
    definingName := d.definingName
    inBlockParameters := d.inBlockParameters
    locals := d.locals }

/-- A stroke that stays within some number of characters. -/
def Stroke.Fits (d : Stroke) (n : ℕ) : Prop := d.length ≤ n ∧ ∀ f ∈ d.fault?, f.2 ≤ n

/-- Two scanners that stand before the same line and are guided alike. -/
structure SameView (s t : Scanner) : Prop where
  line : lineAhead s.cursor.rest = lineAhead t.cursor.rest
  expects : s.expects = t.expects
  definingName : s.definingName = t.definingName
  inBlockParameters : s.inBlockParameters = t.inBlockParameters
  locals : s.locals = t.locals
  lastKind? : s.lastKind? = t.lastKind?

/-- Two scanners do the same within the line ahead. -/
def Together (spaced : Bool) (s t s' t' : Scanner) : Prop :=
  ∃ d : Stroke, d.Fits (lineAhead s.cursor.rest).length ∧
    s' = s.perform spaced d ∧ t' = t.perform spaced d

/-- Two scanners both have a reading and do the same, or neither has one. -/
def Together? (spaced : Bool) (s t : Scanner) (s' t' : Option Scanner) : Prop :=
  s' = none ∧ t' = none ∨ ∃ u v, s' = some u ∧ t' = some v ∧ Together spaced s t u v

variable {s t : Scanner} {spaced : Bool}

/-- Both read a token without a fault. -/
lemma together_emit (spaced : Bool) (s t : Scanner) {n : ℕ}
    (hn : n ≤ (lineAhead s.cursor.rest).length) (kind : TokenKind) (e : Expectation)
    (naming bars : Bool) (names : List String) :
    Together spaced s t
      { s.emit kind n spaced with
        expects := e, definingName := naming, inBlockParameters := bars, locals := names }
      { t.emit kind n spaced with
        expects := e, definingName := naming, inBlockParameters := bars, locals := names } :=
  ⟨⟨n, kind, none, e, naming, bars, names⟩, ⟨hn, by simp⟩, rfl, rfl⟩

namespace SameView

/-- What is measured on the line is the same before the same line. -/
lemma measure {α : Type} (h : SameView s t) {f : List Char → α}
    (hf : ∀ cs, f (lineAhead cs) = f cs) : f s.cursor.rest = f t.cursor.rest := by
  rw [← hf, h.line, hf]

lemma textOf (h : SameView s t) {n : ℕ} (hn : n ≤ (lineAhead s.cursor.rest).length) :
    s.textOf n = t.textOf n := by
  have htake := take_lineAhead (h.line ▸ hn)
  rw [← h.line, take_lineAhead hn] at htake
  exact congrArg String.ofList htake

/-- Behind a part of the line both stand before the same line again. -/
lemma drop (h : SameView s t) {n : ℕ} (hn : n ≤ (lineAhead s.cursor.rest).length) :
    lineAhead (s.cursor.rest.drop n) = lineAhead (t.cursor.rest.drop n) := by
  rw [lineAhead_drop hn, lineAhead_drop (h.line ▸ hn), h.line]

/-- Both read a token that changes only what is expected. -/
lemma value (h : SameView s t) {n : ℕ} (hn : n ≤ (lineAhead s.cursor.rest).length)
    (kind : TokenKind) (e : Expectation) :
    Together spaced s t ((s.emit kind n spaced).expecting e) ((t.emit kind n spaced).expecting e) := by
  have htogether := together_emit spaced s t hn kind e s.definingName
    s.inBlockParameters s.locals
  rw [show ((t.emit kind n spaced).expecting e) = { t.emit kind n spaced with
    expects := e, definingName := s.definingName, inBlockParameters := s.inBlockParameters,
    locals := s.locals } by rw [h.definingName, h.inBlockParameters, h.locals]; rfl]
  exact htogether

/-- Both read a token with a fault. -/
lemma faulty (h : SameView s t) {n : ℕ} (hn : n ≤ (lineAhead s.cursor.rest).length)
    (cause : Fault.Cause) (kind : TokenKind) (e : Expectation) :
    Together spaced s t (((s.complain cause (s.spanOf n)).emit kind n spaced).expecting e)
      (((t.complain cause (t.spanOf n)).emit kind n spaced).expecting e) := by
  refine ⟨⟨n, kind, some (cause, n), e, s.definingName, s.inBlockParameters, s.locals⟩,
    ⟨hn, by simpa using hn⟩, rfl, ?_⟩
  rw [h.definingName, h.inBlockParameters, h.locals]
  rfl

/-- Both pass over characters with a fault. -/
lemma stray (h : SameView s t) {n : ℕ} (hn : n ≤ (lineAhead s.cursor.rest).length)
    (cause : Fault.Cause) :
    Together spaced s t ((s.complain cause (s.spanOf n)).skip n)
      ((t.complain cause (t.spanOf n)).skip n) := by
  refine ⟨⟨n, none, some (cause, n), s.expects, s.definingName, s.inBlockParameters, s.locals⟩,
    ⟨hn, by simpa using hn⟩, rfl, ?_⟩
  rw [h.expects, h.definingName, h.inBlockParameters, h.locals]
  rfl

theorem scanNumber (h : SameView s t) :
    Together spaced s t (s.scanNumber spaced) (t.scanNumber spaced) := by
  have hnumber : Numeral.ofText s.cursor.rest = Numeral.ofText t.cursor.rest :=
    h.measure Numeral.ofText_lineAhead
  have hlength : (Numeral.ofText s.cursor.rest).length ≤ (lineAhead s.cursor.rest).length := by
    rw [← Numeral.ofText_lineAhead]
    exact Numeral.ofText_le _
  have htext := h.textOf hlength
  unfold Scanner.scanNumber
  rw [← hnumber]
  generalize Numeral.ofText s.cursor.rest = n at hlength htext
  by_cases hmalformed : n.malformed = true
  · simp only [hmalformed, if_true]
    rw [← htext]
    exact h.faulty hlength _ n.kind .operator
  · simp only [hmalformed, Bool.false_eq_true, if_false]
    exact h.value hlength n.kind .operator

/-- Both stand before the same character of the line. -/
lemma uncons (h : SameView s t) {c : Char} {cs : List Char} (hat : s.cursor.rest = c :: cs)
    (hc : isInLine c = true) :
    ∃ ds, t.cursor.rest = c :: ds ∧ lineAhead cs = lineAhead ds := by
  have hline := h.line
  rw [hat, lineAhead_cons_of_in hc] at hline
  generalize t.cursor.rest = ts at hline ⊢
  cases lineView ts with
  | endOfText => simp at hline
  | lineBreak ds => simp at hline
  | carriageReturn ds => simp at hline
  | more d ds hd =>
    rw [lineAhead_cons_of_in hd] at hline
    obtain ⟨rfl, htail⟩ := List.cons.inj hline
    exact ⟨ds, rfl, htail⟩

/-- A run of characters behind a part of the line is the same for both, and stays on the line. -/
lemma run (h : SameView s t) {k : ℕ} (hk : k ≤ (lineAhead s.cursor.rest).length)
    {p : Char → Bool} (hp : Within p) :
    ((s.cursor.rest.drop k).takeWhile p).length = ((t.cursor.rest.drop k).takeWhile p).length ∧
      k + ((s.cursor.rest.drop k).takeWhile p).length ≤ (lineAhead s.cursor.rest).length := by
  constructor
  · rw [← takeWhile_lineAhead hp, h.drop hk, takeWhile_lineAhead hp]
  · have hrun := length_takeWhile_le_lineAhead hp (s.cursor.rest.drop k)
    rw [lineAhead_drop hk, List.length_drop] at hrun
    omega

/-- Both read a variable behind its sigils, or pass over the sigils with a fault. -/
lemma behindSigils (h : SameView s t) {k : ℕ} (hk : k ≤ (lineAhead s.cursor.rest).length)
    (kind : TokenKind) :
    Together spaced s t
      (if (s.cursor.rest.drop k).head?.any startsName then
        (s.emit kind (k + ((s.cursor.rest.drop k).takeWhile continuesName).length)
          spaced).expecting .operator
      else (s.complain (.unexpectedCharacter '@') (s.spanOf k)).skip k)
      (if (t.cursor.rest.drop k).head?.any startsName then
        (t.emit kind (k + ((t.cursor.rest.drop k).takeWhile continuesName).length)
          spaced).expecting .operator
      else (t.complain (.unexpectedCharacter '@') (t.spanOf k)).skip k) := by
  obtain ⟨hrun, hlength⟩ := h.run hk within_continuesName
  have hstarts : (s.cursor.rest.drop k).head?.any startsName =
      (t.cursor.rest.drop k).head?.any startsName := by
    rw [← any_head?_lineAhead (by decide), h.drop hk, any_head?_lineAhead (by decide)]
  rw [← hstarts, ← hrun]
  by_cases hname : (s.cursor.rest.drop k).head?.any startsName = true
  · simp only [hname, if_true]
    exact h.value hlength kind .operator
  · simp only [hname, Bool.false_eq_true, if_false]
    exact h.stray hk _

theorem scanSigil (h : SameView s t) {cs : List Char} (hat : s.cursor.rest = '@' :: cs) :
    Together spaced s t (s.scanSigil spaced) (t.scanSigil spaced) := by
  obtain ⟨ds, hat', hline⟩ := h.uncons hat (by decide)
  have hpeek (u : Scanner) {es : List Char} (hu : u.cursor.rest = '@' :: es) :
      u.cursor.peekAt 1 = es.head? := by
    simp [Cursor.peekAt, hu, List.head?_eq_getElem?]
  have hsecond : (cs.head? == some '@') = (ds.head? == some '@') := by
    rw [← head?_lineAhead (by decide), hline, head?_lineAhead (by decide)]
  have hsigils := sigils_le (c := '@') (by decide) cs
  rw [← hat] at hsigils
  unfold Scanner.scanSigil
  rw [hpeek s hat, hpeek t hat', ← hsecond]
  by_cases hclass : (cs.head? == some '@') = true
  · simp only [hclass, decide_true, Bool.and_self, if_true] at hsigils ⊢
    exact h.behindSigils hsigils .classVariable
  · simp only [hclass, decide_true, Bool.and_false, Bool.false_eq_true, if_false] at hsigils ⊢
    exact h.behindSigils hsigils .instanceVariable

theorem scanGlobal (h : SameView s t) {cs : List Char} (hat : s.cursor.rest = '$' :: cs) :
    Together spaced s t (s.scanGlobal spaced) (t.scanGlobal spaced) := by
  obtain ⟨ds, hat', hline⟩ := h.uncons hat (by decide)
  have hlength : globalNameLength? cs = globalNameLength? ds := by
    rw [← globalNameLength?_lineAhead, hline, globalNameLength?_lineAhead]
  unfold Scanner.scanGlobal
  rw [hat, hat', List.tail_cons, List.tail_cons, ← hlength]
  have hle (n : ℕ) (hn : n ≤ (lineAhead cs).length) : n + 1 ≤ (lineAhead s.cursor.rest).length := by
    rw [hat, lineAhead_cons_of_in (by decide), List.length_cons]
    omega
  cases hname : globalNameLength? cs with
  | none => exact h.stray (hle 0 (Nat.zero_le _)) _
  | some n =>
    rw [← globalNameLength?_lineAhead] at hname
    exact h.value (hle n (globalNameLength?_le hname)) _ _

theorem scanCharacter? (h : SameView s t) {cs : List Char} (hat : s.cursor.rest = '?' :: cs)
    (hslash : cs.head? ≠ some '\\') :
    Together? spaced s t (s.scanCharacter? spaced) (t.scanCharacter? spaced) := by
  obtain ⟨ds, hat', hline⟩ := h.uncons hat (by decide)
  have hslash' : ds.head? ≠ some '\\' := by
    have := head?_lineAhead (c := '\\') (by decide) ds
    rw [← hline, head?_lineAhead (by decide)] at this
    simpa [hslash] using this
  have hlength : characterLength? s.cursor.rest = characterLength? t.cursor.rest := by
    rw [hat, hat', ← characterLength?_lineAhead hslash, hline, characterLength?_lineAhead hslash']
  unfold Scanner.scanCharacter?
  rw [← hlength]
  cases hn : characterLength? s.cursor.rest with
  | none => exact .inl ⟨rfl, rfl⟩
  | some n =>
    have hle : n ≤ (lineAhead s.cursor.rest).length := by
      rw [hat, ← characterLength?_lineAhead hslash] at hn
      rw [hat, lineAhead_cons_of_in (by decide)]
      exact characterLength?_le hn
    exact .inr ⟨_, _, rfl, rfl, h.value hle _ _⟩

/-- A character of the line that does not come next in front of the one does not in front of the other
either. -/
lemma head?_ne {cs ds : List Char} (h : lineAhead cs = lineAhead ds) {c : Char}
    (hc : isInLine c = true) (hne : cs.head? ≠ some c) : ds.head? ≠ some c := by
  have hhead := head?_lineAhead hc ds
  rw [← h, head?_lineAhead hc] at hhead
  simpa [hne] using hhead

theorem scanSymbol? (h : SameView s t) {cs : List Char} (hat : s.cursor.rest = ':' :: cs)
    (hquote : cs.head? ≠ some '"' ∧ cs.head? ≠ some '\'') :
    Together? spaced s t (s.scanSymbol? spaced) (t.scanSymbol? spaced) := by
  obtain ⟨ds, hat', hline⟩ := h.uncons hat (by decide)
  have hquote' : ds.head? ≠ some '"' ∧ ds.head? ≠ some '\'' :=
    ⟨head?_ne hline (by decide) hquote.1, head?_ne hline (by decide) hquote.2⟩
  have hlength : symbolLength? cs = symbolLength? ds := by
    rw [← symbolLength?_lineAhead hquote, hline, symbolLength?_lineAhead hquote']
  unfold Scanner.scanSymbol?
  rw [hat, hat', List.tail_cons, List.tail_cons, ← hlength, ← h.lastKind?]
  cases hsymbol : symbolLength? cs with
  | none => exact .inl ⟨rfl, rfl⟩
  | some r =>
    obtain ⟨n, complete⟩ := r
    have hle : n + 1 ≤ (lineAhead s.cursor.rest).length := by
      rw [← symbolLength?_lineAhead hquote] at hsymbol
      rw [hat, lineAhead_cons_of_in (by decide), List.length_cons]
      exact Nat.succ_le_succ (symbolLength?_le hsymbol)
    refine .inr ⟨_, _, rfl, rfl, ?_⟩
    cases complete with
    | true => exact h.value hle .symbol _
    | false => exact h.faulty hle .unterminatedString .symbol _

/-- Both stand before the same operator. -/
lemma find?_startsWith (h : SameView s t) :
    (operators.find? fun op => s.cursor.startsWith op.1) =
      operators.find? fun op => t.cursor.startsWith op.1 := by
  have hinLine : ∀ op ∈ operators, InLine op.1 := by decide +kernel
  have hstarts (op) (hop : op ∈ operators) :
      s.cursor.startsWith op.1 = t.cursor.startsWith op.1 := by
    unfold Cursor.startsWith
    rw [← isPrefixOf_lineAhead (hinLine op hop), h.line, isPrefixOf_lineAhead (hinLine op hop)]
  generalize operators = ops at hstarts
  induction ops with
  | nil => rfl
  | cons op ops ih =>
    obtain ⟨hop, hops⟩ := List.forall_mem_cons.mp hstarts
    simp only [List.find?_cons, hop, ih hops]

theorem scanOperator (h : SameView s t) {c : Char} {cs : List Char} (hat : s.cursor.rest = c :: cs)
    (hc : isInLine c = true) :
    Together spaced s t (s.scanOperator spaced) (t.scanOperator spaced) := by
  obtain ⟨ds, hat', -⟩ := h.uncons hat hc
  unfold Scanner.scanOperator
  rw [← h.find?_startsWith, ← h.lastKind?]
  cases hoperator : operators.find? fun op => s.cursor.startsWith op.1 with
  | none =>
    have hpeek : s.cursor.peek = t.cursor.peek := by
      rw [Cursor.peek, Cursor.peek, hat, hat']
      rfl
    rw [← hpeek]
    refine h.stray ?_ _
    rw [hat, lineAhead_cons_of_in hc]
    simp
  | some op =>
    obtain ⟨text, kind⟩ := op
    have hle : text.length ≤ (lineAhead s.cursor.rest).length := by
      have hmem := List.mem_of_find?_eq_some hoperator
      have hstarts := List.find?_some hoperator
      have hinLine : ∀ op ∈ operators, InLine op.1 := by decide +kernel
      rw [Cursor.startsWith, ← isPrefixOf_lineAhead (hinLine _ hmem)] at hstarts
      exact (List.isPrefixOf_iff_prefix.mp hstarts).length_le
    have hdefined : (t.emit kind text.length spaced).definingName =
        (s.emit kind text.length spaced).definingName := h.definingName.symm
    dsimp only
    rw [hdefined]
    by_cases hmethod : ((s.emit kind text.length spaced).definingName && kind.isOperatorMethod) = true
    · simp only [hmethod, if_true]
      refine ⟨⟨text.length, kind, none, .argument, false, s.inBlockParameters, s.locals⟩,
        ⟨hle, by simp⟩, rfl, ?_⟩
      rw [h.inBlockParameters, h.locals]
      rfl
    · simp only [hmethod, Bool.false_eq_true, if_false]
      by_cases hpipe : (kind == .punct .pipe) = true
      · simp only [hpipe, if_true]
        refine ⟨⟨text.length, kind, none, afterOperator kind, s.definingName, _, s.locals⟩,
          ⟨hle, by simp⟩, rfl, ?_⟩
        rw [h.locals]
        rfl
      · simp only [hpipe, Bool.false_eq_true, if_false]
        exact h.value hle kind _

/-- A part of the line that is not the whole line can be made one character longer. -/
lemma succ_le_of_drop {n : ℕ} {cs : List Char} (hn : n ≤ (lineAhead cs).length)
    (h : lineAhead (cs.drop n) ≠ []) : n + 1 ≤ (lineAhead cs).length := by
  rw [lineAhead_drop hn] at h
  have := List.length_pos_iff.mpr h
  rw [List.length_drop] at this
  omega

/-- Whether a label ends behind a name can be told from the line. -/
lemma label_lineAhead (cs : List Char) :
    ((lineAhead cs).head? == some ':' && (lineAhead cs).tail.head? != some ':') =
      (cs.head? == some ':' && cs.tail.head? != some ':') := by
  cases lineView cs with
  | endOfText => rfl
  | lineBreak ds => rfl
  | carriageReturn ds => rfl
  | more c ds hc =>
    rw [lineAhead_cons_of_in hc]
    simp only [List.tail_cons, bne, head?_lineAhead (c := ':') (by decide)]
    rfl

theorem scanPlainName (h : SameView s t) {n : ℕ} (hn : n ≤ (lineAhead s.cursor.rest).length)
    (dotFollows : Bool) :
    Together spaced s t (s.scanPlainName n spaced dotFollows)
      (t.scanPlainName n spaced dotFollows) := by
  have hcapital : s.cursor.rest.head?.any isCapital = t.cursor.rest.head?.any isCapital := by
    rw [← any_head?_lineAhead (by decide), h.line, any_head?_lineAhead (by decide)]
  have hdot : s.behindDot = t.behindDot := by
    unfold behindDot
    rw [h.expects, h.definingName]
  have hassigns : assigns (s.cursor.rest.drop n) = assigns (t.cursor.rest.drop n) := by
    rw [← assigns_lineAhead, h.drop hn, assigns_lineAhead]
  have hafter (u : Scanner) (kind : TokenKind) :
      (u.emit kind n spaced).cursor.rest = u.cursor.rest.drop n := Cursor.rest_advanceBy n u.cursor
  unfold Scanner.scanPlainName
  simp only [← hcapital, ← hdot, ← h.definingName, ← h.inBlockParameters, hafter, ← hassigns,
    ← h.textOf hn]
  generalize (if s.cursor.rest.head?.any isCapital = true then TokenKind.constant
    else .identifier) = kind
  by_cases hnaming : s.definingName = true
  · simp only [hnaming, if_true]
    refine ⟨⟨n, kind, none, .argument, dotFollows, s.inBlockParameters, s.locals⟩,
      ⟨hn, by simp⟩, rfl, ?_⟩
    rw [h.inBlockParameters, h.locals]
    rfl
  by_cases hbehind : s.behindDot = true
  · simp only [hnaming, hbehind, Bool.false_eq_true, if_true, if_false]
    exact h.value hn kind _
  by_cases hconstant : s.cursor.rest.head?.any isCapital = true
  · simp only [hnaming, hbehind, hconstant, Bool.false_eq_true, if_true, if_false]
    exact h.value hn kind _
  simp only [hnaming, hbehind, hconstant, Bool.false_eq_true, if_false]
  by_cases hbound : (s.inBlockParameters || assigns (s.cursor.rest.drop n)) = true
  · have hlocals : ((s.emit kind n spaced).remember (s.textOf n)).locals =
        ((t.emit kind n spaced).remember (s.textOf n)).locals := by
      change (if s.locals.contains (s.textOf n) then _ else { s.emit kind n spaced with
        locals := s.textOf n :: s.locals }).locals = (if t.locals.contains (s.textOf n) then _ else
          { t.emit kind n spaced with locals := s.textOf n :: t.locals }).locals
      rw [h.locals]
      split
      · exact h.locals
      · rfl
    simp only [hbound, if_true]
    rw [remember_eq, remember_eq (s := t.emit kind n spaced), ← hlocals]
    refine ⟨⟨n, kind, none, _, s.definingName, s.inBlockParameters, _⟩, ⟨hn, by simp⟩, rfl, ?_⟩
    rw [h.definingName, h.inBlockParameters]
    rfl
  · have hlocals : (t.emit kind n spaced).locals = (s.emit kind n spaced).locals := h.locals.symm
    simp only [hbound, Bool.false_eq_true, if_false]
    rw [hlocals]
    exact h.value hn kind _

theorem scanName (h : SameView s t) :
    Together spaced s t (s.scanName spaced) (t.scanName spaced) := by
  have hname : nameLength s.cursor.rest = nameLength t.cursor.rest := h.measure nameLength_lineAhead
  have hle : nameLength s.cursor.rest ≤ (lineAhead s.cursor.rest).length := by
    rw [← nameLength_lineAhead]
    exact nameLength_le _
  unfold Scanner.scanName
  dsimp only
  rw [← hname]
  generalize nameLength s.cursor.rest = n at hle
  have hlabel : (s.labelAllowed && (s.cursor.rest.drop n).head? == some ':' &&
      (s.cursor.rest.drop n).tail.head? != some ':') =
      (t.labelAllowed && (t.cursor.rest.drop n).head? == some ':' &&
      (t.cursor.rest.drop n).tail.head? != some ':') := by
    have hallowed : s.labelAllowed = t.labelAllowed := by
      unfold labelAllowed behindDot
      rw [h.expects, h.definingName]
    rw [Bool.and_assoc, Bool.and_assoc, ← label_lineAhead, h.drop hle, label_lineAhead, hallowed]
  have hsetter : "=(".toList.isPrefixOf (s.cursor.rest.drop n) =
      "=(".toList.isPrefixOf (t.cursor.rest.drop n) := by
    rw [← isPrefixOf_lineAhead (by decide +kernel), h.drop hle, isPrefixOf_lineAhead (by decide +kernel)]
  rw [← hlabel, ← hsetter, ← h.definingName]
  by_cases hcolon : (s.labelAllowed && (s.cursor.rest.drop n).head? == some ':' &&
      (s.cursor.rest.drop n).tail.head? != some ':') = true
  · simp only [hcolon, if_true]
    refine h.value (succ_le_of_drop hle ?_) _ _
    simp only [Bool.and_eq_true, beq_iff_eq] at hcolon
    obtain ⟨ds, hds⟩ := List.head?_eq_some_iff.mp hcolon.1.2
    rw [hds, lineAhead_cons_of_in (by decide)]
    exact List.cons_ne_nil _ _
  simp only [hcolon, Bool.false_eq_true, if_false]
  have hle' : (if (s.definingName && "=(".toList.isPrefixOf (s.cursor.rest.drop n)) = true then n + 1
      else n) ≤ (lineAhead s.cursor.rest).length := by
    split
    · rename_i hequals
      simp only [Bool.and_eq_true] at hequals
      obtain ⟨ds, hds⟩ := List.isPrefixOf_iff_prefix.mp hequals.2
      refine succ_le_of_drop hle ?_
      rw [← hds]
      exact List.cons_ne_nil '=' _
    · exact hle
  generalize (if (s.definingName && "=(".toList.isPrefixOf (s.cursor.rest.drop n)) = true then n + 1
    else n) = k at hle'
  have hdot : ((s.cursor.rest.drop k).head? == some '.') =
      ((t.cursor.rest.drop k).head? == some '.') := by
    rw [← head?_lineAhead (by decide), h.drop hle', head?_lineAhead (by decide)]
  rw [← hdot]
  generalize ((s.cursor.rest.drop k).head? == some '.') = dotFollows
  have hkeyword : s.keywordHere? k dotFollows = t.keywordHere? k dotFollows := by
    unfold keywordHere? behindDot
    rw [h.expects, h.definingName, h.textOf hle']
  rw [← hkeyword]
  cases s.keywordHere? k dotFollows with
  | none => exact h.scanPlainName hle' dotFollows
  | some word =>
    refine ⟨⟨k, some (.keyword word), none, afterKeyword word, _, s.inBlockParameters, s.locals⟩,
      ⟨hle', by simp⟩, rfl, ?_⟩
    rw [h.inBlockParameters, h.locals]
    rfl

/-- Both expect a value, or neither does. -/
lemma valueExpected (h : SameView s t) {c : Char} {cs : List Char} (hat : s.cursor.rest = c :: cs)
    (hc : isInLine c = true) : s.valueExpected spaced = t.valueExpected spaced := by
  obtain ⟨ds, hat', hline⟩ := h.uncons hat hc
  -- A line break behind the character is a blank, as the end of the text is none.
  have htight (es : List Char) : valueExpected.followedTightly (lineAhead es).head? =
      valueExpected.followedTightly es.head? := by
    cases lineView es with
    | endOfText => rfl
    | lineBreak es => rfl
    | carriageReturn es => rfl
    | more e es he => rw [lineAhead_cons_of_in he]; rfl
  have hpeek (u : Scanner) {es : List Char} (hu : u.cursor.rest = c :: es) :
      u.cursor.peekAt 1 = es.head? := by
    simp [Cursor.peekAt, hu, List.head?_eq_getElem?]
  unfold Scanner.valueExpected
  rw [← h.expects, hpeek s hat, hpeek t hat', ← htight cs, hline, htight]

/-- A definition gives a method the same operator name in front of both. -/
lemma definedOperator? (h : SameView s t) : s.definedOperator? = t.definedOperator? := by
  have hfind : definedOperators.find? s.cursor.startsWith =
      definedOperators.find? t.cursor.startsWith := by
    have hinLine : ∀ word ∈ definedOperators, InLine word := by decide +kernel
    have hstarts (u : Scanner) : definedOperators.find? u.cursor.startsWith =
        definedOperators.find? fun word => word.isPrefixOf (lineAhead u.cursor.rest) := by
      generalize definedOperators = words at hinLine
      induction words with
      | nil => rfl
      | cons word words ih =>
        obtain ⟨hword, hwords⟩ := List.forall_mem_cons.mp hinLine
        rw [List.find?_cons, List.find?_cons, isPrefixOf_lineAhead hword, ih hwords]
        rfl
    rw [hstarts, h.line, ← hstarts]
  unfold Scanner.definedOperator?
  rw [h.definingName, hfind]

/-- The operator name that a definition gives to a method stands on the line. -/
lemma definedOperator?_le {n : ℕ} (h : s.definedOperator? = some n) :
    n ≤ (lineAhead s.cursor.rest).length := by
  unfold Scanner.definedOperator? at h
  split at h
  · obtain ⟨word, hword, rfl⟩ := Option.map_eq_some_iff.mp h
    have hinLine : ∀ word ∈ definedOperators, InLine word := by decide +kernel
    have hstarts := List.find?_some hword
    rw [Cursor.startsWith, ← isPrefixOf_lineAhead (hinLine _ (List.mem_of_find?_eq_some hword))]
      at hstarts
    exact (List.isPrefixOf_iff_prefix.mp hstarts).length_le
  · simp at h

end SameView

end RubyCheck.Scanner
