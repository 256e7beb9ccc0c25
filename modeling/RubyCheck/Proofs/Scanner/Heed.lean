import RubyCheck.Proofs.Memory
import RubyCheck.Proofs.Scanner.Return

/-!
# What the scanner goes by

The invariants of reading that relate a scanner to what its tokens tell of names of variables
(`Recall`): the tokens say as many literals to be open as its modes do (`Recounted`), it knows at least
the names that they tell, and it expects the name of a method exactly where they do (`Heeds`).  Since
names are looked for on their lines, a cursor is followed as far as the lines ahead of it
(`Cursor.Sees`).
-/

namespace RubyCheck

/-! ### Lines ahead -/

namespace Cursor

/-- A cursor on a text that sees it up to its end or up to the end of a line. -/
def Sees (source : List Char) (c : Cursor) : Prop :=
  ∃ before behind, source = before ++ c.rest ++ behind ∧ c.position = .behind before ∧
    (behind = [] ∨ ∀ x ∈ c.rest.getLast?, x = '\n')

variable {source : List Char} {c : Cursor}

lemma Sees.advanceBy (h : c.Sees source) (n : ℕ) : (Cursor.advanceBy n c).Sees source := by
  obtain ⟨before, behind, hsource, hposition, hend⟩ := h
  refine ⟨before ++ c.rest.take n, behind, ?_, ?_, hend.imp_right fun hlast x hx => ?_⟩
  · rw [rest_advanceBy, List.append_assoc before, List.take_append_drop, hsource]
  · rw [position_advanceBy, hposition, Position.behind_append]
  · refine hlast x ?_
    rw [rest_advanceBy, List.getLast?_drop] at hx
    split at hx
    · simp at hx
    · exact hx

/-- Seeing less keeps a cursor seeing whole lines, if what it still sees is whole lines. -/
lemma Sees.narrow (h : c.Sees source) {n : ℕ}
    (hn : c.rest.length ≤ n ∨ ∀ x ∈ (c.rest.take n).getLast?, x = '\n') :
    (c.narrow n).Sees source := by
  obtain ⟨before, behind, hsource, hposition, hend⟩ := h
  have hrest : c.rest = (c.narrow n).rest ++ c.rest.drop n := (List.take_append_drop n c.rest).symm
  refine ⟨before, c.rest.drop n ++ behind, ?_, hposition, ?_⟩
  · rw [List.append_assoc before, ← List.append_assoc (c.narrow n).rest, ← hrest, hsource,
      List.append_assoc]
  · rcases hn with hlength | hlines
    · have hall : (c.narrow n).rest = c.rest := List.take_of_length_le hlength
      rw [List.drop_eq_nil_of_le hlength, List.nil_append, hall]
      exact hend
    · exact .inr hlines

lemma Sees.nextLine (h : c.Sees source) : c.nextLine.Sees source := by
  rw [nextLine_eq_advanceBy]
  exact h.advanceBy _

/-- The next line is below, if there is one. -/
lemma line_lt_line_nextLine (h : c.nextLine.rest ≠ []) :
    c.position.line < c.nextLine.position.line := by
  rw [nextLine_eq_advanceBy] at h ⊢
  have hsplit := List.takeWhile_append_dropWhile (p := (· != '\n')) (l := c.rest)
  obtain ⟨x, xs, hdrop⟩ : ∃ x xs, c.rest.dropWhile (· != '\n') = x :: xs := by
    refine List.exists_cons_of_ne_nil fun hnil => h ?_
    rw [hnil, List.append_nil] at hsplit
    rw [rest_advanceBy, run, hsplit]
    simp
  have hx : x = '\n' := by
    have hhead := List.head_dropWhile_not (· != '\n') (l := c.rest) (by simp [hdrop])
    simpa [hdrop] using hhead
  have hmem : '\n' ∈ c.rest.take (c.run (· != '\n') + 1) := by
    rw [hdrop, hx] at hsplit
    rw [run]
    generalize c.rest.takeWhile (· != '\n') = before at hsplit ⊢
    rw [← hsplit, List.take_length_add_append]
    simp
  rw [line_advanceBy]
  have hcount := List.count_pos_iff.mpr hmem
  omega

/-- What stands behind a token that ends at a cursor is what the cursor sees and perhaps more lines. -/
lemma Sees.behind_eq (h : c.Sees source) {t : Token} (ht : t.span.stop = c.position) :
    ∃ more, t.behind source = c.rest ++ more ∧ (more = [] ∨ ∀ x ∈ c.rest.getLast?, x = '\n') := by
  obtain ⟨before, behind, hsource, hposition, hend⟩ := h
  refine ⟨behind, ?_, hend⟩
  rw [Token.behind, ht, hposition, hsource, Position.byte_behind, List.append_assoc,
    Source.dropBytes?_append, Option.getD_some]

lemma Sees.head?_behind (h : c.Sees source) {t : Token} (ht : t.span.stop = c.position)
    (hrest : c.rest ≠ []) : (t.behind source).head? = c.peek := by
  obtain ⟨more, hbehind, -⟩ := h.behind_eq ht
  rw [hbehind, List.head?_append_of_ne_nil _ hrest, peek]

end Cursor

namespace Scanner

variable {source : List Char} {base older : List Token} {s s' t u : Scanner}
  {nested : Scanner → Option Scanner}

/-- The body of a heredoc is made of whole lines, unless its terminator is missing and it is all that
is left of the text. -/
theorem HeredocOpener.range_lines (o : HeredocOpener) {start n : ℕ} {line cs seen : List Char}
    (hseen : seen.length = n) (hstart : start ≤ n)
    (hlines : ∀ x ∈ (seen.take start).getLast?, x = '\n') :
    (seen ++ cs).length ≤ (o.range start n line cs).body ∨
      ∀ x ∈ ((seen ++ cs).take (o.range start n line cs).body).getLast?, x = '\n' := by
  fun_induction HeredocOpener.range o start n line cs generalizing seen with
  | case1 start n line _ => exact .inr (by simpa using hlines)
  | case2 start n line _ => exact .inl (by simp [hseen])
  | case3 start n line cs _ =>
    right
    dsimp only
    rw [List.take_append_of_le_length (hseen ▸ hstart)]
    exact hlines
  | case4 start n line cs _ ih =>
    have hlast : ∀ x ∈ ((seen ++ ['\n']).take (n + 1)).getLast?, x = '\n' := by
      rw [List.take_of_length_le (by simp [hseen])]
      simp [eq_comm]
    have hlength : (seen ++ ['\n']).length = n + 1 := by simp [hseen]
    simpa using ih hlength le_rfl hlast
  | case5 start n line c cs _ ih =>
    have hlast : ∀ x ∈ ((seen ++ [c]).take start).getLast?, x = '\n' := by
      rw [List.take_append_of_le_length (hseen ▸ hstart)]
      exact hlines
    have hlength : (seen ++ [c]).length = n + 1 := by simp [hseen]
    simpa using ih hlength (Nat.le_succ_of_le hstart) hlast

/-- A word on one line stands at the beginning of a text no matter what follows the line. -/
lemma isPrefixOf_append_of_mem {word cs more : List Char} (hword : '\n' ∉ word) (hcs : '\n' ∈ cs) :
    word.isPrefixOf (cs ++ more) = word.isPrefixOf cs := by
  induction word generalizing cs with
  | nil => simp
  | cons c word ih =>
    cases cs with
    | nil => simp at hcs
    | cons d cs =>
      rw [List.cons_append, List.isPrefixOf_cons_cons, List.isPrefixOf_cons_cons]
      by_cases hcd : c = d
      · have hmem : '\n' ∈ cs := by
          refine (List.mem_cons.mp hcs).resolve_left fun hd => hword ?_
          rw [hcd, ← hd]
          exact List.mem_cons_self
        rw [ih (fun h => hword (List.mem_cons_of_mem _ h)) hmem]
      · have hne : (c == d) = false := by simpa using hcd
        rw [hne, Bool.false_and, Bool.false_and]

/-- Whether a name is assigned is decided on its line. -/
lemma assigns_append {cs : List Char} (more : List Char) (h : '\n' ∈ cs) :
    assigns (cs ++ more) = assigns cs := by
  have hmem : '\n' ∈ cs.dropWhile fun c => c == ' ' || c == '\t' := by
    rw [← List.takeWhile_append_dropWhile (p := fun c => c == ' ' || c == '\t') (l := cs)] at h
    refine (List.mem_append.mp h).resolve_left fun hblank => ?_
    simpa using List.all_eq_true.mp List.all_takeWhile _ hblank
  have hcompound : ∀ op ∈ compoundAssignments, '\n' ∉ op := by decide
  have hdrop : (cs ++ more).dropWhile (fun c => c == ' ' || c == '\t') =
      cs.dropWhile (fun c => c == ' ' || c == '\t') ++ more := by
    rw [List.dropWhile_append, if_neg (by simpa using List.ne_nil_of_mem hmem)]
  unfold assigns
  rw [hdrop]
  generalize cs.dropWhile (fun c => c == ' ' || c == '\t') = ds at hmem
  have hany : (compoundAssignments.any fun op => op.isPrefixOf (ds ++ more)) =
      compoundAssignments.any fun op => op.isPrefixOf ds := by
    rw [Bool.eq_iff_iff, List.any_eq_true, List.any_eq_true]
    refine exists_congr fun op => and_congr_right fun hop => ?_
    rw [isPrefixOf_append_of_mem (hcompound op hop) hmem]
  match ds with
  | [] => simp at hmem
  | [c] =>
    obtain rfl : '\n' = c := by simpa using hmem
    exact hany
  | c :: d :: ds =>
    by_cases hc : c = '='
    · subst hc
      rfl
    · rw [List.cons_append, List.cons_append]
      split <;> simp_all

/-! ### Open literals -/

/-- Whether a mode is a literal with a delimiter at its end. -/
def Mode.isDelimited : Mode → Bool
  | .literal l => l.close.isSome
  | .code _ => false

lemma SameLayers.countP_isDelimited {ms ms' : List Mode} (h : SameLayers ms ms') :
    ms'.countP Mode.isDelimited = ms.countP Mode.isDelimited := by
  cases h with
  | refl => rfl
  | braces d d' outer => rfl

/-- The tokens of a snapshot, read behind those in front of its text, say as many literals to be open
as its modes do, and nothing that is known stands in front of what could have been a division. -/
structure Recounted (source : List Char) (base : List Token) (r : Snapshot) : Prop where
  alternates : Alternates r.modes
  delimited : ∀ l, .literal l ∈ r.modes → l.singleLine = true → l.close.isSome = true
  sees : r.cursor.Sees source
  ahead : ∀ c ∈ r.resume, c.Sees source
  around : (Recall.ofTokens source (r.tokens ++ base)).around =
    List.replicate (r.modes.countP Mode.isDelimited) none ++ (Recall.ofTokens source base).around
  settled : Recall.Settled source (r.tokens ++ base)

/-- A move that leaves as many literals open. -/
lemma Recounted.carry {n : ℕ} (h : Recounted source base s.snapshot) (halt : Alternates s'.modes)
    (hdelimited : ∀ l, .literal l ∈ s'.modes → l.singleLine = true → l.close.isSome = true)
    (hcount : s'.modes.countP Mode.isDelimited = s.modes.countP Mode.isDelimited)
    (hcursor : s'.cursor = Cursor.advanceBy n s.cursor) (hresume : s'.resume = s.resume)
    (haround : (Recall.ofTokens source (s'.tokens ++ base)).around =
      (Recall.ofTokens source (s.tokens ++ base)).around)
    (hsettled : Recall.Settled source (s'.tokens ++ base)) :
    Recounted source base s'.snapshot where
  alternates := halt
  delimited := hdelimited
  sees := by
    rw [snapshot_cursor, hcursor]
    exact h.sees.advanceBy n
  ahead := by
    rw [snapshot_resume, hresume]
    exact h.ahead
  around := by
    rw [snapshot_tokens, snapshot_modes, haround, hcount]
    exact h.around
  settled := hsettled

/-- A delimited literal ends. -/
lemma Recounted.ofTokens_end {l : OpenLiteral} {outer : List Mode} {t : Token}
    (h : Recounted source base s.snapshot) (hmodes : s.modes = .literal l :: outer)
    (hclose : l.close.isSome = true) (ht : t.kind = .stringEnd) :
    Recall.ofTokens source (t :: (s.tokens ++ base)) =
      ⟨(Recall.ofTokens source (s.tokens ++ base)).now,
        List.replicate (outer.countP Mode.isDelimited) none ++
          (Recall.ofTokens source base).around⟩ := by
  have hdelimited : Mode.isDelimited (.literal l) = true := hclose
  have haround := h.around
  rw [snapshot_tokens, snapshot_modes, hmodes, List.countP_cons_of_pos hdelimited,
    List.replicate_succ, List.cons_append] at haround
  rw [Recall.ofTokens_end ht, haround]
  rfl

/-- At the end of the text the innermost mode is closed. -/
lemma Recounted.dropMode {m m' : Mode} {outer : List Mode} (h : Recounted source base s.snapshot)
    (hmodes : s.modes = m :: m' :: outer) :
    Recounted source base (s.dropMode m (m' :: outer)).snapshot := by
  have halt := alternates_dropMode hmodes h.alternates
  have hdelimited : ∀ l, .literal l ∈ m' :: outer → l.singleLine = true → l.close.isSome = true :=
    fun l hl => h.delimited l (by
      rw [snapshot_modes, hmodes]
      exact List.mem_cons_of_mem _ hl)
  cases m with
  | code d =>
    rw [snapshot_dropMode_code]
    refine ⟨halt, hdelimited, h.sees, h.ahead, ?_, h.settled.cons (by simp [Token.empty])⟩
    rw [List.cons_append, Recall.ofTokens_parts (.inr (.inr rfl))]
    have haround := h.around
    rw [snapshot_modes, hmodes] at haround
    exact haround
  | literal l =>
    cases hclose : l.close with
    | none =>
      rw [snapshot_dropMode_body hclose]
      refine ⟨halt, hdelimited, h.sees, h.ahead, ?_, h.settled⟩
      have haround := h.around
      have hnone : Mode.isDelimited (.literal l) = false := by simp [Mode.isDelimited, hclose]
      rw [snapshot_modes, hmodes, List.countP_cons_of_neg (by simp [hnone])] at haround
      exact haround
    | some c =>
      have hsome : l.close.isSome = true := by simp [hclose]
      rw [snapshot_dropMode_literal hsome]
      refine ⟨halt, hdelimited, h.sees, h.ahead, ?_, h.settled.cons (by simp [Token.empty])⟩
      rw [List.cons_append, h.ofTokens_end hmodes hsome rfl]

theorem Recounted.closes (h : Recounted source base s.snapshot) (hmove : Closes s s') :
    Recounted source base s'.snapshot := by
  refine hmove.holds (Q := fun u => Recounted source base u.snapshot) ?_ ?_ ?_
  · intro u v hcore hv
    rwa [snapshot_eq_of_core hcore]
  · intro u m m' outer hmodes _ hu
    exact hu.dropMode hmodes
  · rintro t (⟨rfl, -⟩ | rfl) <;> exact h

/-- When all is closed, nothing is open but what was open in front of the text. -/
lemma Recounted.around_of_closed (h : Recounted source base s.snapshot)
    (hlength : s.modes.length = 1) :
    (Recall.ofTokens source (s.tokens ++ base)).around = (Recall.ofTokens source base).around := by
  have halt : Alternates s.modes := h.alternates
  have haround := h.around
  rw [snapshot_tokens, snapshot_modes] at haround
  generalize s.modes = ms at halt hlength haround
  cases halt with
  | outermost d => exact haround
  | literal l d outer _ => simp at hlength
  | code d l outer _ => simp at hlength

/-! ### What the scanner goes by -/

/-- What the scanner goes by besides what it expects. -/
def guide (s : Scanner) : List String × Bool × Bool :=
  (s.locals, s.definingName, s.inBlockParameters)

lemma guide_beginLiteral (o : Opening) (spaced : Bool) :
    (s.beginLiteral o spaced).guide = s.guide := by
  simp only [beginLiteral, endOnItsLine]
  split_ifs <;> rfl

lemma guide_popLiteral (promote : Bool) : (s.popLiteral promote).2.guide = s.guide := by
  unfold popLiteral
  split <;> rfl

lemma guide_abandonLiteral (l : OpenLiteral) (outer : List Mode) :
    (s.abandonLiteral l outer).guide = s.guide := guide_popLiteral false

lemma guide_closeLiteral (l : OpenLiteral) (outer : List Mode) :
    (s.closeLiteral l outer).guide = s.guide := by
  have hpop := guide_popLiteral
    (s := { s with modes := outer }.emit .stringEnd (s.closingWidth l) false)
    (l.flavor == Flavor.string)
  have hclose : (s.closeLiteral l outer).guide =
      (({ s with modes := outer }.emit .stringEnd (s.closingWidth l) false).popLiteral
        (l.flavor == Flavor.string)).2.guide := by
    unfold closeLiteral closingWidth
    dsimp only
    split_ifs <;> rfl
  exact hclose.trans hpop

/-- A literal opens at the cursor, whatever else the scanner goes by. -/
def Opens (s : Scanner) : Prop :=
  s.InCode ∧ s.definingName = false ∧ (s.opening? s.spaceSeen).isSome = true

/-- In code the scanner goes by the last token: whether the name of a method is expected, and whether
a slash could begin an argument. -/
structure Expects (source : List Char) (older : List Token) (s : Scanner) : Prop where
  last : s.lastKind? = older.head?.map (·.kind)
  method : s.expects = .methodName ↔ Token.methodAwaited older = true
  argument : s.expects = .argument → ∀ t ∈ older.head?, Recall.knows source older.tail t = false

/-- The scanner goes by what the tokens tell: it knows the names they tell, and it stands in front of
the name of a method, or between bars, where they say so. -/
structure Heeds (source : List Char) (older : List Token) (s : Scanner) : Prop where
  expects : s.InCode → Expects source older s
  names : (Recall.ofTokens source older).now.names ⊆ s.locals
  naming : s.definingName = true → (Recall.ofTokens source older).now.naming = true
  pending : ∀ l ∈ (Recall.ofTokens source older).now.pending, l ≤ s.cursor.position.line
  ahead : ∀ c ∈ s.resume, c.rest ≠ [] →
    ∃ l ∈ (Recall.ofTokens source older).now.pending, l < c.position.line
  bar : ∀ l ∈ (Recall.ofTokens source older).now.bar, l ≤ s.cursor.position.line ∧
    (∀ c ∈ s.resume, c.rest ≠ [] → l < c.position.line) ∧
      (s.cursor.position.line = l → s.inBlockParameters = true ∨ s.Opens)

/-- The invariant of reading a text behind some tokens: the tokens tell what is open, and as long as
there is more to read the scanner goes by them. -/
structure Remembers (source : List Char) (base : List Token) (s : Scanner) : Prop where
  recounted : Recounted source base s.snapshot
  heeds : s.cursor.rest ≠ [] → Heeds source (s.tokens ++ base) s

/-- A move that changes nothing of what the scanner goes by, over text or a token that tells nothing. -/
lemma Heeds.carry {older' : List Token} (h : Heeds source older s) (hopens : ¬ s.Opens)
    (hnow : (Recall.ofTokens source older').now = (Recall.ofTokens source older).now)
    (hguide : s'.guide = s.guide) (hresume : s'.resume = s.resume)
    (hline : s.cursor.position.line ≤ s'.cursor.position.line)
    (hcode : s'.InCode → Expects source older' s') : Heeds source older' s' where
  expects := hcode
  names := by
    rw [hnow, show s'.locals = s.locals from congrArg (·.1) hguide]
    exact h.names
  naming := by
    rw [hnow, show s'.definingName = s.definingName from congrArg (·.2.1) hguide]
    exact h.naming
  pending l hl := (h.pending l (hnow ▸ hl)).trans hline
  ahead := by
    rw [hnow, hresume]
    exact h.ahead
  bar l hl := by
    obtain ⟨hle, hahead, hbetween⟩ := h.bar l (hnow ▸ hl)
    refine ⟨hle.trans hline, hresume ▸ hahead, fun heq => .inl ?_⟩
    rw [show s'.inBlockParameters = s.inBlockParameters from congrArg (·.2.2) hguide]
    exact (hbetween (by omega)).resolve_right hopens

end Scanner

end RubyCheck
