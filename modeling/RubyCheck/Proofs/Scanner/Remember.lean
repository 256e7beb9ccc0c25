import RubyCheck.Proofs.Scanner.Heed

/-!
# The scanner knows what the tokens tell

The invariant `Remembers` is carried through every step of a scanner, into the bodies of heredocs,
where the tokens in front of the body count as well, and back to the opener of a literal: there the
scanner is in an earlier state again and has forgotten no name.  So no name of a variable that the
tokens tell stands in front of a regular expression that could have been a division
(`settled_of_run`).
-/

namespace RubyCheck.Scanner

variable {source : List Char} {base older : List Token} {s s' t u : Scanner}
  {nested : Scanner → Option Scanner}

/-! ### Between tokens -/

lemma ahead_of_advanceBy {c : Cursor} {n : ℕ} (h : (Cursor.advanceBy n c).rest ≠ []) :
    c.rest ≠ [] := by
  rintro hrest
  simp [hrest] at h

/-- Passing over some characters. -/
lemma Remembers.skip (h : Remembers source base s) (hopens : ¬ s.Opens) (n : ℕ)
    (fs : List Fault) (b : Bool) :
    Remembers source base
      { s with cursor := Cursor.advanceBy n s.cursor, faults := fs, spaceSeen := b } where
  recounted := { h.recounted with sees := h.recounted.sees.advanceBy n }
  heeds hrest := by
    have hline := Cursor.line_advanceBy n s.cursor
    have hheeds := h.heeds (ahead_of_advanceBy hrest)
    refine hheeds.carry hopens rfl rfl rfl (by dsimp only; omega) fun hcode => ?_
    obtain ⟨hlast, hmethod, hargument⟩ := hheeds.expects hcode
    exact ⟨hlast, hmethod, hargument⟩

/-- Behind a line break reading goes on below a line, if what is still to come of heredocs is below
it. -/
lemma line_lt_of_lineBreak {rest : List Char} {l : ℕ} (hahead : s.cursor.rest = '\n' :: rest)
    (hline : l ≤ s.cursor.position.line) (hresume : ∀ c ∈ s.resume, c.rest ≠ [] → l < c.position.line)
    (hrest : (s.resume.getD (.advanceBy 1 s.cursor)).rest ≠ []) :
    l < (s.resume.getD (.advanceBy 1 s.cursor)).position.line := by
  cases hr : s.resume with
  | none =>
    have hnext := Cursor.line_advanceBy 1 s.cursor
    rw [hahead, List.take_succ_cons, List.take_zero, List.count_singleton_self] at hnext
    rw [Option.getD_none]
    omega
  | some r =>
    rw [hr] at hrest
    exact hresume r hr hrest

/-- A line break ends the bars of block parameters and the search for the name of a `def`. -/
lemma Remembers.lineBreak (h : Remembers source base s) {rest : List Char} {tokens : List Token}
    {e : Expectation} (hcode : s.InCode) (hahead : s.cursor.rest = '\n' :: rest)
    (hread : tokens = s.tokens ∧ e = s.expects ∨
      tokens = ⟨.newline, s.textOf 1, s.spanOf 1, false, false⟩ :: s.tokens ∧ e = .operand) :
    Remembers source base { s with
      cursor := s.resume.getD (.advanceBy 1 s.cursor)
      tokens := tokens
      expects := e
      spaceSeen := true
      definingName := false
      inBlockParameters := false
      resume := none } := by
  obtain ⟨hexpects, hnames, -, hpending, hresume, hbar⟩ := h.heeds (by simp [hahead])
  have hsees : (s.resume.getD (.advanceBy 1 s.cursor)).Sees source := by
    cases hr : s.resume with
    | none => exact h.recounted.sees.advanceBy 1
    | some r => exact h.recounted.ahead r hr
  rcases hread with ⟨rfl, rfl⟩ | ⟨rfl, rfl⟩
  · have hbelow : ∀ l ∈ (Recall.ofTokens source (s.tokens ++ base)).now.pending,
        ∀ c ∈ s.resume, c.rest ≠ [] → l < c.position.line := by
      intro l hl c hc hrest
      obtain ⟨l', hl', hlt⟩ := hresume c hc hrest
      rwa [Option.mem_unique hl hl']
    refine ⟨{ h.recounted with sees := hsees, ahead := by simp [snapshot] }, fun hrest => ?_⟩
    refine ⟨fun _ => ?_, hnames, by simp, fun l hl => ?_, by simp, fun l hl => ?_⟩
    · obtain ⟨hlast, hmethod, hargument⟩ := hexpects hcode
      exact ⟨hlast, hmethod, hargument⟩
    · exact (line_lt_of_lineBreak hahead (hpending l hl) (hbelow l hl) hrest).le
    · obtain ⟨hle, hlt, -⟩ := hbar l hl
      have hbelow := line_lt_of_lineBreak hahead hle hlt hrest
      exact ⟨hbelow.le, by simp, fun heq => absurd heq hbelow.ne'⟩
  · have hnow : Recall.ofTokens source
        (⟨.newline, s.textOf 1, s.spanOf 1, false, false⟩ :: (s.tokens ++ base)) =
          { Recall.ofTokens source (s.tokens ++ base) with
            now := .ofNames (Recall.ofTokens source (s.tokens ++ base)).now.names } :=
      Recall.ofTokens_newline rfl
    refine ⟨⟨h.recounted.alternates, h.recounted.delimited, hsees, by simp [snapshot], ?_, ?_⟩,
      fun _ => ⟨fun _ => ⟨rfl, ?_, by simp⟩, ?_, by simp, ?_, by simp, ?_⟩⟩
    · rw [snapshot_tokens, List.cons_append, hnow]
      exact h.recounted.around
    · exact h.recounted.settled.cons (by simp)
    · simp [Token.methodAwaited, Token.awaitsMethod]
    · rw [List.cons_append, hnow]
      exact hnames
    · rw [List.cons_append, hnow]
      simp [Memory.ofNames]
    · rw [List.cons_append, hnow]
      simp [Memory.ofNames]

theorem Remembers.passes (h : Remembers source base s) (hopens : ¬ s.Opens) (hcode : s.InCode)
    (how : Passes s s') : Remembers source base s' := by
  cases how with
  | blank n piece eq =>
    rw [eq]
    exact h.skip hopens n s.faults true
  | document n top word ended eq =>
    rw [eq]
    exact h.skip hopens n s.faults s.spaceSeen
  | stray cause n pos ahead eq =>
    rw [eq]
    exact h.skip hopens n _ s.spaceSeen
  | lineBreak rest tokens e ahead read eq =>
    rw [eq]
    exact h.lineBreak hcode ahead read

/-! ### Literals and heredocs -/

/-- The opener of a literal with a delimiter opens no heredoc. -/
lemma opensHeredoc_openingToken {o : Opening} {spaced : Bool} (ho : s.opening? spaced = some o) :
    (s.openingToken o spaced).opensHeredoc = false := by
  obtain ⟨c, cs, hrest, hc, -⟩ := @scanTokenAt_of_opening? s (fun _ => none) spaced o ho
  obtain ⟨n, hn⟩ := Nat.exists_eq_succ_of_ne_zero (width_pos_of_opening? ho).ne'
  have htext : (s.openingToken o spaced).text.toList = c :: cs.take n := by
    simp [openingToken, textOf, hrest, hn]
  rw [Token.opensHeredoc, htext]
  rcases hc with rfl | rfl | rfl | rfl | rfl <;> rfl

/-- The token that opens a heredoc. -/
def heredocToken (s : Scanner) (o : HeredocOpener) (spaced : Bool) : Token :=
  ⟨.stringBegin, s.textOf o.length, s.spanOf o.length, spaced, false⟩

lemma opensHeredoc_heredocToken {o : HeredocOpener} {spaced : Bool}
    (ho : s.heredocOpener? = some o) : (s.heredocToken o spaced).opensHeredoc = true := by
  obtain ⟨⟨after, hrest⟩, hlength⟩ := rest_of_heredocOpener? ho
  obtain ⟨n, hn⟩ : ∃ n, o.length = n + 1 + 1 := ⟨o.length - 2, by omega⟩
  have htext : (s.heredocToken o spaced).text.toList = '<' :: '<' :: after.take n := by
    simp [heredocToken, textOf, hrest, hn]
  rw [Token.opensHeredoc, htext]
  rfl

/-- The tokens tell that a literal opens. -/
lemma ofTokens_openingToken {o : Opening} {spaced : Bool} (ho : s.opening? spaced = some o) :
    Recall.ofTokens source (s.openingToken o spaced :: older) =
      ⟨{ (Recall.ofTokens source older).now with bar := none },
        none :: (Recall.ofTokens source older).around⟩ := by
  have hkind : (s.openingToken o spaced).kind = .stringBegin ∨
      (s.openingToken o spaced).kind = .regexBegin := by
    simp only [openingToken]
    cases o.flavor <;> simp [Flavor.beginKind]
  rw [Recall.ofTokens_begin hkind, opensHeredoc_openingToken ho, if_neg (by decide)]

/-- In front of the content of a literal that opens. -/
lemma Heeds.begin {x : Token} (h : Heeds source older s) (hcode : ¬ s'.InCode)
    (hnow : (Recall.ofTokens source (x :: older)).now =
      { (Recall.ofTokens source older).now with bar := none })
    (hguide : s'.guide = s.guide) (hresume : s'.resume = s.resume)
    (hline : s.cursor.position.line ≤ s'.cursor.position.line) : Heeds source (x :: older) s' where
  expects hcode' := absurd hcode' hcode
  names := by
    rw [hnow, show s'.locals = s.locals from congrArg (·.1) hguide]
    exact h.names
  naming := by
    rw [hnow, show s'.definingName = s.definingName from congrArg (·.2.1) hguide]
    exact h.naming
  pending := by
    rw [hnow]
    exact fun l hl => (h.pending l hl).trans hline
  ahead := by
    rw [hnow, hresume]
    exact h.ahead
  bar := by simp [hnow]

/-- A literal opens.  It could have been a division only behind a name that is not known. -/
lemma Remembers.begin (h : Remembers source base s) {o : Opening} (hcode : s.InCode)
    (ahead : s.cursor.rest ≠ []) (ho : s.opening? s.spaceSeen = some o) :
    Remembers source base ({ s with spaceSeen := false }.beginLiteral o s.spaceSeen) := by
  have hheeds := h.heeds ahead
  generalize hs' : ({ s with spaceSeen := false } : Scanner).beginLiteral o s.spaceSeen = s'
  have hguide : s'.guide = s.guide := hs' ▸ guide_beginLiteral o s.spaceSeen
  have hsnap : s'.snapshot = (s.beginLiteral o s.spaceSeen).snapshot :=
    snapshot_eq_of_core (hs' ▸ core_beginLiteral_spaceSeen o false)
  rw [snapshot_beginLiteral] at hsnap
  have hmodes : s'.modes = .literal (s.openedLiteral o) :: s.modes := congrArg Snapshot.modes hsnap
  have htokens : s'.tokens = s.openingToken o s.spaceSeen :: s.tokens :=
    congrArg Snapshot.tokens hsnap
  have hcursor : s'.cursor = Cursor.advanceBy o.width s.cursor := congrArg Snapshot.cursor hsnap
  have hforward : Forward (fun _ => none) s s' :=
    .begin o s.spaceSeen hcode (width_pos_of_opening? ho) ahead
      (hs' ▸ core_beginLiteral_spaceSeen o false)
  have hline := Cursor.line_advanceBy o.width s.cursor
  rw [← hcursor] at hline
  refine ⟨⟨hforward.alternates h.recounted.alternates, ?_, ?_, ?_, ?_, ?_⟩, fun _ => ?_⟩
  · rw [hsnap]
    intro l hl
    rcases List.mem_cons.mp hl with heq | hl
    · obtain rfl := Mode.literal.inj heq
      exact fun _ => rfl
    · exact h.recounted.delimited l hl
  · rw [hsnap]
    exact h.recounted.sees.advanceBy _
  · rw [hsnap]
    exact h.recounted.ahead
  · have hdelimited : Mode.isDelimited (.literal (s.openedLiteral o)) = true := rfl
    have haround := h.recounted.around
    rw [snapshot_tokens, snapshot_modes] at haround
    rw [snapshot_tokens, snapshot_modes, htokens, hmodes, List.cons_append,
      ofTokens_openingToken ho, List.countP_cons_of_pos hdelimited, List.replicate_succ, haround]
    rfl
  · rw [snapshot_tokens, htokens]
    refine ⟨fun _ hambiguous => ?_, h.recounted.settled⟩
    have hargument := (hheeds.expects hcode).argument (expects_of_ambiguous ho hambiguous)
    simpa [Option.all_eq_true] using hargument
  · rw [htokens, List.cons_append]
    refine hheeds.begin ?_ (congrArg Recall.now (ofTokens_openingToken ho)) hguide
      (congrArg Snapshot.resume hsnap) (by omega)
    rintro ⟨d, outer, hcode'⟩
    simp [hmodes] at hcode'

lemma Recounted.bodyStart (h : Recounted source base s.snapshot) (o : HeredocOpener) :
    (s.bodyStart o).Sees source := by
  unfold Scanner.bodyStart
  cases hresume : s.resume with
  | none =>
    rw [Option.getD_none]
    exact (h.sees.advanceBy _).nextLine
  | some c => exact h.ahead c hresume

/-- The tokens in front of the body of a heredoc tell its scanner what the scanner around it knows. -/
lemma Remembers.body (h : Remembers source base s) {o : HeredocOpener} {spaced : Bool}
    (ahead : s.cursor.rest ≠ []) (ho : s.heredocOpener? = some o) :
    Remembers source (s.heredocToken o spaced :: (s.tokens ++ base)) (s.bodyScanner o) := by
  have hnow : (Recall.ofTokens source (s.heredocToken o spaced :: (s.tokens ++ base))).now =
      .ofNames (Recall.ofTokens source (s.tokens ++ base)).now.names := by
    rw [Recall.ofTokens_begin (.inl rfl), opensHeredoc_heredocToken ho, if_pos rfl]
  refine ⟨⟨.literal _ 0 [] (.outermost 0), ?_, ?_, ?_, rfl, ?_⟩, fun _ => ?_⟩
  · simp [Scanner.bodyScanner, ofBody, ofCursor, snapshot]
  · exact (h.recounted.bodyStart o).narrow
      (o.range_lines List.length_nil le_rfl (by simp))
  · simp [Scanner.bodyScanner, ofBody, ofCursor, snapshot]
  · exact h.recounted.settled.cons (by simp [heredocToken])
  · refine ⟨?_, hnow ▸ (h.heeds ahead).names, ?_, ?_, ?_, ?_⟩
    · rintro ⟨d, outer, hcode⟩
      simp [Scanner.bodyScanner, ofBody] at hcode
    · simp [Scanner.bodyScanner, ofBody, ofCursor]
    · rw [show (s.bodyScanner o).tokens = [] from rfl, List.nil_append, hnow]
      simp [Memory.ofNames]
    · simp [Scanner.bodyScanner, ofBody, ofCursor]
    · rw [show (s.bodyScanner o).tokens = [] from rfl, List.nil_append, hnow]
      simp [Memory.ofNames]

/-- Behind a heredoc reading goes on below its opener. -/
lemma line_lt_pastBody {o : HeredocOpener} {l : ℕ} (hline : l ≤ s.cursor.position.line)
    (hresume : ∀ c ∈ s.resume, c.rest ≠ [] → l < c.position.line)
    (hrest : (Cursor.advanceBy (s.bodyRange o).whole (s.bodyStart o)).rest ≠ []) :
    l < (Cursor.advanceBy (s.bodyRange o).whole (s.bodyStart o)).position.line := by
  have hpast := Cursor.line_advanceBy (s.bodyRange o).whole (s.bodyStart o)
  have hstart : l < (s.bodyStart o).position.line := by
    have hne := ahead_of_advanceBy hrest
    unfold Scanner.bodyStart at hne ⊢
    cases hr : s.resume with
    | none =>
      rw [hr, Option.getD_none] at hne
      have hopener := Cursor.line_advanceBy o.length s.cursor
      have hnext := Cursor.line_lt_line_nextLine hne
      rw [Option.getD_none]
      omega
    | some r =>
      rw [hr, Option.getD_some] at hne
      exact hresume r hr hne
  omega

/-- Of the heredocs opened since the last statement ended, one at the cursor included, the first one
is not below, and what is still to come of them is below it. -/
lemma Heeds.first_pending (h : Heeds source older s) {l : ℕ}
    (hl : (Recall.ofTokens source older).now.pending.getD s.cursor.position.line = l) :
    l ≤ s.cursor.position.line ∧ ∀ c ∈ s.resume, c.rest ≠ [] → l < c.position.line := by
  cases hp : (Recall.ofTokens source older).now.pending with
  | none =>
    obtain rfl : s.cursor.position.line = l := by simpa [hp] using hl
    refine ⟨le_rfl, fun c hc hrest => ?_⟩
    obtain ⟨l, hl, -⟩ := h.ahead c hc hrest
    simp [hp] at hl
  | some l' =>
    obtain rfl : l' = l := by simpa [hp] using hl
    refine ⟨h.pending l' hp, fun c hc hrest => ?_⟩
    obtain ⟨l, hl, hlt⟩ := h.ahead c hc hrest
    rwa [Option.mem_unique hp hl]

/-- Behind a heredoc the scanner goes by what was told in front of it. -/
lemma Heeds.heredoc {o : HeredocOpener} {spaced : Bool} {body : Scanner} {newer : List Token}
    (h : Heeds source older s)
    (hnewer : newer.head? = some (.empty .stringEnd (s.spanOf o.length).stop))
    (hnow : (Recall.ofTokens source newer).now =
      (Recall.ofTokens source older).now.pastHeredoc (s.heredocToken o spaced)) :
    Heeds source newer ((s.spliceBody o spaced body).expecting .operator) := by
  obtain ⟨newer, rfl⟩ := List.head?_eq_some_iff.mp hnewer
  obtain ⟨hfirst, hbelow⟩ := h.first_pending rfl
  refine ⟨fun _ => ⟨rfl, ?_, by simp [expecting]⟩, ?_, ?_, ?_, ?_, ?_⟩
  · simp [expecting, Token.methodAwaited, Token.awaitsMethod, Token.empty]
  · rw [hnow]
    exact h.names
  · rw [hnow]
    exact h.naming
  · rw [hnow]
    intro l hl
    obtain rfl := Option.some.inj hl
    have hline := Cursor.line_advanceBy o.length s.cursor
    change _ ≤ (Cursor.advanceBy o.length s.cursor).position.line
    exact hfirst.trans (by omega)
  · rw [hnow]
    intro c hc hrest
    obtain rfl := Option.some.inj hc
    exact ⟨_, rfl, line_lt_pastBody hfirst hbelow hrest⟩
  · rw [hnow]
    simp [Memory.pastHeredoc]

/-- A heredoc is read, its body by another scanner.  Names met in the body are forgotten. -/
lemma Remembers.heredoc (h : Remembers source base s) {o : HeredocOpener} {spaced : Bool}
    {body : Scanner} (ahead : s.cursor.rest ≠ []) (ho : s.heredocOpener? = some o)
    (hbody : Recounted source (s.heredocToken o spaced :: (s.tokens ++ base)) body.snapshot)
    (hlength : body.modes.length = 1) :
    Remembers source base ((s.spliceBody o spaced body).expecting .operator) := by
  have htokens : (s.spliceBody o spaced body).tokens ++ base =
      .empty .stringEnd (s.spanOf o.length).stop ::
        (body.tokens ++ (s.heredocToken o spaced :: (s.tokens ++ base))) := by
    simp [spliceBody, heredocToken, emit, emitFlagged]
  have hnow : Recall.ofTokens source ((s.spliceBody o spaced body).tokens ++ base) =
      ⟨(Recall.ofTokens source (s.tokens ++ base)).now.pastHeredoc (s.heredocToken o spaced),
        (Recall.ofTokens source (s.tokens ++ base)).around⟩ := by
    rw [htokens, Recall.ofTokens_end rfl, hbody.around_of_closed hlength,
      Recall.ofTokens_begin (.inl rfl), opensHeredoc_heredocToken ho, if_pos rfl]
    rfl
  refine ⟨⟨h.recounted.alternates, h.recounted.delimited, h.recounted.sees.advanceBy _, ?_, ?_, ?_⟩,
    fun _ => ?_⟩
  · intro c hc
    obtain rfl := Option.some.inj hc
    exact (h.recounted.bodyStart o).advanceBy _
  · exact (congrArg Recall.around hnow).trans h.recounted.around
  · change Recall.Settled source ((s.spliceBody o spaced body).tokens ++ base)
    rw [htokens]
    exact hbody.settled.cons (by simp [Token.empty])
  · exact (h.heeds ahead).heredoc (congrArg List.head? htokens) (congrArg Recall.now hnow)

/-! ### Tokens of code -/

/-- Where the tokens tell the name of a variable, the scanner reads one. -/
lemma Heeds.readsVariable {x : Token} (h : Heeds source older s) (hcode : s.InCode)
    (hx : (Recall.ofTokens source older).now.readsVariable older x = true) :
    x.kind = .identifier ∧ s.definingName = false ∧ s.expects ≠ .methodName := by
  obtain ⟨hkind, hnaming, hawaited⟩ := Memory.readsVariable_iff.mp hx
  refine ⟨hkind, ?_, fun hmethod => ?_⟩
  · rw [← Bool.not_eq_true]
    intro hdefining
    simp [h.naming hdefining] at hnaming
  · rw [(h.expects hcode).method.mp hmethod] at hawaited
    simp at hawaited

/-- The scanner knows the names that the tokens tell behind one more token. -/
lemma Heeds.names_read {x : Token} (h : Heeds source older s) (hopens : ¬ s.Opens)
    (hcode : s.InCode) (hg : Guided { s with spaceSeen := false } s' x)
    (hsees : s'.cursor.Sees source) (hrest : s'.cursor.rest ≠ [])
    (hstart : x.span.start = s.cursor.position) (hstop : x.span.stop = s'.cursor.position) :
    ((Recall.ofTokens source older).now.read source older x).names ⊆ s'.locals := by
  have hold := List.Subset.trans h.names hg.locals
  by_cases hbinds : (Recall.ofTokens source older).now.binds source older x = true
  · obtain ⟨hvariable, hhow⟩ := Memory.binds_iff.mp hbinds
    obtain ⟨hkind, hdefining, hmethod⟩ := h.readsVariable hcode hvariable
    have hremembers : s.inBlockParameters = true ∨ assigns s'.cursor.rest = true := by
      rcases hhow with hbar | hassigns
      · have hline : s.cursor.position.line = x.line := congrArg Position.line hstart.symm
        exact .inl (((h.bar _ hbar).2.2 hline).resolve_right hopens)
      · obtain ⟨more, hbehind, hlines⟩ := hsees.behind_eq hstop
        rw [hbehind] at hassigns
        rcases hlines with rfl | hlast
        · exact .inr (by simpa using hassigns)
        · have hmem : '\n' ∈ s'.cursor.rest := by
            rw [← hlast _ (List.getLast?_eq_some_getLast hrest)]
            exact List.getLast_mem hrest
          rw [assigns_append more hmem] at hassigns
          exact .inr hassigns
    have hmem := hg.remembers hkind hdefining hmethod hremembers
    simp only [Memory.read, hbinds, if_true]
    exact List.cons_subset.mpr ⟨hmem, hold⟩
  · simp only [Memory.read, hbinds]
    exact hold

/-- The scanner stands between the bars that the tokens tell behind one more token. -/
lemma Heeds.bar_read {x : Token} {l : ℕ} (h : Heeds source older s) (hopens : ¬ s.Opens)
    (hcode : s.InCode) (hg : Guided { s with spaceSeen := false } s' x)
    (hstart : x.span.start = s.cursor.position)
    (hbelow : s.cursor.position.line ≤ s'.cursor.position.line)
    (hl : l ∈ ((Recall.ofTokens source older).now.read source older x).bar) :
    l ≤ s'.cursor.position.line ∧ (∀ c ∈ s.resume, c.rest ≠ [] → l < c.position.line) ∧
      (s'.cursor.position.line = l → s'.inBlockParameters = true) := by
  rcases Memory.mem_bar_read hl with ⟨hbar, hkind⟩ | ⟨rfl, hkind, hparameters⟩
  · obtain ⟨hle, hresume, hbetween⟩ := h.bar l hbar
    refine ⟨hle.trans hbelow, hresume, fun heq => ?_⟩
    rw [hg.between hkind]
    exact (hbetween (by omega)).resolve_right hopens
  · have hline : x.line = s.cursor.position.line := congrArg Position.line hstart
    simp only [Memory.opensParameters, Bool.and_eq_true, Bool.not_eq_true'] at hparameters
    obtain ⟨⟨hblock, hnaming⟩, hpending⟩ := hparameters
    refine ⟨hline.trans_le hbelow, fun c hc hrest => ?_, fun _ => ?_⟩
    · obtain ⟨l, hl, hlt⟩ := h.ahead c hc hrest
      rw [Option.mem_def.mp hl] at hpending
      rwa [← show l = x.line by simpa using hpending]
    · have hdefining : s.definingName = false := by
        rw [← Bool.not_eq_true]
        intro hdefining
        simp [h.naming hdefining] at hnaming
      have hlast := (h.expects hcode).last
      refine hg.bar hkind hdefining ?_
      change s.lastKind? = _ ∨ s.lastKind? = _
      rw [hlast]
      cases older with
      | nil => simp [Token.blockOpened] at hblock
      | cons y older => simpa [Token.blockOpened] using hblock

/-- A token of code is read. -/
lemma Heeds.token {x : Token} (h : Heeds source older s) (hopens : ¬ s.Opens) (hcode : s.InCode)
    (hg : Guided { s with spaceSeen := false } s' x) (hplain : x.kind.isPlain = true)
    (hgoing : x.kind ≠ .newline) (hsees : s'.cursor.Sees source) (hrest : s'.cursor.rest ≠ [])
    (hstart : x.span.start = s.cursor.position) (hstop : x.span.stop = s'.cursor.position)
    (hlast : s'.lastKind? = some x.kind) (hresume : s'.resume = s.resume)
    (hbelow : s.cursor.position.line ≤ s'.cursor.position.line) :
    Heeds source (x :: older) s' := by
  have hline : x.line = s.cursor.position.line := congrArg Position.line hstart
  have hnow : (Recall.ofTokens source (x :: older)).now =
      (Recall.ofTokens source older).now.read source older x := by
    rw [Recall.ofTokens_code] <;> intro hkind <;> simp [hkind, TokenKind.isPlain] at hplain
  have hnames := h.names_read hopens hcode hg hsees hrest hstart hstop
  have hpending : ((Recall.ofTokens source older).now.read source older x).pending =
      (Recall.ofTokens source older).now.pending := if_neg (by simpa using hgoing)
  refine ⟨fun _ => ⟨hlast, ?_, ?_⟩, hnow ▸ hnames, fun hdefining => ?_, fun l hl => ?_, ?_, ?_⟩
  · have hmethod := hg.method (by rintro hkind; simp [hkind, TokenKind.isPlain] at hplain)
    rw [hmethod, Token.methodAwaited, ← (h.expects hcode).last]
    rfl
  · intro hargument y hy
    obtain rfl := Option.some.inj hy
    rw [← Bool.not_eq_true, Recall.knows_iff]
    rintro ⟨hvariable, hmem⟩
    obtain ⟨hkind, hdefining, hmethod⟩ := h.readsVariable hcode hvariable
    rcases hg.argument hargument hkind with htrue | hexpected | hunknown
    · exact absurd (hdefining.symm.trans htrue) (by decide)
    · exact hmethod hexpected
    · exact hunknown (hnames (hnow ▸ hmem))
  · rw [hnow]
    simp only [Memory.read, Bool.or_eq_true, beq_iff_eq, Bool.and_eq_true]
    refine (hg.defining hdefining).imp_right fun hleaves => ⟨h.naming hleaves.1, ?_⟩
    rw [hsees.head?_behind hstop hrest]
    exact hleaves.2
  · rw [hnow, hpending] at hl
    exact (h.pending l hl).trans hbelow
  · rw [hnow, hpending, hresume]
    exact h.ahead
  · intro l hl
    rw [hnow] at hl
    obtain ⟨hle, hlater, hbetween⟩ := h.bar_read hopens hcode hg hstart hbelow hl
    exact ⟨hle, hresume ▸ hlater, fun heq => .inl (hbetween heq)⟩

/-- A token is read that neither opens a literal nor ends the code inside one. -/
lemma Remembers.plain (h : Remembers source base s) {x : Token} {n : ℕ} (hopens : ¬ s.Opens)
    (hcode : s.InCode) (ahead : s.cursor.rest ≠ []) (hg : Guided { s with spaceSeen := false } s' x)
    (hplain : x.kind.isPlain = true) (hgoing : x.kind ≠ .newline)
    (hlayers : SameLayers s.modes s'.modes) (halt : Alternates s'.modes)
    (hspan : x.span = s.spanOf n) (hcursor : s'.cursor = Cursor.advanceBy n s.cursor)
    (htokens : s'.tokens = x :: s.tokens) (hresume : s'.resume = s.resume) :
    Remembers source base s' := by
  have hparts (k : TokenKind) (hk : k.isPlain = false) : x.kind ≠ k := by
    rintro rfl
    simp [hplain] at hk
  have hstart : x.span.start = s.cursor.position := congrArg Span.start hspan
  have hstop : x.span.stop = s'.cursor.position := by
    rw [hcursor]
    exact congrArg Span.stop hspan
  have hline := Cursor.line_advanceBy n s.cursor
  rw [← hcursor] at hline
  have hrecounted : Recounted source base s'.snapshot := by
    refine h.recounted.carry halt (fun l hl => h.recounted.delimited l (hlayers.mem_literal hl))
      hlayers.countP_isDelimited hcursor hresume ?_ ?_
    · rw [htokens, List.cons_append,
        Recall.ofTokens_code (hparts _ rfl) (hparts _ rfl) (hparts _ rfl)]
    · rw [htokens]
      exact h.recounted.settled.cons (hparts _ rfl)
  refine ⟨hrecounted, fun hrest => ?_⟩
  rw [htokens]
  exact (h.heeds ahead).token hopens hcode hg hplain hgoing hrecounted.sees hrest hstart hstop
    (by simp [lastKind?, htokens]) hresume (by omega)

/-- The code inside a literal ends. -/
lemma Remembers.endsCode (h : Remembers source base s) {x : Token} {mode : Mode} {outer : List Mode}
    (hopens : ¬ s.Opens) (ahead : s.cursor.rest ≠ []) (hkind : x.kind = .interpolationEnd)
    (hmodes : s.modes = .code 0 :: mode :: outer) (hmodes' : s'.modes = mode :: outer)
    (hcursor : s'.cursor = Cursor.advanceBy 1 s.cursor) (htokens : s'.tokens = x :: s.tokens)
    (hresume : s'.resume = s.resume) (hguide : s'.guide = s.guide) : Remembers source base s' := by
  have halt : Alternates (.code 0 :: mode :: outer) := hmodes ▸ h.recounted.alternates
  have hnow : Recall.ofTokens source (s'.tokens ++ base) =
      Recall.ofTokens source (s.tokens ++ base) := by
    rw [htokens, List.cons_append, Recall.ofTokens_parts (.inr (.inr hkind))]
  have hline := Cursor.line_advanceBy 1 s.cursor
  rw [← hcursor] at hline
  refine ⟨h.recounted.carry (hmodes' ▸ halt.tail (by simp)) ?_ ?_ hcursor hresume
    (congrArg Recall.around hnow) ?_, fun _ => ?_⟩
  · intro l hl
    refine h.recounted.delimited l ?_
    rw [snapshot_modes, hmodes]
    exact List.mem_cons_of_mem _ (hmodes' ▸ hl)
  · rw [hmodes, hmodes']
    rfl
  · rw [htokens]
    exact h.recounted.settled.cons (by simp [hkind])
  · refine (h.heeds ahead).carry hopens (congrArg Recall.now hnow) hguide hresume (by omega) ?_
    rintro ⟨d, outer', hcode⟩
    -- Under code inside a literal stands the literal.
    rw [hmodes'] at hcode
    obtain ⟨rfl, -⟩ := List.cons.inj hcode
    cases halt

/-- A token is read that opens no literal. -/
theorem Remembers.token (h : Remembers source base s) {x : Token} (hopens : ¬ s.Opens)
    (hcode : s.InCode) (ahead : s.cursor.rest ≠ []) (going : s.cursor.rest.head? ≠ some '\n')
    (hg : Guided { s with spaceSeen := false } s' x) : Remembers source base s' := by
  have hlexes : Lexes (fun _ => none) { s with spaceSeen := false } s.spaceSeen s' := .token x hg
  have hforward : Forward (fun _ => none) { s with spaceSeen := false } s' :=
    hlexes.forward hcode ahead going
  have halt := (hforward.of_spaceSeen hcode).alternates h.recounted.alternates
  cases id hg.takes with
  | code n faults modes pos is plain going kept eq =>
    have hmodes : s'.modes = modes := (congrArg Scanner.modes eq :)
    have hlayers : SameLayers s.modes s'.modes := by
      rw [hmodes]
      rcases kept with ⟨-, hlayers⟩ | ⟨-, rfl⟩
      · exact hlayers
      · exact .refl _
    exact h.plain hopens hcode ahead hg plain going hlayers halt (congrArg (·.span) is)
      (congrArg Scanner.cursor eq :) (congrArg Scanner.tokens eq :) (congrArg Scanner.resume eq :)
  | brace mode outer rest modes hbrace is eq =>
    exact h.endsCode hopens ahead (congrArg (·.kind) is) modes (congrArg Scanner.modes eq :)
      (congrArg Scanner.cursor eq :) (congrArg Scanner.tokens eq :) (congrArg Scanner.resume eq :)
      (congrArg guide eq :)

/-! ### Inside a literal -/

lemma not_opens_of_literal {l : OpenLiteral} {outer : List Mode} (hmodes : s.modes = .literal l :: outer) :
    ¬ s.Opens := by
  rintro ⟨⟨d, outer', hcode⟩, -⟩
  simp [hmodes] at hcode

/-- A stretch of content becomes one token or, if it is empty, none. -/
lemma Content.reads (h : Content s t) :
    (∃ n, t.cursor = Cursor.advanceBy n s.cursor) ∧ t.resume = s.resume ∧ t.guide = s.guide ∧
      (t.tokens = s.tokens ∨ ∃ x : Token, x.kind = .stringContent ∧ t.tokens = x :: s.tokens) := by
  obtain ⟨l, l', outer, stop, n, -, -, rfl⟩ := h
  unfold emitContent
  split
  · exact ⟨⟨0, rfl⟩, rfl, rfl, .inl rfl⟩
  · exact ⟨⟨n, rfl⟩, rfl, rfl, .inr ⟨_, rfl, rfl⟩⟩

/-- A stretch of content is read. -/
lemma Remembers.content (h : Remembers source base s) (hmove : Content s t) :
    Remembers source base t := by
  have halt := hmove.alternates h.recounted.alternates
  obtain ⟨l, l', outer, hmodes, hmodes', hl⟩ := hmove.modes_eq
  have hclose : Mode.isDelimited (.literal l') = Mode.isDelimited (.literal l) :=
    congrArg Option.isSome hl.close
  have hcount : t.modes.countP Mode.isDelimited = s.modes.countP Mode.isDelimited := by
    rw [hmodes, hmodes', List.countP_cons, List.countP_cons, hclose]
  have hdelimited : ∀ k, .literal k ∈ t.modes → k.singleLine = true → k.close.isSome = true := by
    intro k hk
    rw [hmodes'] at hk
    rcases List.mem_cons.mp hk with heq | hk
    · rw [Mode.literal.inj heq, hl.singleLine, hl.close]
      exact h.recounted.delimited l (by rw [snapshot_modes, hmodes]; exact List.mem_cons_self)
    · exact h.recounted.delimited k (by
        rw [snapshot_modes, hmodes]
        exact List.mem_cons_of_mem _ hk)
  obtain ⟨⟨n, hcursor⟩, hresume, hguide, htokens⟩ := hmove.reads
  have hnow : Recall.ofTokens source (t.tokens ++ base) =
      Recall.ofTokens source (s.tokens ++ base) := by
    rcases htokens with htokens | ⟨x, hkind, htokens⟩
    · rw [htokens]
    · rw [htokens, List.cons_append, Recall.ofTokens_parts (.inl hkind)]
  have hsettled : Recall.Settled source (t.tokens ++ base) := by
    rcases htokens with htokens | ⟨x, hkind, htokens⟩
    · rw [htokens]
      exact h.recounted.settled
    · rw [htokens]
      exact h.recounted.settled.cons (by simp [hkind])
  have hline := Cursor.line_advanceBy n s.cursor
  rw [← hcursor] at hline
  refine ⟨h.recounted.carry halt hdelimited hcount hcursor hresume (congrArg Recall.around hnow)
    hsettled, fun hrest => ?_⟩
  have hheeds := h.heeds (ahead_of_advanceBy (hcursor ▸ hrest))
  refine hheeds.carry (not_opens_of_literal hmodes) (congrArg Recall.now hnow) hguide hresume
    (by omega) ?_
  rintro ⟨d, outer', hcode⟩
  simp [hmodes'] at hcode

/-- Code begins inside a literal. -/
lemma Remembers.enters (h : Remembers source base s) {l : OpenLiteral} {outer : List Mode}
    (hmodes : s.modes = .literal l :: outer) (hstop : StopsAt l .interpolation s.cursor.rest) :
    Remembers source base s.beginInterpolation := by
  have hforward : Forward (fun _ => none) s s.beginInterpolation :=
    .beginInterpolation l outer hmodes hstop rfl
  have hnow : Recall.ofTokens source (s.beginInterpolation.tokens ++ base) =
      Recall.ofTokens source (s.tokens ++ base) := Recall.ofTokens_parts (.inr (.inl rfl))
  have hline := Cursor.line_advanceBy 2 s.cursor
  refine ⟨⟨hforward.alternates h.recounted.alternates, fun k hk => h.recounted.delimited k ?_,
    h.recounted.sees.advanceBy 2, h.recounted.ahead, (congrArg Recall.around hnow).trans ?_,
    h.recounted.settled.cons (by simp)⟩, fun hrest => ?_⟩
  · simpa [beginInterpolation, emit, emitFlagged, snapshot] using hk
  · exact h.recounted.around
  · have hheeds := h.heeds (ahead_of_advanceBy hrest)
    refine hheeds.carry (not_opens_of_literal hmodes) (congrArg Recall.now hnow) rfl rfl ?_ ?_
    · change _ ≤ (Cursor.advanceBy 2 s.cursor).position.line
      omega
    · exact fun _ => ⟨rfl, by simp [beginInterpolation, emit, emitFlagged, Token.methodAwaited,
        Token.awaitsMethod], by simp [beginInterpolation]⟩

/-- A delimited literal ends, at its delimiter or without one. -/
lemma Remembers.endLiteral (h : Remembers source base s) {l : OpenLiteral} {outer : List Mode}
    {n : ℕ} {x : Token} {fs : List Fault} (hmodes : s.modes = .literal l :: outer)
    (hclose : l.close.isSome = true) (hkind : x.kind = .stringEnd)
    (hguide : s'.guide = s.guide) (hexpects : s'.expects = .operator)
    (hsnap : s'.snapshot = { s.snapshot with
      cursor := Cursor.advanceBy n s.cursor
      tokens := x :: s.tokens
      faults := fs
      modes := outer
      openLiterals := s.openLiterals.tail }) : Remembers source base s' := by
  have htokens : s'.tokens = x :: s.tokens := congrArg Snapshot.tokens hsnap
  have hcursor : s'.cursor = Cursor.advanceBy n s.cursor := congrArg Snapshot.cursor hsnap
  have hresume : s'.resume = s.resume := congrArg Snapshot.resume hsnap
  have hnow : Recall.ofTokens source (s'.tokens ++ base) =
      ⟨(Recall.ofTokens source (s.tokens ++ base)).now,
        List.replicate (outer.countP Mode.isDelimited) none ++
          (Recall.ofTokens source base).around⟩ := by
    rw [htokens, List.cons_append, h.recounted.ofTokens_end hmodes hclose hkind]
  have halt : Alternates (.literal l :: outer) := hmodes ▸ h.recounted.alternates
  obtain ⟨d, outer', houter⟩ := halt.of_literal
  have hline := Cursor.line_advanceBy n s.cursor
  rw [← hcursor] at hline
  refine ⟨⟨?_, ?_, ?_, ?_, ?_, ?_⟩, fun hrest => ?_⟩
  · rw [hsnap]
    exact halt.tail (by simp [houter])
  · rw [hsnap]
    exact fun k hk => h.recounted.delimited k (by
      rw [snapshot_modes, hmodes]
      exact List.mem_cons_of_mem _ hk)
  · rw [hsnap]
    exact h.recounted.sees.advanceBy n
  · rw [hsnap]
    exact h.recounted.ahead
  · rw [snapshot_tokens, hnow, hsnap]
  · rw [snapshot_tokens, htokens]
    exact h.recounted.settled.cons (by simp [hkind])
  · have hheeds := h.heeds (ahead_of_advanceBy (hcursor ▸ hrest))
    refine hheeds.carry (not_opens_of_literal hmodes) (congrArg Recall.now hnow :) hguide
      hresume (by omega) fun _ => ⟨?_, ?_, ?_⟩
    · simp [lastKind?, htokens]
    · rw [htokens, hexpects]
      simp [Token.methodAwaited, Token.awaitsMethod, hkind]
    · simp [hexpects]

/-- The body of a heredoc ends with its range. -/
lemma Remembers.endBody (h : Remembers source base s) {l : OpenLiteral} {outer : List Mode}
    (hmodes : s.modes = .literal l :: outer) (hclose : l.close = none) (hrest : s.cursor.rest = []) :
    Remembers source base { s with modes := outer } := by
  have halt : Alternates (.literal l :: outer) := hmodes ▸ h.recounted.alternates
  obtain ⟨d, outer', houter⟩ := halt.of_literal
  have hnone : ¬ Mode.isDelimited (.literal l) = true := by simp [Mode.isDelimited, hclose]
  have haround := h.recounted.around
  rw [snapshot_modes, hmodes, List.countP_cons_of_neg hnone] at haround
  refine ⟨{ h.recounted with
    alternates := halt.tail (by simp [houter])
    delimited := fun k hk => h.recounted.delimited k (by
      rw [snapshot_modes, hmodes]
      exact List.mem_cons_of_mem _ hk)
    around := haround }, fun hne => absurd hrest hne⟩

/-! ### Going back -/

/-- In an earlier state again, in which a literal opens, the scanner knows no fewer names. -/
lemma Remembers.revisited (h : Remembers source base u) {names : List String} {singleLine : List ℕ}
    (hcode : u.InCode) (hopens : (u.opening? u.spaceSeen).isSome = true)
    (hnames : u.locals ⊆ names) : Remembers source base (u.revisited names singleLine) where
  recounted := h.recounted
  heeds hrest := by
    have hheeds := h.heeds hrest
    refine ⟨fun _ => ?_, List.Subset.trans hheeds.names hnames, by simp [Scanner.revisited],
      hheeds.pending, hheeds.ahead, fun l hl => ?_⟩
    · obtain ⟨hlast, hmethod, hargument⟩ := hheeds.expects hcode
      exact ⟨hlast, hmethod, hargument⟩
    · obtain ⟨hle, hresume, -⟩ := hheeds.bar l hl
      exact ⟨hle, hresume, fun _ => .inr ⟨hcode, rfl, hopens⟩⟩

/-- The states that a scanner can go back to: the tokens are remembered in them, and no name that was
known in them is forgotten. -/
def Revisitable (source : List Char) (base : List Token) (names : List String) (u : Scanner) : Prop :=
  Remembers source base u ∧ u.locals ⊆ names

/-- A safe scanner that can go back only to states in which the tokens are remembered.  In the body of
a heredoc it never goes back. -/
structure Tracked (source : List Char) (base : List Token) (s : Scanner) : Prop where
  safe : Safe (Placed source) s
  recorded : s.inBody = false → Recorded (Revisitable source base s.locals) s

/-- Going back to an opener keeps the invariant. -/
lemma Tracked.rewind (h : Tracked source base s) (hmove : Rewind s s') :
    Remembers source base s' := by
  obtain ⟨c, houtermost, -, -, -⟩ := id hmove
  obtain ⟨-, u, ⟨hu, hnames⟩, hcode, hopens, rfl⟩ :=
    (h.recorded houtermost).rewind (h.safe.sound houtermost) hmove
  exact hu.revisited hcode hopens hnames

lemma Rewind.locals_eq (h : Rewind s s') : s'.locals = s.locals := by
  obtain ⟨c, -, -, -, rfl⟩ := h
  simp only [restore, endOnItsLine]
  split <;> rfl

lemma Content.locals_eq (h : Content s t) : t.locals = s.locals := by
  obtain ⟨-, -, hguide, -⟩ := h.reads
  exact congrArg (·.1) hguide

/-- A step forgets no name, unless it closes everything. -/
lemma Advances.locals_subset (h : Advances nested s s') :
    s.locals ⊆ s'.locals ∨ ∃ t, Content s t ∧ Closes t s' := by
  have hsame (h : s'.locals = s.locals) :
      s.locals ⊆ s'.locals ∨ ∃ t, Content s t ∧ Closes t s' := .inl (h ▸ List.Subset.refl _)
  cases h with
  | passes code how =>
    cases how with
    | blank n piece eq | document n top word ended eq | stray cause n pos ahead eq
    | lineBreak rest tokens e ahead read eq =>
      exact hsame (eq ▸ rfl)
  | lexes code ahead going how =>
    cases how with
    | opens o opening eq => exact hsame (eq ▸ congrArg (·.1) (guide_beginLiteral o s.spaceSeen))
    | heredoc o body expected opener read eq => exact hsame (eq ▸ rfl)
    | stray cause n pos eq => exact hsame (eq ▸ rfl)
    | token x guided => exact .inl guided.locals
  | returns how => exact hsame how.locals_eq
  | continues l l' outer stop n modes ends how =>
    generalize ht : ({ s with modes := .literal l' :: outer } : Scanner).emitContent n = t at how
    have hcontent : Content s t := ⟨l, l', outer, stop, n, modes, ends, ht.symm⟩
    cases how with
    | enters stop eq => exact hsame (eq ▸ hcontent.locals_eq)
    | abandons stop eq =>
      exact hsame (eq ▸ (congrArg (·.1) (guide_abandonLiteral l' outer)).trans hcontent.locals_eq)
    | closes stop eq =>
      exact hsame (eq ▸ (congrArg (·.1) (guide_closeLiteral l' outer)).trans hcontent.locals_eq)
    | endsBody unclosed stop eq => exact hsame (eq ▸ hcontent.locals_eq)
    | rewinds move => exact hsame (move.locals_eq.trans hcontent.locals_eq)
    | ends move => exact .inr ⟨t, hcontent, move⟩

lemma Tracked.content (h : Tracked source base s) (hmove : Content s t) :
    Tracked source base t := by
  refine ⟨(placed_kept source).safe_content h.safe hmove, fun hbody => ?_⟩
  have hbody' : s.inBody = false := hmove.grows.inBody.symm.trans hbody
  rw [hmove.locals_eq]
  exact (h.recorded hbody').content (h.safe.sound hbody') hmove

/-- Behind a step the scanner can go back to where it stood before, too. -/
lemma Tracked.step {fuel : ℕ} (h : Tracked source base s) (hs : Remembers source base s)
    (hstep : s.step (run fuel) = some (.more s')) : Tracked source base s' := by
  have hkept := placed_kept source
  obtain ⟨hsafe, hbody⟩ := hkept.step_more (hkept.run_safe fuel) h.safe hstep
  refine ⟨hsafe, fun houtermost => ?_⟩
  have hsound := h.safe.sound (hbody.symm.trans houtermost)
  have hrecorded := h.recorded (hbody.symm.trans houtermost)
  rcases (advances_of_step h.safe.alternates hstep).locals_subset with hnames | ⟨t, hcontent, hmove⟩
  · refine (hrecorded.step_more hkept hsound hstep).mono ?_
    rintro u (⟨hu, hle⟩ | rfl)
    · exact ⟨hu, List.Subset.trans hle hnames⟩
    · exact ⟨hs, hnames⟩
  · have hplaced := hkept.content hsound.stacked.alternates hsound.holds hcontent
    exact .of_closes (hsound.content hcontent hplaced) hmove

/-! ### Runs -/

/-- A reader of the bodies of heredocs that remembers the tokens. -/
def Recounts (source : List Char) (nested : Scanner → Option Scanner) : Prop :=
  ∀ {base u v}, Remembers source base u → Tracked source base u → nested u = some v →
    Recounted source base v.snapshot ∧ v.modes.length = 1

/-- Whatever follows a stretch of content keeps the invariant. -/
lemma Remembers.continues (h : Remembers source base s) (htracked : Tracked source base s)
    {l : OpenLiteral} {outer : List Mode} (hmodes : s.modes = .literal l :: outer)
    (how : Continues s s' l outer) : Remembers source base s' := by
  cases how with
  | enters stop eq => exact eq ▸ h.enters hmodes stop
  | abandons stop eq =>
    have hsingle : l.singleLine = true := by
      generalize s.cursor.rest = rest at stop
      cases stop with
      | lineBreak rest single => exact single
    have hclose := h.recounted.delimited l (by
      rw [snapshot_modes, hmodes]
      exact List.mem_cons_self) hsingle
    rw [eq]
    exact h.endLiteral (n := 0) hmodes hclose rfl (guide_abandonLiteral l outer) rfl
      (snapshot_abandonLiteral l outer)
  | closes stop eq =>
    have hclose : l.close.isSome = true := by
      generalize s.cursor.rest = rest at stop
      cases stop with
      | delimiter c rest close outermost => simp [close]
    rw [eq]
    exact h.endLiteral hmodes hclose rfl (guide_closeLiteral l outer) rfl
      (snapshot_closeLiteral l outer)
  | endsBody unclosed stop eq => exact eq ▸ h.endBody hmodes unclosed stop
  | rewinds move => exact htracked.rewind move
  | ends move =>
    obtain ⟨u, hend, -⟩ := id move
    refine ⟨h.recounted.closes move, fun hrest => absurd ?_ hrest⟩
    rw [move.fields.1, hend]

/-- A step keeps the invariant, if the reader of bodies does. -/
theorem Remembers.step (h : Remembers source base s) (htracked : Tracked source base s)
    (hnested : Recounts source nested) (hstep : s.step nested = some (.more s')) :
    Remembers source base s' := by
  by_cases hopens : s.Opens
  · obtain ⟨hcode, hdefining, hsome⟩ := hopens
    obtain ⟨o, ho⟩ := Option.isSome_iff_exists.mp hsome
    have hahead : s.cursor.rest ≠ [] := by
      obtain ⟨c, cs, hrest, -⟩ := @scanTokenAt_of_opening? s nested s.spaceSeen o ho
      simp [hrest]
    rw [step_of_opening? hcode hdefining ho, Option.some.injEq, Step.more.injEq] at hstep
    exact hstep ▸ h.begin hcode hahead ho
  cases advances_of_step h.recounted.alternates hstep with
  | passes code how => exact h.passes hopens code how
  | lexes code ahead going how =>
    cases how with
    | opens o opening eq => exact eq ▸ h.begin code ahead opening
    | heredoc o body expected opener read eq =>
      have hbody : Tracked source (s.heredocToken o s.spaceSeen :: (s.tokens ++ base))
          (s.bodyScanner o) :=
        ⟨(placed_kept source).safe_bodyScanner htracked.safe code opener, by
          simp [bodyScanner, ofBody]⟩
      obtain ⟨hread, hlength⟩ := hnested (h.body ahead opener) hbody read
      exact eq ▸ (h.skip hopens 0 s.faults false).heredoc ahead opener hread hlength
    | stray cause n pos eq => exact eq ▸ h.skip hopens n _ false
    | token x guided => exact h.token hopens code ahead going guided
  | returns how => exact htracked.rewind how
  | continues l l' outer stop n modes ends how =>
    have hcontent : Content s ({ s with modes := .literal l' :: outer }.emitContent n) :=
      ⟨l, l', outer, stop, n, modes, ends, rfl⟩
    exact (h.content hcontent).continues (htracked.content hcontent) (modes_emitContent n) how

end RubyCheck.Scanner
