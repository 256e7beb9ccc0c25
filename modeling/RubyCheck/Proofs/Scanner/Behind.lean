import RubyCheck.Proofs.Scanner.Leading
import RubyCheck.Proofs.TokenStream

/-!
# A text behind empty lines

As long as there is no token, nothing is open and an operand is expected (`Unread`); this holds at the
beginning of a text and again whenever the first opener is gone back to.  So the blank that empty
lines leave behind them makes no difference to how a text is read, and its tokens and faults are the
same further down, but for the blank in front of the first token.
-/

namespace RubyCheck.Scanner

variable {source : List Char} {s t : Scanner} {nested : Scanner → Option Scanner}
  {P : Snapshot → Prop}

/-! ### Before the first token -/

/-- No token has been read, and nothing else that would matter to one. -/
structure Unread (s : Scanner) : Prop where
  tokens : s.tokens = []
  expects : s.expects = .operand
  modes : ∃ d, s.modes = [.code d]
  openLiterals : s.openLiterals = []
  lastMultiline : s.lastMultiline = none

/-- Where there is no token, nothing has been read that would matter to one. -/
def Starting (s : Scanner) : Prop := s.tokens = [] → s.Unread

/-- Once a token has been read, nothing is asked of the state before the first one. -/
lemma Starting.of_tokens (h : s.tokens ≠ []) : s.Starting := fun hnil => absurd hnil h

/-- At the beginning a scanner has met nothing that would matter to the first token. -/
lemma starting_ofText (source : List Char) : (ofText source).Starting :=
  fun _ => ⟨rfl, rfl, ⟨0, rfl⟩, rfl, rfl⟩

/-- Without tokens there is nothing to set off. -/
lemma Unread.space_eq (h : s.Unread) : s.space = s := by
  unfold space
  rw [h.tokens, h.openLiterals, h.lastMultiline, modifyLast_nil]
  obtain ⟨⟩ := s
  obtain ⟨rfl, -, -, rfl, rfl⟩ := h
  rfl

/-- Passing what is no token meets nothing that would matter to the first one. -/
lemma Unread.passes (h : s.Unread) (how : Passes s t) : t.Starting := by
  intro hnil
  cases how with
  | blank n piece eq => exact eq ▸ ⟨h.tokens, h.expects, h.modes, h.openLiterals, h.lastMultiline⟩
  | document n top word ended eq =>
    exact eq ▸ ⟨h.tokens, h.expects, h.modes, h.openLiterals, h.lastMultiline⟩
  | stray cause n pos ahead eq =>
    exact eq ▸ ⟨h.tokens, h.expects, h.modes, h.openLiterals, h.lastMultiline⟩
  | lineBreak rest tokens e ahead read eq =>
    rcases read with ⟨rfl, rfl⟩ | ⟨rfl, rfl⟩
    · exact eq ▸ ⟨h.tokens, h.expects, h.modes, h.openLiterals, h.lastMultiline⟩
    · exact absurd hnil (eq ▸ List.cons_ne_nil _ _)

/-- When a token is read, nothing is asked of the state before it any more. -/
lemma Unread.lexes (h : s.Unread) (how : Lexes nested { s with spaceSeen := false } s.spaceSeen t) :
    t.Starting := by
  cases how with
  | opens o opening eq =>
    have hsnap := congrArg Snapshot.tokens
      (snapshot_beginLiteral (s := { s with spaceSeen := false }) o s.spaceSeen)
    exact .of_tokens (eq ▸ ne_of_eq_of_ne hsnap (List.cons_ne_nil _ _))
  | heredoc o body expected opener read eq => exact .of_tokens (eq ▸ List.cons_ne_nil _ _)
  | stray cause n pos eq =>
    exact fun _ => eq ▸ ⟨h.tokens, h.expects, h.modes, h.openLiterals, h.lastMultiline⟩
  | token t guided =>
    cases guided.takes with
    | code n faults modes pos is plain going kept eq =>
      exact .of_tokens (ne_of_eq_of_ne (congrArg Scanner.tokens eq :) (List.cons_ne_nil _ _))
    | brace mode outer rest modes ahead is eq =>
      exact .of_tokens (ne_of_eq_of_ne (congrArg Scanner.tokens eq :) (List.cons_ne_nil _ _))

/-- What has an end that is not empty is not empty. -/
lemma ne_nil_of_suffix {α : Type} {xs ys : List α} (hne : xs ≠ []) (h : xs <:+ ys) : ys ≠ [] :=
  fun hnil => hne (List.suffix_nil.mp (hnil ▸ h))

/-- Going back to an opener puts back a state in which nothing was read, if no token was. -/
lemma Starting.rewind (hs : Sound P s) (hrecorded : Recorded Starting s) (hmove : Rewind s t) :
    t.Starting := by
  obtain ⟨-, u, hu, -, -, rfl⟩ := hrecorded.rewind hs hmove
  intro hnil
  have hunread : u.Unread := hu hnil
  exact ⟨hunread.tokens, hunread.expects, hunread.modes, hunread.openLiterals, rfl⟩

/-- Closing what is open loses no token. -/
lemma Closes.tokens_ne_nil (h : Closes s t) (hne : s.tokens ≠ []) : t.tokens ≠ [] := by
  obtain ⟨u, -, -, hforget, hcore⟩ := h
  rw [show t.tokens = _ from congrArg Snapshot.tokens (snapshot_eq_of_core hcore)]
  rcases hforget with ⟨rfl, -⟩ | ⟨rfl, -⟩
  · exact tokens_closeModes hne _
  · exact tokens_closeModes (s := { s with lastMultiline := none }) hne _

/-- Until the first token is read nothing is that would matter to it. -/
theorem Starting.step_more (hkept : Kept P) (hs : Sound P s) (hrecorded : Recorded Starting s)
    (h : s.Starting) (hstep : s.step nested = some (.more t)) : t.Starting := by
  by_cases hread : s.tokens = []
  · have hunread := h hread
    cases advances_of_step hs.stacked.alternates hstep with
    | passes code how => exact hunread.passes how
    | lexes code ahead going how => exact hunread.lexes how
    | returns how => exact .rewind hs hrecorded how
    | continues l l' outer stop n modes ends how =>
      obtain ⟨d, hmodes⟩ := hunread.modes
      simp [hmodes] at modes
  · have hforward {u : Scanner} (hu : u.tokens ≠ []) (hmove : Forward nested u t) : t.Starting :=
      .of_tokens (ne_nil_of_suffix hu hmove.grows.tokens)
    have hcontent {u : Scanner} (hmove : Content s u) : u.tokens ≠ [] :=
      ne_nil_of_suffix hread hmove.grows.tokens
    have hrewind {u : Scanner} (hmove : Content s u) (hback : Rewind u t) : t.Starting := by
      have hplaced := hkept.content hs.stacked.alternates hs.holds hmove
      exact .rewind (hs.content hmove hplaced) (hrecorded.content hs hmove) hback
    obtain ⟨u, ⟨rfl | hmove, hon | hback⟩ | ⟨hmove, hcloses⟩⟩ :=
      Scanner.step_more hs.stacked.alternates hstep
    · exact hforward hread hon
    · exact .rewind hs hrecorded hback
    · exact hforward (hcontent hmove) hon
    · exact hrewind hmove hback
    · exact .of_tokens (hcloses.tokens_ne_nil (hcontent hmove))

/-! ### Steps behind a blank -/

/-- Before the first token, being behind a blank is having seen it. -/
lemma Unread.behind_eq (h : s.Unread) : s.behind = { s with spaceSeen := true } := by
  rw [behind, h.space_eq, spacedHere_of_eq h.tokens]

/-- What stands in front of the first token is passed over in the same way. -/
lemma Unread.skipTrivia?_behind (h : s.Unread) :
    s.behind.skipTrivia? = s.skipTrivia?.map behind := by
  have hskip (k : ℕ) : (s.skip k).Unread :=
    ⟨h.tokens, h.expects, h.modes, h.openLiterals, h.lastMultiline⟩
  have hblank (k : ℕ) : s.behind.skipBlank k = (s.skipBlank k).behind := by
    have hunread : (s.skipBlank k).Unread :=
      ⟨h.tokens, h.expects, h.modes, h.openLiterals, h.lastMultiline⟩
    rw [h.behind_eq, hunread.behind_eq]
    rfl
  have hnewline : s.behind.scanNewline = s.scanNewline.behind := by
    have hmatters : s.newlineMatters = false := by
      unfold newlineMatters
      rw [h.expects]
    have hunread : s.scanNewline.Unread := by
      unfold scanNewline
      rw [hmatters]
      exact ⟨h.tokens, h.expects, h.modes, h.openLiterals, h.lastMultiline⟩
    rw [hunread.behind_eq, h.behind_eq]
    unfold scanNewline
    rw [hmatters, show ({ s with spaceSeen := true } : Scanner).newlineMatters = false from hmatters]
    rfl
  have hdocument : s.behind.skipDocument = s.skipDocument.behind := by
    have hstray (k : ℕ) : ((s.complain .unterminatedComment (s.spanOf k)).skip k).Unread :=
      ⟨h.tokens, h.expects, h.modes, h.openLiterals, h.lastMultiline⟩
    have hcursor : s.behind.cursor = s.cursor := rfl
    unfold skipDocument
    rw [hcursor, h.behind_eq]
    rcases documentEnd 0 s.cursor.rest with ⟨k, _ | _⟩
    · exact (hstray k).behind_eq.symm
    · exact (hskip k).behind_eq.symm
  have htop : s.behind.atTopLine = s.atTopLine := rfl
  have hcursor : s.behind.cursor = s.cursor := rfl
  unfold skipTrivia?
  rw [htop, hdocument, hnewline, hcursor]
  simp only [hblank]
  split
  · rfl
  split
  all_goals rfl

/-- Behind a blank the same is passed between tokens. -/
lemma skipTrivia?_behind (hcode : s.InCode) (h : s.Starting) :
    s.behind.skipTrivia? = s.skipTrivia?.map behind := by
  by_cases hread : s.tokens = []
  · exact (h hread).skipTrivia?_behind
  · rw [behind_of_tokens hread, skipTrivia?_space hread]
    refine Option.map_congr fun t ht => (behind_of_tokens ?_).symm
    have hforward : Forward (fun _ => none) s t := (passes_skipTrivia? ht).forward hcode
    exact ne_nil_of_suffix hread hforward.grows.tokens

/-- Behind a blank the text ends alike. -/
lemma endOfText_behind (h : s.Starting) : s.behind.endOfText = s.endOfText.behind := by
  by_cases hread : s.tokens = []
  · obtain ⟨d, hmodes⟩ := (h hread).modes
    unfold endOfText
    rw [hmodes, show s.behind.modes = [.code d] from hmodes]
    rfl
  · rw [behind_of_tokens hread, endOfText_space hread]

/-- Behind a blank a value is expected alike. -/
lemma valueExpected_behind (h : s.Starting) :
    s.valueExpected (s.spacedHere s.spaceSeen) = s.valueExpected s.spaceSeen := by
  by_cases hread : s.tokens = []
  · unfold valueExpected
    rw [(h hread).expects]
  · rw [spacedHere_of_ne hread]

/-- A token is read in the same way, and afterwards the blank is behind it. -/
lemma scanToken_agrees {c : Char} {cs : List Char} (hcode : s.InCode) (h : s.Starting)
    (hrest : s.cursor.rest = c :: cs) (hgoing : s.cursor.rest.head? ≠ some '\n')
    (hscan : s.scanToken nested c = some t) :
    s.behind.scanToken nested c = some t.space ∧ (t.space = t ∨ t.space = t.behind) := by
  rw [scanToken_behind (valueExpected_behind h), hscan]
  refine ⟨rfl, ?_⟩
  by_cases hread : t.tokens = []
  · refine .inl (Unread.space_eq ?_)
    have hlexes := lexes_scanToken hcode hrest hscan
    have hnone : s.tokens = [] := by
      have hforward : Forward nested { s with spaceSeen := false } t :=
        hlexes.forward hcode (by simp [hrest]) hgoing
      by_contra hne
      exact ne_nil_of_suffix hne hforward.grows.tokens hread
    exact (h hnone).lexes hlexes hread
  · exact .inr (behind_of_tokens hread).symm

/-- A step behind a blank comes to the same state as the step without it, or to that state behind a
blank. -/
theorem step_behind (halt : Alternates s.modes) (h : s.Starting) {r : Step}
    (hstep : s.step nested = some r) :
    ∃ r', s.behind.step nested = some r' ∧ (r' = r ∨ r' = r.behind) := by
  rcases halt.inCode_or_literal with hcode | ⟨l, outer, hmodes⟩
  · obtain ⟨d, outer, hmodes⟩ := id hcode
    unfold step at hstep ⊢
    rw [hmodes] at hstep
    dsimp only at hstep
    rw [show s.behind.modes = .code d :: outer from hmodes]
    have htop : s.behind.atTopLine = s.atTopLine := rfl
    have hcursor : s.behind.cursor = s.cursor := rfl
    simp only [htop, hcursor, skipTrivia?_behind hcode h, endOfText_behind h]
    split at hstep
    · rename_i hend
      obtain rfl := Option.some.inj hstep
      exact ⟨_, if_pos hend, .inr rfl⟩
    rename_i hend
    rw [if_neg hend]
    split at hstep
    · rename_i t htrivia
      obtain rfl := Option.some.inj hstep
      rw [htrivia]
      exact ⟨_, rfl, .inr rfl⟩
    rename_i htrivia
    rw [htrivia, Option.map_none]
    split at hstep
    · rename_i hrest
      obtain rfl := Option.some.inj hstep
      simp only
      exact ⟨_, rfl, .inr rfl⟩
    · rename_i c cs hrest
      simp only
      obtain ⟨t, hscan, rfl⟩ := Option.map_eq_some_iff.mp hstep
      obtain ⟨hbehind, hagrees⟩ :=
        scanToken_agrees hcode h hrest (going_of_skipTrivia? htrivia) hscan
      refine ⟨.more t.space, ?_, hagrees.imp (congrArg Step.more) (congrArg Step.more)⟩
      rw [hbehind, Option.map_some]
  · have hread : s.tokens ≠ [] := by
      intro hnil
      obtain ⟨d, hcode⟩ := (h hnil).modes
      simp [hcode] at hmodes
    unfold step at hstep ⊢
    rw [hmodes] at hstep
    rw [show s.behind.modes = .literal l :: outer from hmodes, behind_of_tokens hread]
    obtain rfl := Option.some.inj hstep
    exact ⟨_, rfl, .inr (congrArg Step.more (scanContent_space hread l outer))⟩

/-- A run behind a blank comes to the same state as the run without it, or to that state behind a
blank. -/
theorem run_behind {fuel : ℕ} (hs : Sound (Placed source) s) (hrecorded : Recorded Starting s)
    (h : s.Starting) (hrun : run fuel s = some t) :
    ∃ t', run fuel s.behind = some t' ∧ (t' = t ∨ t' = t.behind) := by
  induction fuel generalizing s with
  | zero => simp [run] at hrun
  | succ fuel ih =>
    have hkept := placed_kept source
    rw [run] at hrun
    split at hrun
    · simp at hrun
    · rename_i u hstep
      obtain rfl := Option.some.inj hrun
      obtain ⟨r, hbehind, rfl | rfl⟩ := step_behind hs.stacked.alternates h hstep
      · exact ⟨u, by rw [run, hbehind], .inl rfl⟩
      · exact ⟨u.behind, by rw [run, hbehind]; rfl, .inr rfl⟩
    · rename_i u hstep
      obtain ⟨r, hbehind, rfl | rfl⟩ := step_behind hs.stacked.alternates h hstep
      · exact ⟨t, by rw [run, hbehind]; exact hrun, .inl rfl⟩
      · obtain ⟨hsafe, hbody⟩ := hkept.step_more (hkept.run_safe fuel) (.outer hs) hstep
        obtain ⟨t', hrun', hagrees⟩ := ih (hsafe.sound (hbody.trans hs.outermost))
          ((hrecorded.step_more hkept hs hstep).mono (by rintro v (hv | rfl); exacts [hv, h]))
          (h.step_more hkept hs hrecorded hstep) hrun
        exact ⟨t', by rw [run, hbehind]; exact hrun', hagrees⟩

/-! ### Empty lines -/

/-- An empty line in front of the first token is passed over. -/
lemma run_emptyLine (fuel n : ℕ) (spaced : Bool) (source : List Char) :
    run (fuel + 1) { (ofText ('\n' :: source)).lower n with spaceSeen := spaced } =
      run fuel ((ofText source).behind.lower (n + 1)) := by
  have hcursor : Cursor.advanceBy 1 ((Cursor.ofText ('\n' :: source)).lower n) =
      (Cursor.ofText source).lower (n + 1) := by
    have hlimit : Source.byteLength ('\n' :: source) + n = Source.byteLength source + (n + 1) := by
      rw [Source.byteLength_cons, show ('\n').utf8Size = 1 from rfl]
      omega
    have hposition : (Position.origin.advance '\n').lower n = Position.origin.lower (n + 1) := by
      change (⟨0 + 1 + n, 0 + 1 + n, 0⟩ : Position) = ⟨0 + (n + 1), 0 + (n + 1), 0⟩
      rw [Nat.add_assoc, Nat.add_comm 1 n]
    rw [Cursor.advanceBy_lower]
    exact congrArg₂ (fun place limit => (⟨place, source, limit⟩ : Cursor)) hposition hlimit
  have hstep : step (run fuel) { (ofText ('\n' :: source)).lower n with spaceSeen := spaced } =
      some (.more { (ofText ('\n' :: source)).lower n with
        cursor := Cursor.advanceBy 1 ((Cursor.ofText ('\n' :: source)).lower n)
        spaceSeen := true }) := rfl
  rw [run, hstep, hcursor]
  rfl

/-- Empty lines in front of the first token are passed over, and leave a blank behind them. -/
lemma run_emptyLines (fuel n k : ℕ) (source : List Char) :
    run (fuel + n) ((ofText (List.replicate n '\n' ++ source)).behind.lower k) =
      run fuel ((ofText source).behind.lower (k + n)) := by
  induction n generalizing k with
  | zero => rfl
  | succ n ih =>
    rw [show k + (n + 1) = k + 1 + n by omega, ← ih]
    exact run_emptyLine (fuel + n) k true _

/-- At the beginning nothing is recorded. -/
lemma recorded_ofText (source : List Char) : Recorded Starting (ofText source) :=
  fun c hc => by simp [live, ofText, ofCursor] at hc

/-- Reading a text behind empty lines comes to the same end, further down, but for the blank in
front of the first token. -/
theorem run_replicate {fuel : ℕ} (hrun : run fuel (ofText source) = some t) (n : ℕ) :
    ∃ t', run (fuel + n) (ofText (List.replicate n '\n' ++ source)) = some (t'.lower n) ∧
      (t' = t ∨ t' = t.behind) := by
  cases n with
  | zero =>
    have hlower := run_lower 0 (ofText source) fuel
    rw [hrun] at hlower
    exact ⟨t, hlower, .inl rfl⟩
  | succ n =>
    obtain ⟨t', hbehind, hagrees⟩ := run_behind (sound_ofText (placed_ofText source))
      (recorded_ofText source) (starting_ofText source) hrun
    refine ⟨t', ?_, hagrees⟩
    have hfirst := run_emptyLine (fuel + n) 0 false (List.replicate n '\n' ++ source)
    have hlines := run_emptyLines fuel n 1 source
    have hlower := run_lower (n + 1) (ofText source).behind fuel
    rw [hbehind] at hlower
    rw [zero_add] at hfirst
    rw [Nat.add_comm 1 n] at hlines
    exact hfirst.trans (hlines.trans hlower)

end RubyCheck.Scanner

/-! ### Whole texts -/

namespace RubyCheck.TokenStream

open Scanner

/-- The first token read is the last one of the stack. -/
lemma reverse_modifyLast (ts : List Token) :
    (ts.modifyLast Token.space).reverse = ts.reverse.modifyHead Token.space := by
  cases ts using List.reverseRecOn with
  | nil => rfl
  | append_singleton ts t => simp [List.modifyLast_concat]

/-- Tokens read further down are the same tokens further down. -/
lemma tokens_ofScanner_lower (n : ℕ) (s : Scanner) :
    (ofScanner (s.lower n)).tokens = (ofScanner s).tokens.map (Token.lower n) := by
  rw [tokens_ofScanner, tokens_ofScanner, List.map_append, List.map_reverse]
  rfl

/-- The end of a text counts as set off, so behind a blank only the first token differs, if at all. -/
lemma tokens_ofScanner_behind (s : Scanner) :
    (ofScanner s.behind).tokens = (ofScanner s).tokens.modifyHead Token.space := by
  rw [tokens_ofScanner, tokens_ofScanner, tokens_behind, reverse_modifyLast]
  cases s.tokens.reverse with
  | nil => rfl
  | cons t ts => rfl

/-- Behind empty lines the tokens and the faults of a text are the same, further down, but for the
blank in front of the first token. -/
theorem ofText_replicate (n : ℕ) (source : List Char) :
    ∃ f, (f = id ∨ f = Token.space) ∧
      (ofText (List.replicate n '\n' ++ source)).tokens =
        ((ofText source).tokens.modifyHead f).map (Token.lower n) ∧
      (ofText (List.replicate n '\n' ++ source)).faults =
        (ofText source).faults.map (Fault.lower n) := by
  obtain ⟨s, hrun, hstream⟩ := exists_run source
  obtain ⟨u, hrun', hstream'⟩ := exists_run (List.replicate n '\n' ++ source)
  obtain ⟨t, hlower, hagrees⟩ := run_replicate (hrun _ le_rfl) n
  obtain rfl : u = t.lower n := by
    have hlong := run_mono (le_max_left _ (stepsFor (List.replicate n '\n' ++ source).length)) hlower
    rw [hrun' _ (le_max_right _ _)] at hlong
    exact Option.some.inj hlong
  have hfaults : t.faults = s.faults := by
    rcases hagrees with rfl | rfl
    · rfl
    · rfl
  rw [hstream, hstream', tokens_ofScanner_lower]
  have hreverse : ((t.lower n).faults).reverse = s.faults.reverse.map (Fault.lower n) := by
    rw [faults_lower, hfaults, List.map_reverse]
  rcases hagrees with rfl | rfl
  · exact ⟨id, .inl rfl, by rw [List.modifyHead_id]; rfl, hreverse⟩
  · exact ⟨Token.space, .inr rfl, by rw [tokens_ofScanner_behind], hreverse⟩

end RubyCheck.TokenStream
