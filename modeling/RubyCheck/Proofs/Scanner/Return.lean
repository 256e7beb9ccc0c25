import RubyCheck.Proofs.Scanner.Termination

/-!
# What going back brings back

A checkpoint is taken in the state in which a literal opens, and `restore` puts that state back but
for what only guides the scanner: the names learnt since then stay, the flags for `def` and for bars
are gone, and one more literal ends on its line.  As long as a checkpoint is live nothing below the
lengths in it changes: not when literals inside it open, close or are abandoned, not when those
around it close and it takes their place, and not when another opener is gone back to
(`Sound.captures_step_more`).  `TakenIn` says that a checkpoint was taken in a given state; so
whenever an opener is gone back to, the state is that earlier one with what was learnt
(`Turns.comesBack`), and in every state of a text each live checkpoint restores what was there when
it was taken (`Turns.restores`).
-/

namespace RubyCheck.Scanner

variable {source : List Char} {s s' t u : Scanner} {nested : Scanner → Option Scanner}
  {c : Checkpoint} {past : Scanner → Prop}

/-! ### States in which checkpoints are taken -/

/-- A checkpoint of a scanner was taken in a state in which a literal opens, and restores it. -/
structure TakenIn (u s : Scanner) (c : Checkpoint) : Prop where
  code : u.InCode
  opens : (u.opening? u.spaceSeen).isSome = true
  checkpoint : c = u.checkpoint u.spaceSeen
  restored : s.restored c = u.snapshot

/-- A state that the scanner is in again, when it has learnt some names and that some literals end
on their line.  Three things are not as they were: that a name is being defined or the parameters of
a block are being read, and where the last literal of several lines opens, is forgotten. -/
def revisited (u : Scanner) (names : List String) (singleLine : List ℕ) : Scanner :=
  { u with
    locals := names
    singleLine := singleLine
    lastMultiline := none
    definingName := false
    inBlockParameters := false }

/-- Going back to a checkpoint gives the state it was taken in, revisited. -/
lemma TakenIn.restore_eq (h : TakenIn u s c) :
    s.restore c = u.revisited s.locals s.singleLine := by
  have hrestored : (s.restore c).snapshot = u.snapshot := h.restored
  have hexpects : c.expects = u.expects ∧ c.spaced = u.spaceSeen := by
    rw [h.checkpoint]
    exact ⟨rfl, rfl⟩
  simp only [snapshot, restore, Snapshot.mk.injEq] at hrestored
  obtain ⟨hcursor, htokens, hfaults, hmodes, hopen, hresume, hbody⟩ := hrestored
  simp only [restore, revisited, hcursor, htokens, hfaults, hmodes, hopen, hresume, hbody,
    hexpects.1, hexpects.2]

/-- Every checkpoint that can be gone back to was taken in one of the past states. -/
def Recorded (past : Scanner → Prop) (s : Scanner) : Prop :=
  ∀ c ∈ s.live, ∃ u, past u ∧ TakenIn u s c

/-- What is recorded of some states is recorded of more. -/
lemma Recorded.mono {past' : Scanner → Prop} (h : Recorded past s) (hpast : ∀ u, past u → past' u) :
    Recorded past' s := by
  intro c hc
  obtain ⟨u, hu, htaken⟩ := h c hc
  exact ⟨u, hpast u hu, htaken⟩

/-! ### Checkpoints that stay live -/

/-- A move that takes no checkpoint: what can be gone back to behind it could be gone back to before, and
restores the same. -/
def Retains (s s' : Scanner) : Prop := ∀ c ∈ s'.live, c ∈ s.live ∧ s'.restored c = s.restored c

/-- Checkpoints that are retained twice are retained. -/
lemma Retains.trans (h : Retains s t) (h' : Retains t s') : Retains s s' := by
  intro c hc
  obtain ⟨hlive', hrestored'⟩ := h' c hc
  obtain ⟨hlive, hrestored⟩ := h c hlive'
  exact ⟨hlive, hrestored'.trans hrestored⟩

/-- What is learnt of the lines on which literals end restores nothing. -/
lemma retains_endOnItsLine (opener : ℕ) :
    Retains s (s.endOnItsLine opener) ∧ Retains (s.endOnItsLine opener) s := by
  unfold endOnItsLine
  split <;> exact ⟨fun c hc => ⟨hc, rfl⟩, fun c hc => ⟨hc, rfl⟩⟩

section Sound

variable {P : Snapshot → Prop} (hs : Sound P s)

include hs

/-- A checkpoint that stays live restores the same state after a move. -/
lemma Sound.retains_of_grows (hgrows : Grows s s')
    (hlive : ∀ c ∈ s'.live, c ∈ s.live ∧ c.depth ≤ s'.openLiterals.length) : Retains s s' := by
  intro c hc
  obtain ⟨hold, hdepth⟩ := hlive c hc
  have hfits := hs.fits c hold
  exact ⟨hold, restored_eq_of_grows hgrows hfits (hs.stacked.modes_le hfits) hdepth⟩

/-- A move that leaves the open literals and the remembered one as they are. -/
lemma Sound.retains_of_same (hgrows : Grows s s') (hopen : s'.openLiterals = s.openLiterals)
    (hlast : s'.lastMultiline = s.lastMultiline) : Retains s s' := by
  refine hs.retains_of_grows hgrows fun c hc => ?_
  have hold : c ∈ s.live := by
    rw [mem_live, hopen, hlast] at hc
    exact mem_live.mpr hc
  exact ⟨hold, hopen ▸ (hs.fits c hold).depth_le⟩

/-- Reading content retains the checkpoints. -/
lemma Sound.retains_content (hmove : Content s t) : Retains s t := by
  refine hs.retains_of_grows hmove.grows fun c hc => ?_
  rw [hmove.live_eq] at hc
  exact ⟨hc, hmove.openLiterals_eq ▸ (hs.fits c hc).depth_le⟩

/-- Passing what is no token retains the checkpoints. -/
lemma Sound.retains_passes (hcode : s.InCode) (how : Passes s s') : Retains s s' := by
  have hforward : Forward (fun _ => none) s s' := how.forward hcode
  cases how with
  | blank n piece eq | document n top word ended eq | stray cause n pos ahead eq
  | lineBreak rest tokens e ahead read eq =>
    exact hs.retains_of_same hforward.grows (eq ▸ rfl) (eq ▸ rfl)

/-- Inside a literal no checkpoint is taken. -/
lemma Sound.retains_forward {l : OpenLiteral} {outer : List Mode}
    (hmodes : s.modes = .literal l :: outer) (hmove : Forward nested s s') : Retains s s' := by
  refine hs.retains_of_grows hmove.grows fun c hc => ?_
  rcases hmove.liveFrom hs.stacked hs.fits c hc with hold | ⟨_, -, ⟨d, outer', hcode⟩, -⟩
  · exact hold
  · simp [hmodes] at hcode

/-- Going back to a checkpoint retains those that are live then. -/
lemma Sound.retains_restore (hc : c ∈ s.live) : Retains s (s.restore c) := by
  intro x hx
  obtain ⟨hlive, -, hrestored⟩ := hs.live_restore hc hx
  exact ⟨hlive, hrestored⟩

/-- A rewind retains the checkpoints that are live then. -/
lemma Sound.retains_rewind (hmove : Rewind s s') : Retains s s' := by
  obtain ⟨c, -, -, htarget, rfl⟩ := hmove
  obtain ⟨hlive, -⟩ := mem_live_of_rewindTarget? htarget
  obtain ⟨hforth, hback⟩ := retains_endOnItsLine (s := s) c.opener
  exact hforth.trans ((hs.endOnItsLine c.opener).retains_restore (hback c hlive).1)

/-- Closing a literal retains the checkpoints. -/
lemma Sound.retains_closes (hmove : Closes s s') : Retains s s' := by
  intro c hc
  rw [(hs.live_of_closes hmove).2] at hc
  simp at hc

end Sound

/-- In a turn a literal opens, and its checkpoint is taken. -/
structure Captures (s s' : Scanner) (c : Checkpoint) : Prop where
  code : s.InCode
  opens : ∃ o, s.opening? s.spaceSeen = some o ∧
    s' = { s with spaceSeen := false }.beginLiteral o s.spaceSeen
  checkpoint : c = s.checkpoint s.spaceSeen

/-- A new literal makes at most its own checkpoint live. -/
lemma live_beginLiteral {o : Opening} {spaced : Bool} (hc : c ∈ (s.beginLiteral o spaced).live) :
    c ∈ s.live ∨ c = s.checkpoint spaced := by
  have hlast : (s.beginLiteral o spaced).lastMultiline = s.lastMultiline := by
    simp only [beginLiteral, endOnItsLine]
    split_ifs <;> rfl
  have hopen : (s.beginLiteral o spaced).openLiterals = s.checkpoint spaced :: s.openLiterals :=
    congrArg Snapshot.openLiterals (snapshot_beginLiteral o spaced)
  rw [mem_live, hlast, hopen, List.mem_cons] at hc
  rw [mem_live]
  tauto

section Sound

variable {P : Snapshot → Prop} (hs : Sound P s)

include hs

/-- The checkpoint of a literal that opens restores the present state. -/
lemma Sound.captures_begin {o : Opening} (hcode : s.InCode) (ahead : s.cursor.rest ≠ [])
    (ho : s.opening? s.spaceSeen = some o)
    (heq : s' = { s with spaceSeen := false }.beginLiteral o s.spaceSeen) (hc : c ∈ s'.live) :
    c ∈ s.live ∧ s'.restored c = s.restored c ∨ Captures s s' c ∧ s'.restored c = s.snapshot := by
  have hcore : s'.core = (s.beginLiteral o s.spaceSeen).core :=
    heq ▸ core_beginLiteral_spaceSeen o false
  have hforward : Forward (fun _ => none) s s' :=
    .begin o s.spaceSeen hcode (width_pos_of_opening? ho) ahead hcore
  have hgrows := hforward.grows
  have hsnap := (snapshot_eq_of_core hcore).trans (snapshot_beginLiteral o s.spaceSeen)
  have hmodes : s'.modes = .literal (s.openedLiteral o) :: s.modes := congrArg Snapshot.modes hsnap
  have hopen : s'.openLiterals = s.checkpoint s.spaceSeen :: s.openLiterals :=
    congrArg Snapshot.openLiterals hsnap
  rcases live_beginLiteral (heq ▸ hc) with hold | hnew
  · have hold : c ∈ s.live := hold
    have hfits := hs.fits c hold
    have hdepth : c.depth ≤ s'.openLiterals.length := by
      rw [hopen]
      exact hfits.depth_le.trans (Nat.le_succ _)
    exact .inl ⟨hold, restored_eq_of_grows hgrows hfits (hs.stacked.modes_le hfits) hdepth⟩
  · replace hnew : c = s.checkpoint s.spaceSeen := hnew
    refine .inr ⟨⟨hcode, ⟨o, ho, heq⟩, hnew⟩, ?_⟩
    rw [hnew]
    exact restored_checkpoint hgrows (hmodes ▸ List.suffix_cons _ _) (hopen ▸ List.suffix_cons _ _)

/-- Reading a token retains the checkpoints, and takes new ones in the state before it. -/
lemma Sound.captures_lexes (hcode : s.InCode) (ahead : s.cursor.rest ≠ [])
    (going : s.cursor.rest.head? ≠ some '\n')
    (how : Lexes nested { s with spaceSeen := false } s.spaceSeen s') (hc : c ∈ s'.live) :
    c ∈ s.live ∧ s'.restored c = s.restored c ∨ Captures s s' c ∧ s'.restored c = s.snapshot := by
  have hforward : Forward nested { s with spaceSeen := false } s' := how.forward hcode ahead going
  have hgrows : Grows s s' := (hforward.of_spaceSeen hcode).grows
  cases how with
  | opens o opening eq => exact hs.captures_begin hcode ahead opening eq hc
  | heredoc o body expected opener read eq =>
    exact .inl (hs.retains_of_same hgrows (eq ▸ rfl) (eq ▸ rfl) c hc)
  | stray cause n pos eq => exact .inl (hs.retains_of_same hgrows (eq ▸ rfl) (eq ▸ rfl) c hc)
  | token t guided =>
    cases guided.takes with
    | code n faults modes pos is plain going kept eq =>
      exact .inl (hs.retains_of_same hgrows (congrArg openLiterals eq :)
        (congrArg lastMultiline eq :) c hc)
    | brace mode outer rest modes ahead is eq =>
      exact .inl (hs.retains_of_same hgrows (congrArg openLiterals eq :)
        (congrArg lastMultiline eq :) c hc)

/-- A checkpoint that is live behind a step was live before and restores the same as before, or it is
taken in this step and restores the state in front of it. -/
theorem Sound.captures_step_more (hkept : Kept P) (hstep : s.step nested = some (.more s'))
    (hc : c ∈ s'.live) :
    c ∈ s.live ∧ s'.restored c = s.restored c ∨ Captures s s' c ∧ s'.restored c = s.snapshot := by
  cases advances_of_step hs.stacked.alternates hstep with
  | passes code how => exact .inl (hs.retains_passes code how c hc)
  | lexes code ahead going how => exact hs.captures_lexes code ahead going how hc
  | returns how => exact .inl (hs.retains_rewind how c hc)
  | continues l l' outer stop n modes ends how =>
    generalize ht : ({ s with modes := .literal l' :: outer } : Scanner).emitContent n = t at how
    have hcontent : Content s t := ⟨l, l', outer, stop, n, modes, ends, ht.symm⟩
    have hmodes : t.modes = .literal l' :: outer := by
      rw [← ht, modes_emitContent]
    have hst : Sound P t := hs.content hcontent (hkept.content hs.stacked.alternates hs.holds hcontent)
    have hretains : Retains t s' := by
      rcases (how.move hmodes : Forward nested t s' ∨ _) with hforward | hrewind | hcloses
      · exact hst.retains_forward hmodes hforward
      · exact hst.retains_rewind hrewind
      · exact hst.retains_closes hcloses
    exact .inl ((hs.retains_content hcontent).trans hretains c hc)

end Sound

/-! ### What is recorded -/

/-- What is recorded stays so while checkpoints are retained. -/
lemma Recorded.of_retains (h : Recorded past s) (hretains : Retains s s') : Recorded past s' := by
  intro c hc
  obtain ⟨hold, hrestored⟩ := hretains c hc
  obtain ⟨u, hu, htaken⟩ := h c hold
  exact ⟨u, hu, { htaken with restored := hrestored.trans htaken.restored }⟩

/-- What is recorded stays so over content. -/
lemma Recorded.content {P : Snapshot → Prop} (h : Recorded past s) (hs : Sound P s)
    (hmove : Content s t) : Recorded past t :=
  h.of_retains (hs.retains_content hmove)

/-- Going back to an opener puts a past state back, with what was learnt since then. -/
theorem Recorded.rewind {P : Snapshot → Prop} (h : Recorded past s) (hs : Sound P s)
    (hmove : Rewind s s') :
    Recorded past s' ∧ ∃ u, past u ∧ u.InCode ∧ (u.opening? u.spaceSeen).isSome = true ∧
      s' = u.revisited s.locals (u.cursor.position.byte :: s.singleLine) := by
  refine ⟨h.of_retains (hs.retains_rewind hmove), ?_⟩
  obtain ⟨c, -, -, htarget, rfl⟩ := hmove
  obtain ⟨hlive, -⟩ := mem_live_of_rewindTarget? htarget
  obtain ⟨-, hsingle⟩ := singleLine_restore htarget
  obtain ⟨hforth, hback⟩ := retains_endOnItsLine (s := s) c.opener
  obtain ⟨u, hu, htaken⟩ := h.of_retains hforth c (hback c hlive).1
  refine ⟨u, hu, htaken.code, htaken.opens, ?_⟩
  have hopener : c.opener = u.cursor.position.byte := by
    rw [htaken.checkpoint]
    rfl
  have hlocals : (s.endOnItsLine c.opener).locals = s.locals := by
    unfold Scanner.endOnItsLine
    split <;> rfl
  replace hsingle : (s.endOnItsLine c.opener).singleLine = c.opener :: s.singleLine := hsingle
  rw [htaken.restore_eq, hlocals, hsingle, hopener]

/-- What is recorded stays so when a literal is closed. -/
lemma Recorded.of_closes {P : Snapshot → Prop} (hs : Sound P s) (hmove : Closes s s') :
    Recorded past s' := by
  intro c hc
  rw [(hs.live_of_closes hmove).2] at hc
  simp at hc

/-- What is live after a step was taken in a state before it. -/
theorem Recorded.step_more {P : Snapshot → Prop} (hkept : Kept P) (h : Recorded past s)
    (hs : Sound P s) (hstep : s.step nested = some (.more s')) :
    Recorded (fun u => past u ∨ u = s) s' := by
  intro c hc
  rcases hs.captures_step_more hkept hstep hc with ⟨hold, hrestored⟩ | ⟨hcaptures, hrestored⟩
  · obtain ⟨u, hu, htaken⟩ := h c hold
    exact ⟨u, .inl hu, { htaken with restored := hrestored.trans htaken.restored }⟩
  · obtain ⟨hcode, ⟨o, ho, -⟩, hcheckpoint⟩ := hcaptures
    exact ⟨s, .inr rfl, hcode, by simp [ho], hcheckpoint, hrestored⟩

/-- A step that goes back to an opener puts the past state back in which the literal opens there, with
what was learnt since then. -/
theorem Recorded.goesBack {P : Snapshot → Prop} {opener : ℕ} (hkept : Kept P) (h : Recorded past s)
    (hs : Sound P s) (hstep : s.step nested = some (.more s')) (hback : GoesBack s s' opener) :
    ∃ u, past u ∧ u.InCode ∧ (u.opening? u.spaceSeen).isSome = true ∧
      u.cursor.position.byte = opener ∧ s' = u.revisited s.locals (opener :: s.singleLine) := by
  obtain ⟨t, ht, hrewind⟩ := hback.rewind hs.stacked.alternates hstep
  -- What was read to the end of the text before going back changes none of what is learnt.
  have hbetween : Sound P t ∧ Recorded past t ∧ t.locals = s.locals ∧ t.singleLine = s.singleLine := by
    rcases ht with rfl | hcontent
    · exact ⟨hs, h, rfl, rfl⟩
    · have hholds := hkept.content hs.stacked.alternates hs.holds hcontent
      refine ⟨hs.content hcontent hholds, h.content hs hcontent, ?_, hcontent.singleLine_eq⟩
      obtain ⟨l, l', outer, stop, n, -, -, rfl⟩ := hcontent
      unfold emitContent
      split <;> rfl
  obtain ⟨hst, hrt, hlocals, hsingle⟩ := hbetween
  obtain ⟨-, u, hu, hcode, hopens, hcomes⟩ := hrt.rewind hst hrewind
  have hopener : u.cursor.position.byte = opener := by
    rw [← hback.returns, hcomes]
    rfl
  refine ⟨u, hu, hcode, hopens, hopener, ?_⟩
  rw [hcomes, hlocals, hsingle, hopener]

/-! ### Turns -/

/-- A run passes through states one after the other, up to one in which everything is read.  Every
step is allowed fewer steps for the bodies of heredocs than the run itself is. -/
theorem exists_turns {fuel : ℕ} (h : run fuel s = some t) :
    ∃ (states : ℕ → Scanner) (n : ℕ), states 0 = s ∧
      (∀ i < n, ∃ f < fuel, (states i).step (run f) = some (.more (states (i + 1)))) ∧
      ∃ f < fuel, (states n).step (run f) = some (.done t) := by
  induction fuel generalizing s with
  | zero => simp [run] at h
  | succ fuel ih =>
    rw [run] at h
    split at h
    · simp at h
    · rename_i s' hstep
      obtain rfl := Option.some.inj h
      exact ⟨fun _ => s, 0, rfl, by simp, fuel, Nat.lt_succ_self fuel, hstep⟩
    · rename_i s' hstep
      obtain ⟨states, n, hstart, hsteps, f, hf, hdone⟩ := ih h
      refine ⟨fun i => i.casesOn s states, n + 1, rfl, fun i hi => ?_, f,
        Nat.lt_succ_of_lt hf, hdone⟩
      cases i with
      | zero =>
        have hstep' : s.step (run fuel) = some (.more (states 0)) := hstart ▸ hstep
        exact ⟨fuel, Nat.lt_succ_self fuel, hstep'⟩
      | succ i =>
        obtain ⟨f, hf, hmore⟩ := hsteps i (by omega)
        exact ⟨f, Nat.lt_succ_of_lt hf, hmore⟩

/-- Outside the bodies of heredocs, a safe state is sound. -/
lemma Safe.sound {P : Snapshot → Prop} (h : Safe P s) (hbody : s.inBody = false) : Sound P s := by
  cases h with
  | outer sound => exact sound
  | body inBody _ _ => simp [hbody] at inBody

/-- In the states of a text every checkpoint was taken in a state before. -/
lemma Turns.recorded {states : ℕ → Scanner} {n : ℕ} (hturns : Turns states n)
    (hstart : states 0 = ofText source) :
    ∀ k ≤ n, Sound (Placed source) (states k) ∧
      Recorded (fun u => ∃ i < k, states i = u) (states k) := by
  have hkept := placed_kept source
  have hvisited := Visited.of_turns (hstart ▸ Visited.start) hturns
  intro k hk
  induction k with
  | zero =>
    rw [hstart]
    exact ⟨sound_ofText (placed_ofText source), fun c hc => by simp [live, ofText, ofCursor] at hc⟩
  | succ k ih =>
    obtain ⟨hsound, hrecorded⟩ := ih (by omega)
    obtain ⟨fuel, hstep⟩ := hturns k hk
    obtain ⟨hsafe, hbody⟩ := hkept.step_more (hkept.run_safe fuel) (.outer hsound) hstep
    refine ⟨hsafe.sound (hbody.trans hsound.outermost), ?_⟩
    refine (hrecorded.step_more hkept hsound hstep).mono ?_
    rintro u (⟨i, hi, rfl⟩ | rfl)
    · exact ⟨i, Nat.lt_succ_of_lt hi, rfl⟩
    · exact ⟨k, Nat.lt_succ_self k, rfl⟩

/-- Whenever an opener is gone back to, the scanner is in an earlier state again, the one in which the
literal opens there, and all it has kept of what came in between is the names it has learnt and
which literals end on their line. -/
theorem Turns.comesBack {states : ℕ → Scanner} {n j opener : ℕ} (hturns : Turns states n)
    (hstart : states 0 = ofText source) (hj : j < n)
    (hback : GoesBack (states j) (states (j + 1)) opener) :
    ∃ i < j, (states i).InCode ∧ ((states i).opening? (states i).spaceSeen).isSome = true ∧
      (states i).cursor.position.byte = opener ∧
      states (j + 1) = (states i).revisited (states j).locals (opener :: (states j).singleLine) := by
  obtain ⟨hsound, hrecorded⟩ := hturns.recorded hstart j hj.le
  obtain ⟨fuel, hstep⟩ := hturns j hj
  obtain ⟨u, ⟨i, hi, rfl⟩, hcomes⟩ := hrecorded.goesBack (placed_kept source) hsound hstep hback
  exact ⟨i, hi, hcomes⟩

/-! ### What a checkpoint stands for -/

section Held

variable {states : ℕ → Scanner} {n : ℕ}

/-- In every state of a text, each live checkpoint was taken in a turn before and is live since then, and
restores what was there when it was taken. -/
theorem Turns.captured (hturns : Turns states n) (hstart : states 0 = ofText source) :
    ∀ k ≤ n, ∀ c ∈ (states k).live, ∃ i < k, Captures (states i) (states (i + 1)) c ∧
      (∀ j, i < j → j ≤ k → c ∈ (states j).live) ∧
      (states k).restored c = (states i).snapshot := by
  intro k hk
  induction k with
  | zero => simp [hstart, live, ofText, ofCursor]
  | succ k ih =>
    intro c hc
    obtain ⟨hsound, -⟩ := hturns.recorded hstart k (by omega)
    obtain ⟨fuel, hstep⟩ := hturns k hk
    rcases hsound.captures_step_more (placed_kept source) hstep hc with
      ⟨hold, hrestored⟩ | ⟨hcaptures, hrestored⟩
    · obtain ⟨i, hi, hcaptures, hheld, hrestored'⟩ := ih (by omega) c hold
      refine ⟨i, Nat.lt_succ_of_lt hi, hcaptures, fun j hij hj => ?_, hrestored.trans hrestored'⟩
      rcases Nat.le_succ_iff.mp hj with hj | rfl
      · exact hheld j hij hj
      · exact hc
    · refine ⟨k, Nat.lt_succ_self k, hcaptures, fun j hkj hj => ?_, hrestored⟩
      obtain rfl : j = k + 1 := by omega
      exact hc

/-- The states of a scanner behind `n` turns: right behind them, behind the content that is read in
front of what comes next, and when there is nothing more to read. -/
inductive Stands (states : ℕ → Scanner) (n : ℕ) (s : Scanner) : Prop
  | turned (eq : s = states n)
  | content (move : Content (states n) s)
  | done (fuel : ℕ) (step : (states n).step (run fuel) = some (.done s))

/-- Behind some turns no checkpoint is live but those that were live right behind them. -/
lemma Stands.retains (h : Stands states n s) (hturns : Turns states n)
    (hstart : states 0 = ofText source) : Retains (states n) s := by
  obtain ⟨hsound, -⟩ := hturns.recorded hstart n le_rfl
  cases h with
  | turned eq => exact eq ▸ fun c hc => ⟨hc, rfl⟩
  | content move => exact hsound.retains_content move
  | done fuel step =>
    rcases step_done hsound.stacked.alternates step with ⟨rfl, -⟩ | hcloses
    · exact fun c hc => ⟨hc, rfl⟩
    · exact hsound.retains_closes hcloses

/-- In every state of a text, going back to a checkpoint that is held there, be it that of an open literal
or that of the last string that spanned a line break, gives the tokens, the faults, the modes, the
open literals, the cursor and the place behind the heredocs of the line as they were when the
checkpoint was taken, in the turn since which it is held. -/
theorem Turns.restores (hstart : states 0 = ofText source) (hturns : Turns states n)
    (hs : Stands states n s) (hc : s.lastMultiline = some c ∨ c ∈ s.openLiterals) :
    ∃ i < n, Captures (states i) (states (i + 1)) c ∧
      (∀ j, i < j → j ≤ n → (states j).lastMultiline = some c ∨ c ∈ (states j).openLiterals) ∧
      (s.restore c).tokens = (states i).tokens ∧ (s.restore c).faults = (states i).faults ∧
      (s.restore c).modes = (states i).modes ∧
      (s.restore c).openLiterals = (states i).openLiterals ∧
      (s.restore c).cursor = (states i).cursor ∧ (s.restore c).resume = (states i).resume := by
  obtain ⟨hlive, hrestored⟩ := hs.retains hturns hstart c (mem_live.mpr hc)
  obtain ⟨i, hi, hcaptures, hheld, hsnapshot⟩ := hturns.captured hstart n le_rfl c hlive
  have hback : (s.restore c).snapshot = (states i).snapshot := hrestored.trans hsnapshot
  exact ⟨i, hi, hcaptures, fun j hij hj => mem_live.mp (hheld j hij hj),
    congrArg Snapshot.tokens hback, congrArg Snapshot.faults hback, congrArg Snapshot.modes hback,
    congrArg Snapshot.openLiterals hback, congrArg Snapshot.cursor hback,
    congrArg Snapshot.resume hback⟩

/-- The scanner behind some turns, if it comes across no heredoc. -/
def onward (s : Scanner) : ℕ → Scanner
  | 0 => s
  | n + 1 =>
    match (s.onward n).step (run 0) with
    | some (.more s') => s'
    | _ => s.onward n

/-- Whether there is more to read behind the next step, if it comes across no heredoc. -/
def goesOn (s : Scanner) : Bool :=
  match s.step (run 0) with
  | some (.more _) => true
  | _ => false

/-- A run that goes on takes one turn after another. -/
lemma turns_onward (h : ∀ i < n, (s.onward i).goesOn = true) : Turns s.onward n := by
  intro i hi
  have hgoes := h i hi
  unfold goesOn at hgoes
  split at hgoes
  · rename_i s' hstep
    exact ⟨0, by rw [hstep, onward, hstep]⟩
  · simp at hgoes

/-- A string over two lines is closed and remembered, and code with an open brace stands in the next
one: both are gone back to, each to its own opener. -/
theorem Turns.restores_two :
    ∃ states : ℕ → Scanner, states 0 = ofText "\"\n\" \"#\x7b\x7b".toList ∧ Turns states 6 ∧
      ∃ c d i j, (states 6).lastMultiline = some c ∧ d ∈ (states 6).openLiterals ∧ i < 6 ∧ j < 6 ∧
        ((states 6).restore c).tokens = (states i).tokens ∧
        ((states 6).restore c).modes = (states i).modes ∧
        ((states 6).restore d).tokens = (states j).tokens ∧
        ((states 6).restore d).modes = (states j).modes := by
  have hturns : Turns (onward (ofText "\"\n\" \"#\x7b\x7b".toList)) 6 :=
    turns_onward (by decide +kernel)
  have hlast : ((ofText "\"\n\" \"#\x7b\x7b".toList).onward 6).lastMultiline.isSome = true := by
    decide +kernel
  have hopen : ((ofText "\"\n\" \"#\x7b\x7b".toList).onward 6).openLiterals.head?.isSome = true := by
    decide +kernel
  obtain ⟨c, hc⟩ := Option.isSome_iff_exists.mp hlast
  obtain ⟨d, hd⟩ := Option.isSome_iff_exists.mp hopen
  have hmem := List.mem_of_mem_head? hd
  obtain ⟨i, hi, -, -, htokens, -, hmodes, -⟩ := Turns.restores rfl hturns (.turned rfl) (.inl hc)
  obtain ⟨j, hj, -, -, htokens', -, hmodes', -⟩ :=
    Turns.restores rfl hturns (.turned rfl) (.inr hmem)
  exact ⟨_, rfl, hturns, c, d, i, j, hc, hmem, hi, hj, htokens, hmodes, htokens', hmodes'⟩

end Held

end RubyCheck.Scanner
