import RubyCheck.Proofs.Scanner.Stack

/-!
# Going back keeps what going forward keeps

Outside heredoc bodies a property of snapshots that every move forward keeps holds however often the
scanner goes back: along with the present, the snapshots that the live checkpoints would restore
keep it, because they do not change.  `Sound` is the invariant that carries the argument.
-/

namespace RubyCheck.Scanner

variable {s s' t : Scanner} {nested : Scanner → Option Scanner} {c : Checkpoint}
    {P : Snapshot → Prop}

/-! ### Stacked snapshots -/

/-- A checkpoint that fits was taken with no more modes than there are, or one more. -/
lemma Stacked.modes_le {r : Snapshot} (h : Stacked r) (hfits : Fits r c) :
    c.modes ≤ r.modes.length + 1 := by
  have hopen := h.open_length
  have hdepth := hfits.depth_le
  have hmodes := hfits.modes_eq
  omega

/-- A checkpoint that fits a scanner fits it after a move that keeps the literals around its
opener. -/
lemma Fits.of_grows (h : Grows s s') (hfits : Fits s.snapshot c)
    (hdepth : c.depth ≤ s'.openLiterals.length) : Fits s'.snapshot c :=
  { hfits with
    tokens_le := hfits.tokens_le.trans h.tokens.length_le
    faults_le := hfits.faults_le.trans h.faults.length_le
    depth_le := hdepth }

/-- A checkpoint just taken fits. -/
lemma Fits.of_checkpoint {spaced : Bool} (hs : Stacked s.snapshot) (hcode : s.InCode)
    (h : Grows s s') (hopen : s.openLiterals <:+ s'.openLiterals) :
    Fits s'.snapshot (s.checkpoint spaced) := by
  obtain ⟨d, outer, hmodes⟩ := hcode
  have halt : Alternates s.modes := hs.alternates
  have hparity := (hmodes ▸ halt).length_of_code
  have hlength : s.openLiterals.length = s.modes.length / 2 := hs.open_length
  refine ⟨h.tokens.length_le, h.faults.length_le, hopen.length_le, ?_, ?_, rfl, rfl⟩
  · change s.modes.length = 2 * s.openLiterals.length + 1
    rw [hlength, hmodes, List.length_cons]
    omega
  · change (s.modes.take 2).length = min 2 s.modes.length
    exact List.length_take

/-- What a move does to the checkpoints that can be gone back to: each was one before and is not
nested more deeply than the literals still open, or it was just taken. -/
def LiveFrom (s s' : Scanner) : Prop :=
  ∀ c ∈ s'.live, (c ∈ s.live ∧ c.depth ≤ s'.openLiterals.length) ∨
    ∃ spaced, c = s.checkpoint spaced ∧ s.InCode ∧ s.modes <:+ s'.modes ∧
      s.openLiterals <:+ s'.openLiterals

/-- A move forward takes its live checkpoints from those before it, or takes one anew. -/
lemma Forward.liveFrom (hs : Stacked s.snapshot) (hfits : ∀ c ∈ s.live, Fits s.snapshot c)
    (h : Forward nested s s') : LiveFrom s s' := by
  have hold : s'.openLiterals = s.openLiterals → s'.lastMultiline = s.lastMultiline →
      LiveFrom s s' := by
    intro hopen hlast c hc
    have hlive : c ∈ s.live := by
      rw [mem_live, hopen, hlast] at hc
      exact mem_live.mpr hc
    exact .inl ⟨hlive, hopen ▸ (hfits c hlive).depth_le⟩
  cases h.relayers with
  | same layers opens last => exact hold opens last
  | entered l outer modes modes' opens last => exact hold opens last
  | left mode outer modes modes' opens last => exact hold opens last
  | opened l spaced code delimited modes opens last =>
    intro c hc
    rw [mem_live, opens, last, List.mem_cons] at hc
    have hdepth : ∀ c ∈ s.live, c.depth ≤ s'.openLiterals.length := by
      intro c hc
      rw [opens]
      exact (hfits c hc).depth_le.trans (Nat.le_succ _)
    rcases hc with hc | rfl | hc
    · exact .inl ⟨mem_live.mpr (.inl hc), hdepth c (mem_live.mpr (.inl hc))⟩
    · exact .inr ⟨spaced, rfl, code, modes ▸ List.suffix_cons _ _, opens ▸ List.suffix_cons _ _⟩
    · exact .inl ⟨mem_live.mpr (.inr hc), hdepth c (mem_live.mpr (.inr hc))⟩
  | closed l outer modes modes' opens live =>
    intro c hc
    obtain ⟨hlive, hdepth⟩ := live c hc
    refine .inl ⟨hlive, ?_⟩
    have hnum : Numbered s.openLiterals := hs.numbered
    have halt : Alternates s.modes := hs.alternates
    have hparity := (modes ▸ halt).length_of_literal
    have hlength : s.openLiterals.length = s.modes.length / 2 := hs.open_length
    rw [modes, List.length_cons] at hlength
    rw [opens, List.length_tail]
    rcases hdepth with hmem | hdepth
    · exact Nat.le_sub_one_of_lt (hnum.depth_lt hmem)
    · cases hcons : s.openLiterals with
      | nil =>
        rw [hcons, List.length_nil] at hlength
        omega
      | cons d ds =>
        rw [hcons] at hnum
        have hle := hdepth d (by simp [hcons])
        rw [hnum.1] at hle
        simpa using hle
  | body l outer modes open_ modes' opens =>
    have hdelimited := hs.delimited l (by rw [snapshot_modes, modes]; simp)
    simp [open_] at hdelimited

/-- Counting braces opens no literal. -/
lemma SameLayers.mem_literal {ms ms' : List Mode} (h : SameLayers ms ms') {l : OpenLiteral}
    (hl : .literal l ∈ ms') : .literal l ∈ ms := by
  cases h with
  | refl => exact hl
  | braces d d' outer => simpa using hl

/-- A move forward keeps the stacks of a snapshot together. -/
theorem Forward.stacked (hs : Stacked s.snapshot)
    (hfits : ∀ c ∈ s'.openLiterals, Fits s'.snapshot c) (h : Forward nested s s') :
    Stacked s'.snapshot := by
  have halt : Alternates s.modes := hs.alternates
  have hlength : s.openLiterals.length = s.modes.length / 2 := hs.open_length
  have hnum : Numbered s.openLiterals := hs.numbered
  have hdel : ∀ l, .literal l ∈ s.modes → l.close.isSome = true := hs.delimited
  suffices hstacks : s'.openLiterals.length = s'.modes.length / 2 ∧ Numbered s'.openLiterals ∧
      ∀ l, .literal l ∈ s'.modes → l.close.isSome = true from
    ⟨h.alternates halt, hstacks.1, hstacks.2.1, hstacks.2.2, hfits⟩
  cases h.relayers with
  | same layers opens last =>
    rw [opens, layers.length_eq]
    exact ⟨hlength, hnum, fun l hl => hdel l (layers.mem_literal hl)⟩
  | opened l spaced code delimited modes opens last =>
    obtain ⟨d, outer, hmodes⟩ := code
    have hparity := (hmodes ▸ halt).length_of_code
    rw [modes, opens]
    refine ⟨?_, ⟨rfl, hnum⟩, fun l' hl' => ?_⟩
    · rw [hmodes] at hlength ⊢
      simp only [List.length_cons] at hlength ⊢
      omega
    · rcases List.mem_cons.mp hl' with heq | hl'
      · obtain rfl := Mode.literal.inj heq
        exact delimited
      · exact hdel l' hl'
  | entered l outer modes modes' opens last =>
    have hparity := (modes ▸ halt).length_of_literal
    rw [modes', opens]
    refine ⟨?_, hnum, fun l' hl' => hdel l' (by simpa using hl')⟩
    rw [modes] at hlength ⊢
    simp only [List.length_cons] at hlength ⊢
    omega
  | left mode outer modes modes' opens last =>
    have hparity := (modes ▸ halt).length_of_code
    rw [modes', opens]
    refine ⟨?_, hnum, fun l' hl' => hdel l' (by rw [modes]; exact List.mem_cons_of_mem _ hl')⟩
    rw [modes] at hlength
    simp only [List.length_cons] at hlength hparity ⊢
    omega
  | closed l outer modes modes' opens live =>
    have hparity := (modes ▸ halt).length_of_literal
    rw [modes', opens]
    refine ⟨?_, hnum.tail, fun l' hl' => hdel l' (by rw [modes]; exact List.mem_cons_of_mem _ hl')⟩
    rw [modes, List.length_cons] at hlength
    rw [List.length_tail]
    omega
  | body l outer modes open_ modes' opens =>
    have hdelimited := hdel l (by simp [modes])
    simp [open_] at hdelimited

/-! ### The invariant -/

/-- Outside heredoc bodies: the stacks belong together and a property holds, now and after going
back to any checkpoint that can be gone back to. -/
structure Sound (P : Snapshot → Prop) (s : Scanner) : Prop where
  outermost : s.inBody = false
  stacked : Stacked s.snapshot
  holds : P s.snapshot
  fits : ∀ c ∈ s.live, Fits s.snapshot c
  restorable : ∀ c ∈ s.live, Stacked (s.restored c) ∧ P (s.restored c)

/-- A sound state stays so when an opener is to end on its line. -/
lemma Sound.endOnItsLine (h : Sound P s) (opener : ℕ) : Sound P (s.endOnItsLine opener) := by
  unfold Scanner.endOnItsLine
  split
  · exact h
  · exact ⟨h.outermost, h.stacked, h.holds, h.fits, h.restorable⟩

/-- A weaker property may be carried on, if it is weaker now and after going back. -/
lemma Sound.imp {Q : Snapshot → Prop} (h : Sound P s) (hpresent : P s.snapshot → Q s.snapshot)
    (hrestored : ∀ c ∈ s.live, P (s.restored c) → Q (s.restored c)) : Sound Q s where
  outermost := h.outermost
  stacked := h.stacked
  holds := hpresent h.holds
  fits := h.fits
  restorable := fun c hc => ⟨(h.restorable c hc).1, hrestored c hc (h.restorable c hc).2⟩

/-- A scanner at the beginning of a text is sound. -/
lemma sound_ofText {source : List Char} (h : P (ofText source).snapshot) :
    Sound P (ofText source) where
  outermost := rfl
  stacked :=
    { alternates := .outermost 0
      open_length := by simp [ofText, ofCursor, snapshot]
      numbered := trivial
      delimited := by simp [ofText, ofCursor, snapshot]
      fits := by simp [ofText, ofCursor, snapshot] }
  holds := h
  fits := by simp [live, ofText, ofCursor]
  restorable := by simp [live, ofText, ofCursor]

/-- Moves that let the stacks grow and take no checkpoint but of the present keep the invariant, if
they keep what it says of the present. -/
theorem Sound.of_grows (h : Sound P s) (hgrows : Grows s s') (hlive : LiveFrom s s')
    (hstacked : (∀ c ∈ s'.openLiterals, Fits s'.snapshot c) → Stacked s'.snapshot)
    (hP : P s'.snapshot) : Sound P s' := by
  have hfits : ∀ c ∈ s'.live, Fits s'.snapshot c := by
    intro c hc
    rcases hlive c hc with ⟨hold, hdepth⟩ | ⟨spaced, rfl, hcode, -, hopen⟩
    · exact (h.fits c hold).of_grows hgrows hdepth
    · exact .of_checkpoint h.stacked hcode hgrows hopen
  have hopen : ∀ c ∈ s'.openLiterals, Fits s'.snapshot c :=
    fun c hc => hfits c (mem_live.mpr (.inr hc))
  refine ⟨hgrows.inBody.trans h.outermost, hstacked hopen, hP, hfits, ?_⟩
  intro c hc
  rcases hlive c hc with ⟨hold, hdepth⟩ | ⟨spaced, rfl, -, hmodes, hopen⟩
  · rw [restored_eq_of_grows hgrows (h.fits c hold) (h.stacked.modes_le (h.fits c hold)) hdepth]
    exact h.restorable c hold
  · rw [restored_checkpoint hgrows hmodes hopen]
    exact ⟨h.stacked, h.holds⟩

/-- A sound state stays so over every move forward that keeps the property. -/
theorem Sound.forward (h : Sound P s) (hmove : Forward nested s s') (hP : P s'.snapshot) :
    Sound P s' :=
  h.of_grows hmove.grows (hmove.liveFrom h.stacked h.fits)
    (fun hfits => hmove.stacked h.stacked hfits) hP

/-- Reading content opens no literal. -/
lemma Content.openLiterals_eq (h : Content s t) : t.openLiterals = s.openLiterals := by
  obtain ⟨_, _, _, _, n, _, _, rfl⟩ := h
  unfold emitContent
  split <;> rfl

/-- Reading content changes no checkpoint. -/
lemma Content.live_eq (h : Content s t) : t.live = s.live := by
  obtain ⟨_, _, _, _, n, _, _, rfl⟩ := h
  unfold emitContent
  split <;> rfl

/-- So a sound state stays so over content. -/
theorem Sound.content (h : Sound P s) (hmove : Content s t) (hP : P t.snapshot) : Sound P t := by
  obtain ⟨l, l', outer, hmodes, hmodes', hl⟩ := hmove.modes_eq
  refine h.of_grows hmove.grows ?_ ?_ hP
  · intro c hc
    rw [hmove.live_eq] at hc
    exact .inl ⟨hc, hmove.openLiterals_eq ▸ (h.fits c hc).depth_le⟩
  · intro hfits
    have hlength : s.openLiterals.length = s.modes.length / 2 := h.stacked.open_length
    refine ⟨hmove.alternates h.stacked.alternates, ?_, ?_, ?_, hfits⟩
    · change t.openLiterals.length = t.modes.length / 2
      rw [hmove.openLiterals_eq, hlength, hmodes, hmodes', List.length_cons, List.length_cons]
    · change Numbered t.openLiterals
      rw [hmove.openLiterals_eq]
      exact h.stacked.numbered
    · intro k hk
      rw [snapshot_modes, hmodes'] at hk
      rcases List.mem_cons.mp hk with heq | hk
      · rw [Mode.literal.inj heq, hl.close]
        exact h.stacked.delimited l (by rw [snapshot_modes, hmodes]; simp)
      · exact h.stacked.delimited k
          (by rw [snapshot_modes, hmodes]; exact List.mem_cons_of_mem _ hk)

/-- What is gone back to is live, and worth it. -/
lemma mem_live_of_rewindTarget? (h : s.rewindTarget? = some c) :
    c ∈ s.live ∧ s.worthRestoring c = true := by
  unfold rewindTarget? at h
  split at h
  · rename_i d hd
    obtain rfl := Option.some.inj h
    obtain ⟨hlast, hworth⟩ := Option.filter_eq_some_iff.mp hd
    exact ⟨mem_live.mpr (.inl hlast), hworth⟩
  · have hmem := List.mem_of_find?_eq_some h
    exact ⟨mem_live.mpr (.inr (List.mem_reverse.mp hmem)), List.find?_some h⟩

/-- The checkpoints that are live after going back were live before, are those of the literals around
the opener, and restore what they did before. -/
lemma Sound.live_restore (h : Sound P s) (hc : c ∈ s.live) {x : Checkpoint}
    (hx : x ∈ (s.restore c).live) :
    x ∈ s.live ∧ x ∈ (s.restored c).openLiterals ∧ (s.restore c).restored x = s.restored x := by
  obtain ⟨hstacked, -⟩ := h.restorable c hc
  have hfits := h.fits c hc
  have hopen : x ∈ (s.restored c).openLiterals := by
    rw [mem_live] at hx
    rcases hx with hx | hx
    · simp [Scanner.restore] at hx
    · exact hx
  have hfits' := hstacked.fits x hopen
  have hdeeper : x.modes + 2 ≤ c.modes := by
    have hlt := hstacked.numbered.depth_lt hopen
    rw [show (s.restored c).openLiterals.length = c.depth from
      length_keepOldest hfits.depth_le] at hlt
    have hmodes := hfits.modes_eq
    have hmodes' := hfits'.modes_eq
    omega
  exact ⟨mem_live.mpr (.inr ((keepOldest_suffix _ _).mem hopen)), hopen,
    restored_restore hfits hfits' hdeeper (h.stacked.modes_le hfits)⟩

/-- Going back to a checkpoint that can be gone back to keeps the invariant. -/
theorem Sound.restore (h : Sound P s) (hc : c ∈ s.live) : Sound P (s.restore c) := by
  obtain ⟨hstacked, hP⟩ := h.restorable c hc
  refine ⟨h.outermost, hstacked, hP, fun x hx => ?_, fun x hx => ?_⟩
  · exact hstacked.fits x (h.live_restore hc hx).2.1
  · obtain ⟨hlive, -, hrestored⟩ := h.live_restore hc hx
    rw [hrestored]
    exact h.restorable x hlive

/-- So a sound state stays so when it goes back. -/
theorem Sound.rewind (h : Sound P s) (hmove : Rewind s s') : Sound P s' := by
  obtain ⟨c, -, -, htarget, rfl⟩ := hmove
  have hlive := (mem_live_of_rewindTarget? htarget).1
  refine (h.endOnItsLine c.opener).restore ?_
  unfold Scanner.endOnItsLine
  split <;> exact hlive

end RubyCheck.Scanner
