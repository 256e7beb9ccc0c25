import RubyCheck.Proofs.Scanner.Sound

/-!
# What a run keeps

`Kept` says of a property of snapshots what has to be shown of it, move by move; `Safe` is the
invariant of the states that a scanner passes through, of a text or of the body of a heredoc; and
`Kept.run_safe` gives what holds when reading has come to its end.  Where a body is read with another
property than the text around it, the properties of a family are kept together (`reads_run`).
`Visited` collects the states that are passed through, those of the scanners of bodies included.
-/

namespace RubyCheck.Scanner

variable {s s' t : Scanner} {nested : Scanner → Option Scanner} {P : Snapshot → Prop}

/-- A property of snapshots that the scanner keeps, whatever it does but going back. -/
structure Kept (P : Snapshot → Prop) : Prop where
  content : ∀ {s t : Scanner}, Alternates s.modes → P s.snapshot → Content s t → P t.snapshot
  /-- The scanner of a body starts with it. -/
  body : ∀ {s : Scanner} {o : HeredocOpener}, s.InCode → s.heredocOpener? = some o → P s.snapshot →
    P (s.bodyScanner o).snapshot
  forward : ∀ {nested : Scanner → Option Scanner} {s s' : Scanner},
    Alternates s.modes → P s.snapshot →
    (∀ o t, s.InCode → s.heredocOpener? = some o → nested (s.bodyScanner o) = some t →
      P t.snapshot ∧ t.modes.length = 1 ∧ t.inBody = true) →
    Forward nested s s' → P s'.snapshot
  close : ∀ {s : Scanner} {m m' : Mode} {outer : List Mode},
    s.modes = m :: m' :: outer → s.cursor.rest = [] →
    Alternates s.modes → P s.snapshot → P (s.dropMode m (m' :: outer)).snapshot

/-- A property of snapshots that the scanner keeps as long as a given reader reads the bodies of
heredocs, whatever it does but going back. -/
structure KeptBy (nested : Scanner → Option Scanner) (P : Snapshot → Prop) : Prop where
  content : ∀ {s t : Scanner}, Alternates s.modes → P s.snapshot → Content s t → P t.snapshot
  forward : ∀ {s s' : Scanner}, Alternates s.modes → P s.snapshot → Forward nested s s' →
    P s'.snapshot
  close : ∀ {s : Scanner} {m m' : Mode} {outer : List Mode},
    s.modes = m :: m' :: outer → s.cursor.rest = [] →
    Alternates s.modes → P s.snapshot → P (s.dropMode m (m' :: outer)).snapshot

/-! ### The end of the text -/

/-- Closing a mode moves nothing and forgets no opener. -/
lemma dropMode_fields (m : Mode) (outer : List Mode) :
    (s.dropMode m outer).cursor = s.cursor ∧ (s.dropMode m outer).resume = s.resume ∧
      (s.dropMode m outer).inBody = s.inBody ∧ (s.dropMode m outer).singleLine = s.singleLine := by
  cases m with
  | code d => exact ⟨rfl, rfl, rfl, rfl⟩
  | literal l =>
    simp only [dropMode, closeMode]
    split
    · unfold popLiteral
      split <;> exact ⟨rfl, rfl, rfl, rfl⟩
    · exact ⟨rfl, rfl, rfl, rfl⟩

/-- What closing everything at the end of the text leaves as it is. -/
lemma Closes.fields (h : Closes s s') :
    s'.cursor = s.cursor ∧ s'.resume = s.resume ∧ s'.inBody = s.inBody ∧
    s'.singleLine = s.singleLine ∧ s'.modes.length = 1 := by
  obtain ⟨t, -, hdeep, hforget, hcore⟩ := h
  have ht : t.modes = s.modes ∧ t.cursor = s.cursor ∧ t.resume = s.resume ∧ t.inBody = s.inBody ∧
      t.singleLine = s.singleLine := by
    rcases hforget with ⟨rfl, -⟩ | ⟨rfl, -⟩ <;> exact ⟨rfl, rfl, rfl, rfl, rfl⟩
  obtain ⟨hmodes, hcursor, hresume, hbody, hsingle⟩ := ht
  have hne : t.modes ≠ [] := by
    rw [hmodes]
    exact List.ne_nil_of_length_pos (by omega)
  have hclose := closeModes_induction
    (P := fun u => u.cursor = s.cursor ∧ u.resume = s.resume ∧ u.inBody = s.inBody ∧
      u.singleLine = s.singleLine)
    (fun u m m' outer _ hu => by
      obtain ⟨h1, h2, h3, h4⟩ := @dropMode_fields u m (m' :: outer)
      exact ⟨h1.trans hu.1, h2.trans hu.2.1, h3.trans hu.2.2.1, h4.trans hu.2.2.2⟩)
    hne ⟨hcursor, hresume, hbody, hsingle⟩
  rw [hmodes] at hclose
  rw [cursor_eq_of_core hcore, resume_eq_of_core hcore, inBody_eq_of_core hcore,
    singleLine_eq_of_core hcore, modes_eq_of_core hcore]
  exact ⟨hclose.1.1, hclose.1.2.1, hclose.1.2.2.1, hclose.1.2.2.2, hclose.2⟩

/-- What holds when the text has run out and is kept by dropping the innermost mode holds when
everything is closed. -/
lemma Closes.holds {Q : Scanner → Prop} (h : Closes s s')
    (hcore : ∀ {u v}, u.core = v.core → Q v → Q u)
    (hdrop : ∀ u m m' outer, u.modes = m :: m' :: outer → u.cursor.rest = [] → Q u →
      Q (u.dropMode m (m' :: outer)))
    (hstart : ∀ t, t = s ∧ s.inBody = true ∨ t = { s with lastMultiline := none } → Q t) :
    Q s' := by
  obtain ⟨t, hstop, hdeep, hforget, hcore'⟩ := h
  have hQ : Q t := hstart t (hforget.imp_right And.left)
  have ht : t.modes = s.modes ∧ t.cursor.rest = [] := by
    rcases hforget with ⟨rfl, -⟩ | ⟨rfl, -⟩ <;> exact ⟨rfl, hstop⟩
  have hne : t.modes ≠ [] := by
    rw [ht.1]
    exact List.ne_nil_of_length_pos (by omega)
  have hclose := closeModes_induction (P := fun u => u.cursor.rest = [] ∧ Q u)
    (fun u m m' outer hmodes hu =>
      ⟨(congrArg Cursor.rest (dropMode_fields m _).1).trans hu.1,
        hdrop u m m' outer hmodes hu.1 hu.2⟩)
    hne ⟨ht.2, hQ⟩
  rw [ht.1] at hclose
  exact hcore hcore' hclose.1.2

/-- Dropping the innermost mode keeps code and literals alternating. -/
lemma alternates_dropMode {m m' : Mode} {outer : List Mode} (hmodes : s.modes = m :: m' :: outer)
    (halt : Alternates s.modes) : Alternates (s.dropMode m (m' :: outer)).modes :=
  (hmodes ▸ halt).tail (List.cons_ne_nil _ _)

/-- What is kept by every move is kept when the text runs out. -/
theorem KeptBy.closes (hkept : KeptBy nested P) (halt : Alternates s.modes) (h : P s.snapshot)
    (hmove : Closes s s') : Alternates s'.modes ∧ P s'.snapshot := by
  refine hmove.holds (Q := fun u => Alternates u.modes ∧ P u.snapshot) ?_ ?_ ?_
  · intro u v hcore hv
    rwa [modes_eq_of_core hcore, snapshot_eq_of_core hcore]
  · intro u m m' outer hmodes hrest hu
    exact ⟨alternates_dropMode hmodes hu.1, hkept.close hmodes hrest hu.1 hu.2⟩
  · rintro t (⟨rfl, -⟩ | rfl) <;> exact ⟨halt, h⟩

/-- Dropping the innermost mode keeps the stacks of a snapshot together. -/
lemma Stacked.dropMode {m m' : Mode} {outer : List Mode} (hs : Stacked s.snapshot)
    (hmodes : s.modes = m :: m' :: outer) : Stacked (s.dropMode m (m' :: outer)).snapshot := by
  have halt : Alternates s.modes := hs.alternates
  have hlength : s.openLiterals.length = s.modes.length / 2 := hs.open_length
  have hnum : Numbered s.openLiterals := hs.numbered
  have hdel : ∀ l, .literal l ∈ m' :: outer → l.close.isSome = true := fun l hl =>
    hs.delimited l (by
      rw [snapshot_modes, hmodes]
      exact List.mem_cons_of_mem _ hl)
  have halt' := alternates_dropMode hmodes halt
  rw [hmodes, List.length_cons] at hlength
  cases m with
  | code d =>
    have hparity := (hmodes ▸ halt).length_of_code
    rw [snapshot_dropMode_code]
    refine ⟨halt', ?_, hnum, hdel, fun c hc => ?_⟩
    · change s.openLiterals.length = (m' :: outer).length / 2
      rw [hlength]
      omega
    · have hfits := hs.fits c hc
      exact { hfits with tokens_le := hfits.tokens_le.trans (Nat.le_succ _) }
  | literal l =>
    have hparity := (hmodes ▸ halt).length_of_literal
    have hclose := hs.delimited l (by
      rw [snapshot_modes, hmodes]
      exact List.mem_cons_self)
    rw [snapshot_dropMode_literal hclose]
    refine ⟨halt', ?_, hnum.tail, hdel, fun c hc => ?_⟩
    · change s.openLiterals.tail.length = (m' :: outer).length / 2
      rw [List.length_tail, hlength]
      omega
    · have hfits := hs.fits c (List.mem_of_mem_tail hc)
      have hdepth : c.depth < s.openLiterals.tail.length := hnum.tail.depth_lt hc
      exact { hfits with
        tokens_le := hfits.tokens_le.trans (Nat.le_succ _)
        faults_le := hfits.faults_le.trans (Nat.le_succ _)
        depth_le := hdepth.le }

/-- Dropping the innermost mode brings no literal back to memory. -/
lemma lastMultiline_dropMode {m : Mode} {outer : List Mode} (h : s.lastMultiline = none) :
    (s.dropMode m outer).lastMultiline = none := by
  cases m with
  | code d => exact h
  | literal l =>
    simp only [Scanner.dropMode, closeMode]
    split
    · unfold popLiteral
      split <;> simp [complain, emitEmpty, h]
    · exact h

/-- Closing everything at the end of the text leaves no checkpoint. -/
lemma Sound.live_of_closes (h : Sound P s) (hmove : Closes s s') :
    Stacked s'.snapshot ∧ s'.live = [] := by
  obtain ⟨hlast, hstacked⟩ : s'.lastMultiline = none ∧ Stacked s'.snapshot := by
    refine hmove.holds (Q := fun u => u.lastMultiline = none ∧ Stacked u.snapshot) ?_ ?_ ?_
    · intro u v hcore hv
      rwa [lastMultiline_eq_of_core hcore, snapshot_eq_of_core hcore]
    · intro u m m' outer hmodes _ hu
      exact ⟨lastMultiline_dropMode hu.1, hu.2.dropMode hmodes⟩
    · rintro t (⟨rfl, hinBody⟩ | rfl)
      · simp [h.outermost] at hinBody
      · exact ⟨rfl, h.stacked⟩
  have hopen : s'.openLiterals.length = s'.modes.length / 2 := hstacked.open_length
  rw [hmove.fields.2.2.2.2] at hopen
  refine ⟨hstacked, ?_⟩
  rw [live, hlast, List.eq_nil_of_length_eq_zero hopen]
  rfl

/-- When everything is closed nothing is asked but what holds of the present. -/
theorem Sound.of_closes {Q : Snapshot → Prop} (h : Sound P s) (hmove : Closes s s')
    (hholds : Q s'.snapshot) : Sound Q s' := by
  obtain ⟨hstacked, hnone⟩ := h.live_of_closes hmove
  have houtermost := hmove.fields.2.2.1.trans h.outermost
  exact ⟨houtermost, hstacked, hholds, by simp [hnone], by simp [hnone]⟩

/-- Closing everything at the end of the text keeps the invariant. -/
theorem Sound.closes (hkept : KeptBy nested P) (h : Sound P s) (hmove : Closes s s') :
    Sound P s' :=
  h.of_closes hmove (hkept.closes h.stacked.alternates h.holds hmove).2

/-! ### Steps -/

/-- The invariant of a scanner at work: of a text, whose openers may be gone back to, or of the body
of a heredoc, where nothing is gone back to. -/
inductive Safe (P : Snapshot → Prop) (s : Scanner) : Prop
  | outer (sound : Sound P s)
  | body (inBody : s.inBody = true) (alternates : Alternates s.modes) (holds : P s.snapshot)

/-- In a safe state code and literals alternate. -/
lemma Safe.alternates (h : Safe P s) : Alternates s.modes := by
  cases h with
  | outer sound => exact sound.stacked.alternates
  | body _ alternates _ => exact alternates

/-- In a safe state the property holds of the snapshot. -/
lemma Safe.holds (h : Safe P s) : P s.snapshot := by
  cases h with
  | outer sound => exact sound.holds
  | body _ _ holds => exact holds

/-- The scanner of a body is safe if it starts with what is to be kept. -/
lemma Safe.ofBody {o : HeredocOpener} (h : P (s.bodyScanner o).snapshot) : Safe P (s.bodyScanner o) :=
  .body rfl (.literal _ 0 [] (.outermost 0)) h

/-- The scanner of a heredoc's body is safe. -/
lemma Kept.safe_bodyScanner {o : HeredocOpener} (hkept : Kept P) (h : Safe P s) (hcode : s.InCode)
    (ho : s.heredocOpener? = some o) : Safe P (s.bodyScanner o) :=
  .ofBody (hkept.body hcode ho h.holds)

/-- A reader of bodies that keeps a property: what it returns is safe, and everything is closed
there. -/
def Reads (P : Snapshot → Prop) (nested : Scanner → Option Scanner) : Prop :=
  ∀ s t, nested s = some t → Safe P s →
    Safe P t ∧ t.inBody = s.inBody ∧ t.modes.length = 1 ∧ t.AtEnd

/-- What the scanner keeps is kept by every reader of bodies that keeps it. -/
theorem Kept.keptBy (hkept : Kept P) (hnested : Reads P nested) : KeptBy nested P where
  content := hkept.content
  forward halt h hmove := by
    refine hkept.forward halt h (fun o t hcode ho ht => ?_) hmove
    obtain ⟨hsafe, hbody, hlength, -⟩ := hnested _ _ ht (.ofBody (hkept.body hcode ho h))
    exact ⟨hsafe.holds, hlength, hbody⟩
  close := hkept.close

/-- Reading no body at all keeps everything. -/
lemma Kept.keptBy_none (hkept : Kept P) : KeptBy (fun _ => none) P :=
  hkept.keptBy fun _ _ hread => by cases hread

/-- A safe state stays so over content, for a given reader of bodies. -/
lemma KeptBy.safe_content (hkept : KeptBy nested P) (h : Safe P s) (hmove : Content s t) :
    Safe P t := by
  have hP := hkept.content h.alternates h.holds hmove
  cases h with
  | outer sound => exact .outer (sound.content hmove hP)
  | body inBody alternates holds =>
    exact .body (hmove.grows.inBody.trans inBody) (hmove.alternates alternates) hP

/-- A safe state stays so over every move forward, for a given reader of bodies. -/
lemma KeptBy.safe_forward (hkept : KeptBy nested P) (h : Safe P s) (hmove : Forward nested s s') :
    Safe P s' := by
  have hP := hkept.forward h.alternates h.holds hmove
  cases h with
  | outer sound => exact .outer (sound.forward hmove hP)
  | body inBody alternates holds =>
    exact .body (hmove.grows.inBody.trans inBody) (hmove.alternates alternates) hP

/-- A safe state stays so when it goes back. -/
lemma Safe.rewind (h : Safe P s) (hmove : Rewind s s') : Safe P s' := by
  cases h with
  | outer sound => exact .outer (sound.rewind hmove)
  | body inBody _ _ =>
    obtain ⟨-, houtermost, -⟩ := hmove
    simp [inBody] at houtermost

/-- A safe state stays so when the text runs out, for a given reader of bodies. -/
lemma KeptBy.safe_closes (hkept : KeptBy nested P) (h : Safe P s) (hmove : Closes s s') :
    Safe P s' := by
  cases h with
  | outer sound => exact .outer (sound.closes hkept hmove)
  | body inBody alternates holds =>
    obtain ⟨halt, hP⟩ := hkept.closes alternates holds hmove
    exact .body (hmove.fields.2.2.1.trans inBody) halt hP

/-- Going back stays in the body, or out of it. -/
lemma Rewind.inBody (h : Rewind s s') : s'.inBody = s.inBody := by
  obtain ⟨c, houtermost, -, -, rfl⟩ := h
  change (s.endOnItsLine c.opener).snapshot.inBody = _
  rw [snapshot_endOnItsLine]
  rfl

/-- A step that is not the last one keeps the invariant. -/
theorem KeptBy.step_more (hkept : KeptBy nested P) (h : Safe P s)
    (hstep : s.step nested = some (.more s')) : Safe P s' ∧ s'.inBody = s.inBody := by
  obtain ⟨t, ⟨rfl | hcontent, hforward | hrewind⟩ | ⟨hcontent, hcloses⟩⟩ :=
    Scanner.step_more h.alternates hstep
  · exact ⟨hkept.safe_forward h hforward, hforward.grows.inBody⟩
  · exact ⟨h.rewind hrewind, hrewind.inBody⟩
  · exact ⟨hkept.safe_forward (hkept.safe_content h hcontent) hforward,
      hforward.grows.inBody.trans hcontent.grows.inBody⟩
  · exact ⟨(hkept.safe_content h hcontent).rewind hrewind,
      hrewind.inBody.trans hcontent.grows.inBody⟩
  · exact ⟨hkept.safe_closes (hkept.safe_content h hcontent) hcloses,
      hcloses.fields.2.2.1.trans hcontent.grows.inBody⟩

/-- The last step keeps the invariant, and everything is closed and read. -/
theorem KeptBy.step_done (hkept : KeptBy nested P) (h : Safe P s)
    (hstep : s.step nested = some (.done s')) :
    Safe P s' ∧ s'.inBody = s.inBody ∧ s'.modes.length = 1 ∧ s'.AtEnd := by
  rcases Scanner.step_done h.alternates hstep with ⟨rfl, hlength, hend⟩ | hcloses
  · exact ⟨h, rfl, hlength, hend⟩
  · obtain ⟨hcursor, -, hbody, -, hlength⟩ := hcloses.fields
    obtain ⟨-, hstop, -⟩ := id hcloses
    exact ⟨hkept.safe_closes h hcloses, hbody, hlength, .inl (by rw [hcursor, hstop])⟩

section Kept

variable (hkept : Kept P)

include hkept

/-- A safe state stays so over content. -/
lemma Kept.safe_content (h : Safe P s) (hmove : Content s t) : Safe P t :=
  hkept.keptBy_none.safe_content h hmove

/-- A safe state stays so over every move forward, if the reader of bodies keeps the property. -/
lemma Kept.safe_forward (hnested : Reads P nested) (h : Safe P s) (hmove : Forward nested s s') :
    Safe P s' :=
  (hkept.keptBy hnested).safe_forward h hmove

/-- A safe state stays so when the text runs out. -/
lemma Kept.safe_closes (h : Safe P s) (hmove : Closes s s') : Safe P s' :=
  hkept.keptBy_none.safe_closes h hmove

/-- A step of such a scanner is safe again, and in the same body. -/
theorem Kept.step_more (hnested : Reads P nested) (h : Safe P s)
    (hstep : s.step nested = some (.more s')) : Safe P s' ∧ s'.inBody = s.inBody :=
  (hkept.keptBy hnested).step_more h hstep

end Kept

/-! ### Runs -/

/-- Runs keep a family of properties if it is kept by every reader of bodies that keeps all of it, and
they end where everything is closed and read. -/
theorem reads_run {ι : Type} {P : ι → Snapshot → Prop}
    (hkept : ∀ nested, (∀ i, Reads (P i) nested) → ∀ i, KeptBy nested (P i)) (fuel : ℕ) :
    ∀ i, Reads (P i) (run fuel) := by
  induction fuel with
  | zero =>
    intro i s t hrun
    simp [run] at hrun
  | succ fuel ih =>
    intro i s t hrun h
    have hfuel := hkept (run fuel) ih i
    rw [run] at hrun
    split at hrun
    · simp at hrun
    · rename_i s' hstep
      obtain rfl := Option.some.inj hrun
      exact hfuel.step_done h hstep
    · rename_i s' hstep
      obtain ⟨hsafe, hbody⟩ := hfuel.step_more h hstep
      rw [← hbody]
      exact ih i s' t hrun hsafe

/-- Runs keep what the scanner keeps, and end where everything is closed and read. -/
theorem Kept.run_safe (hkept : Kept P) (fuel : ℕ) : Reads P (run fuel) :=
  reads_run (fun _ hnested _ => hkept.keptBy (hnested ())) fuel ()

/-! ### The number of steps allowed -/

section Fuel

variable {nested' : Scanner → Option Scanner} {spaced : Bool} {c : Char}

/-- A reader that gives results where another one does gives the same heredoc. -/
lemma scanHeredoc_mono (h : ∀ u v, nested u = some v → nested' u = some v) {o : HeredocOpener}
    (hs : s.scanHeredoc nested o spaced = some s') : s.scanHeredoc nested' o spaced = some s' := by
  rw [scanHeredoc_eq_map] at hs ⊢
  obtain ⟨body, hbody, rfl⟩ := Option.map_eq_some_iff.mp hs
  rw [h _ _ hbody]
  rfl

/-- A reader that gives results where another one does gives the same token at a character. -/
lemma scanTokenAt_mono (h : ∀ u v, nested u = some v → nested' u = some v)
    (hs : s.scanTokenAt nested spaced c = some s') : s.scanTokenAt nested' spaced c = some s' := by
  revert hs
  unfold scanTokenAt
  split
  · exact id
  split
  · exact id
  split
  case h_10 =>
    split
    · exact scanHeredoc_mono h
    · exact id
  all_goals exact id

/-- A reader that gives results where another one does gives the same token. -/
lemma scanToken_mono (h : ∀ u v, nested u = some v → nested' u = some v)
    (hs : s.scanToken nested c = some s') : s.scanToken nested' c = some s' := by
  revert hs
  unfold scanToken
  dsimp only
  split
  · exact id
  · exact scanTokenAt_mono h

/-- A reader of bodies that reads more makes no step differ. -/
theorem step_mono {r : Step} (h : ∀ u v, nested u = some v → nested' u = some v)
    (hs : s.step nested = some r) : s.step nested' = some r := by
  revert hs
  unfold step
  split
  · exact id
  split
  · exact id
  split
  · exact id
  split
  · exact id
  · intro hs
    obtain ⟨t, ht, rfl⟩ := Option.map_eq_some_iff.mp hs
    rw [scanToken_mono h ht]
    rfl

/-- One more step allowed changes no result. -/
lemma run_succ {fuel : ℕ} (h : run fuel s = some t) : run (fuel + 1) s = some t := by
  induction fuel generalizing s t with
  | zero => simp [run] at h
  | succ fuel ih =>
    rw [run] at h ⊢
    split at h
    · simp at h
    · rename_i u hstep
      rw [step_mono (fun _ _ => ih) hstep]
      exact h
    · rename_i u hstep
      rw [step_mono (fun _ _ => ih) hstep]
      exact ih h

/-- A run that comes to its end does so however many more steps are allowed. -/
theorem run_mono {fuel fuel' : ℕ} (hle : fuel ≤ fuel') (h : run fuel s = some t) :
    run fuel' s = some t := by
  induction fuel', hle using Nat.le_induction with
  | base => exact h
  | succ _ _ ih => exact run_succ ih

end Fuel

/-! ### The states that are passed through -/

/-- One turn of a scanner: a step after which there is more to read. -/
def Turn (s s' : Scanner) : Prop := ∃ fuel, s.step (run fuel) = some (.more s')

/-- A scanner whose run ends passes through what the run passes through. -/
lemma Turn.run (hturn : Turn s s') {fuel : ℕ} (hrun : run fuel s = some t) :
    ∃ fuel, Scanner.run fuel s' = some t := by
  obtain ⟨fuel', hstep⟩ := hturn
  cases fuel with
  | zero => simp [Scanner.run] at hrun
  | succ fuel =>
    have hmore : s.step (Scanner.run (max fuel fuel')) = some (.more s') :=
      step_mono (fun _ _ => run_mono (le_max_right _ _)) hstep
    have hlong := run_mono (Nat.succ_le_succ (le_max_left fuel fuel')) hrun
    rw [Scanner.run, hmore] at hlong
    exact ⟨_, hlong⟩

/-- The states that are passed through in reading a text, also inside the bodies of its heredocs. -/
inductive Visited (source : List Char) : Scanner → Prop
  | start : Visited source (ofText source)
  | turn {s s' : Scanner} (h : Visited source s) (hturn : Turn s s') : Visited source s'
  | body {s : Scanner} {o : HeredocOpener} (h : Visited source s) (hcode : s.InCode)
      (ho : s.heredocOpener? = some o) : Visited source (s.bodyScanner o)

/-- Every state that is passed through is safe. -/
theorem Kept.safe_of_visited {source : List Char} (hkept : Kept P)
    (hstart : P (ofText source).snapshot) (h : Visited source s) : Safe P s := by
  induction h with
  | start => exact .outer (sound_ofText hstart)
  | turn _ hturn ih =>
    obtain ⟨fuel, hstep⟩ := hturn
    exact (hkept.step_more (hkept.run_safe fuel) ih hstep).1
  | body _ hcode ho ih => exact hkept.safe_bodyScanner ih hcode ho

end RubyCheck.Scanner
