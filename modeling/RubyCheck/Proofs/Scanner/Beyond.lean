import RubyCheck.Proofs.Scanner.Termination

/-!
# What is found behind a place

Where nothing is open and nothing is left to go back to, the scanner never returns to what it has
read: the tokens it has stay, and whatever it finds from then on, also in the bodies of heredocs that
follow, stands at or behind that place (`beyond_of_run`).
-/

namespace RubyCheck.Scanner

variable {source : List Char} {place : ℕ} {older : List Token} {s s' t : Scanner} {r r' : Snapshot}
  {u : Token} {nested : Scanner → Option Scanner}

/-! ### The invariant -/

/-- Whatever was found besides some older tokens stands at or behind a place, and so does whatever is
open.  The scanner of a body begins without tokens. -/
structure Beyond (place : ℕ) (older : List Token) (r : Snapshot) : Prop where
  cursor : place ≤ r.cursor.position.byte
  resume : ∀ c ∈ r.resume, place ≤ c.position.byte
  tokens : ∃ newer, r.tokens = newer ++ (if r.inBody then [] else older) ∧
    ∀ u ∈ newer, place ≤ u.span.start.byte
  faults : ∀ f ∈ r.faults, place ≤ f.span.start.byte
  openers : ∀ l, .literal l ∈ r.modes → place ≤ l.opener.start.byte

namespace Beyond

/-- One more token. -/
lemma push (h : Beyond place older r) (hu : place ≤ u.span.start.byte) :
    ∃ newer, u :: r.tokens = newer ++ (if r.inBody then [] else older) ∧
      ∀ u ∈ newer, place ≤ u.span.start.byte := by
  obtain ⟨newer, htokens, hnewer⟩ := h.tokens
  exact ⟨u :: newer, by rw [htokens, List.cons_append], List.forall_mem_cons.mpr ⟨hu, hnewer⟩⟩

lemma innermost {l : OpenLiteral} {outer : List Mode} (h : Beyond place older s.snapshot)
    (hmodes : s.modes = .literal l :: outer) : place ≤ l.opener.start.byte := by
  refine h.openers l (show .literal l ∈ s.modes from ?_)
  rw [hmodes]
  exact List.mem_cons_self

lemma outer {m : Mode} {outer : List Mode} (h : Beyond place older s.snapshot)
    (hmodes : s.modes = m :: outer) : ∀ l, .literal l ∈ outer → place ≤ l.opener.start.byte := by
  intro l hl
  refine h.openers l (show .literal l ∈ s.modes from ?_)
  rw [hmodes]
  exact List.mem_cons_of_mem _ hl

lemma advanceBy (h : Beyond place older s.snapshot) (n : ℕ) :
    place ≤ (Cursor.advanceBy n s.cursor).position.byte :=
  Nat.le_trans h.cursor (Cursor.byte_le_byte_advanceBy n s.cursor)

lemma bodyStart (h : Beyond place older s.snapshot) (o : HeredocOpener) :
    place ≤ (s.bodyStart o).position.byte := by
  unfold Scanner.bodyStart
  cases hresume : s.resume with
  | none =>
    rw [Option.getD_none, Cursor.nextLine_eq_advanceBy]
    exact Nat.le_trans (h.advanceBy _) (Cursor.byte_le_byte_advanceBy _ _)
  | some c => exact h.resume c hresume

/-- The scanner of a body starts behind the place. -/
lemma bodyScanner (h : Beyond place older s.snapshot) (o : HeredocOpener) :
    Beyond place older (s.bodyScanner o).snapshot where
  cursor := h.bodyStart o
  resume := by simp [Scanner.bodyScanner, ofBody, ofCursor, snapshot]
  tokens := ⟨[], by simp [Scanner.bodyScanner, ofBody, ofCursor, snapshot], by simp⟩
  faults := by simp [Scanner.bodyScanner, ofBody, ofCursor, snapshot]
  openers := by
    intro l hl
    have hopener : l.opener = s.spanOf o.length := by
      simp only [Scanner.bodyScanner, ofBody, ofCursor, snapshot, List.mem_cons,
        List.not_mem_nil, or_false, Mode.literal.injEq, reduceCtorEq] at hl
      rw [hl]
    rw [hopener]
    exact h.cursor

/-- What a body adds to the scanner around it stands behind the place. -/
lemma spliceBody {body : Scanner} (h : Beyond place older s.snapshot)
    (hbody : Beyond place older body.snapshot) (hinBody : body.inBody = true) (o : HeredocOpener)
    (spaced : Bool) : Beyond place older (s.spliceBody o spaced body).snapshot where
  cursor := h.advanceBy o.length
  resume := by
    intro c hc
    obtain rfl := Option.some.inj hc
    exact Nat.le_trans (h.bodyStart o) (Cursor.byte_le_byte_advanceBy _ _)
  tokens := by
    obtain ⟨newer, htokens, hnewer⟩ := h.push (u := ⟨.stringBegin, s.textOf o.length,
      s.spanOf o.length, spaced, false⟩) h.cursor
    obtain ⟨inner, hinner, hbehind⟩ := hbody.tokens
    rw [snapshot_inBody, hinBody, if_pos rfl, List.append_nil] at hinner
    refine ⟨.empty .stringEnd (s.spanOf o.length).stop :: (inner ++ newer), ?_, ?_⟩
    · change _ :: (body.tokens ++ _) = _
      rw [← snapshot_tokens body, hinner, List.cons_append, List.append_assoc]
      exact congrArg (fun ts => _ :: (inner ++ ts)) htokens
    · refine List.forall_mem_cons.mpr ⟨h.advanceBy o.length, ?_⟩
      exact List.forall_mem_append.mpr ⟨hbehind, hnewer⟩
  faults := by
    refine List.forall_mem_append.mpr ⟨hbody.faults, List.forall_mem_append.mpr ⟨?_, h.faults⟩⟩
    intro f hf
    rw [eq_of_mem_openerFaults hf]
    exact h.cursor
  openers := h.openers

lemma content (h : Beyond place older s.snapshot) (hmove : Content s t) :
    Beyond place older t.snapshot := by
  obtain ⟨l, l', outer, stop, n, hmodes, hends, rfl⟩ := hmove
  obtain ⟨-, -, -, -, hl⟩ := contentEnd_spec hends
  have hopeners : ∀ k, .literal k ∈ Mode.literal l' :: outer → place ≤ k.opener.start.byte := by
    intro k hk
    rcases List.mem_cons.mp hk with heq | hk
    · obtain rfl := Mode.literal.inj heq
      rw [hl.opener]
      exact h.innermost hmodes
    · exact h.outer hmodes k hk
  rcases snapshot_emitContent (s := { s with modes := .literal l' :: outer }) n with
    ⟨hsnap, -⟩ | ⟨-, hsnap⟩
  · rw [hsnap]
    exact { h with openers := hopeners }
  · rw [hsnap]
    exact { h with cursor := h.advanceBy n, tokens := h.push h.cursor, openers := hopeners }

/-- A move forward finds nothing in front of the place. -/
theorem forward (h : Beyond place older s.snapshot)
    (hnested : ∀ o t, s.InCode → s.heredocOpener? = some o → nested (s.bodyScanner o) = some t →
      Beyond place older t.snapshot ∧ t.inBody = true)
    (hmove : Forward nested s s') : Beyond place older s'.snapshot := by
  cases hmove with
  | blank n code piece core_eq | document n code top word ended core_eq =>
    rw [snapshot_eq_of_core core_eq]
    exact { h with cursor := h.advanceBy n }
  | stray cause n code pos ahead core_eq =>
    rw [snapshot_eq_of_core core_eq]
    exact { h with
      cursor := h.advanceBy n
      faults := List.forall_mem_cons.mpr ⟨h.cursor, h.faults⟩ }
  | token ms kind n spaced code layers plain pos ahead core_eq =>
    rw [snapshot_eq_of_core core_eq]
    exact { h with
      cursor := h.advanceBy n
      tokens := h.push h.cursor
      openers := fun l hl => h.openers l (layers.mem_literal hl) }
  | faulty cause k kind n spaced code plain pos ahead core_eq =>
    rw [snapshot_eq_of_core core_eq]
    exact { h with
      cursor := h.advanceBy n
      tokens := h.push h.cursor
      faults := List.forall_mem_cons.mpr ⟨h.cursor, h.faults⟩ }
  | jump t resume rest code lineBreak read pending core_eq =>
    have hread : Beyond place older t.snapshot := by
      rcases read with rfl | rfl
      · exact { h with cursor := h.advanceBy 1, tokens := h.push h.cursor }
      · exact { h with cursor := h.advanceBy 1 }
    rw [snapshot_eq_of_core core_eq]
    exact { hread with
      cursor := h.resume resume pending
      resume := by simp [snapshot] }
  | heredoc o spaced body code opener read core_eq =>
    obtain ⟨hbody, hinBody⟩ := hnested o body code opener read
    rw [snapshot_eq_of_core core_eq]
    exact h.spliceBody hbody hinBody o spaced
  | begin o spaced code pos ahead core_eq =>
    rw [snapshot_eq_of_core core_eq, snapshot_beginLiteral]
    refine { h with cursor := h.advanceBy o.width, tokens := h.push h.cursor, openers := ?_ }
    intro l hl
    rcases List.mem_cons.mp hl with heq | hl
    · obtain rfl := Mode.literal.inj heq
      exact h.cursor
    · exact h.openers l hl
  | endInterpolation spaced mode outer rest modes brace core_eq =>
    rw [snapshot_eq_of_core core_eq]
    exact { h with
      cursor := h.advanceBy 1
      tokens := h.push h.cursor
      openers := h.outer modes }
  | beginInterpolation l outer modes stop core_eq =>
    rw [snapshot_eq_of_core core_eq]
    refine { h with cursor := h.advanceBy 2, tokens := h.push h.cursor, openers := ?_ }
    intro k hk
    rcases List.mem_cons.mp hk with heq | hk
    · simp at heq
    · exact h.openers k hk
  | abandon l outer modes stop core_eq =>
    rw [snapshot_eq_of_core core_eq, snapshot_abandonLiteral]
    exact { h with
      tokens := h.push h.cursor
      faults := List.forall_mem_cons.mpr ⟨h.innermost modes, h.faults⟩
      openers := h.outer modes }
  | close l outer modes stop core_eq =>
    rw [snapshot_eq_of_core core_eq, snapshot_closeLiteral]
    exact { h with
      cursor := h.advanceBy _
      tokens := h.push h.cursor
      openers := h.outer modes }
  | endBody l outer modes open_ stop core_eq =>
    rw [snapshot_eq_of_core core_eq]
    exact { h with openers := h.outer modes }

/-- Closing the innermost mode at the end of the text finds nothing in front of the place. -/
lemma dropMode {m : Mode} {outer : List Mode} (h : Beyond place older s.snapshot)
    (hmodes : s.modes = m :: outer) : Beyond place older (s.dropMode m outer).snapshot := by
  cases m with
  | code d =>
    rw [snapshot_dropMode_code]
    exact { h with tokens := h.push h.cursor, openers := h.outer hmodes }
  | literal l =>
    cases hclose : l.close with
    | none =>
      rw [snapshot_dropMode_body hclose]
      exact { h with openers := h.outer hmodes }
    | some c =>
      rw [snapshot_dropMode_literal (by simp [hclose])]
      exact { h with
        tokens := h.push h.cursor
        faults := List.forall_mem_cons.mpr ⟨h.innermost hmodes, h.faults⟩
        openers := h.outer hmodes }

end Beyond

theorem beyond_kept (place : ℕ) (older : List Token) : Kept (Beyond place older) where
  content _ h hmove := h.content hmove
  body _ _ h := h.bodyScanner _
  forward _ h hnested hmove := h.forward (fun o t hcode ho ht =>
    ⟨(hnested o t hcode ho ht).1, (hnested o t hcode ho ht).2.2⟩) hmove
  close hmodes _ _ h := h.dropMode hmodes

/-! ### Runs -/

/-- Nothing is open in the text, nothing can be gone back to, and no body of a heredoc is pending. -/
structure Clear (s : Scanner) : Prop where
  outermost : s.inBody = false
  modes : ∃ d, s.modes = [.code d]
  live : s.live = []
  resume : s.resume = none

/-- From there on whatever is found stands behind the place, and what was found before stays. -/
theorem beyond_of_run {fuel : ℕ} (h : Visited source s) (hclear : s.Clear)
    (hfaults : s.faults = []) (hrun : run fuel s = some t) :
    Beyond s.cursor.position.byte s.tokens t.snapshot ∧ t.inBody = false := by
  obtain ⟨d, hmodes⟩ := hclear.modes
  have hstart : Beyond s.cursor.position.byte s.tokens s.snapshot :=
    { cursor := le_rfl
      resume := by simp [hclear.resume]
      tokens := ⟨[], by simp [hclear.outermost], by simp⟩
      faults := by simp [hfaults]
      openers := by simp [hmodes] }
  have hsound : Sound (Beyond s.cursor.position.byte s.tokens) s := by
    cases h.safe with
    | outer sound =>
      exact ⟨hclear.outermost, sound.stacked, hstart, by simp [hclear.live],
        by simp [hclear.live]⟩
    | body inBody =>
      rw [hclear.outermost] at inBody
      exact absurd inBody Bool.false_ne_true
  obtain ⟨hsafe, hinBody, -, -⟩ := (beyond_kept _ _).run_safe fuel s t hrun (.outer hsound)
  exact ⟨hsafe.holds, hinBody.trans hclear.outermost⟩

/-! ### Turns -/

/-- Several turns. -/
def Leads : Scanner → Scanner → Prop := Relation.ReflTransGen Turn

namespace Leads

lemma visited (h : Leads s s') (hs : Visited source s) : Visited source s' := by
  induction h with
  | refl => exact hs
  | tail _ hturn ih => exact ih.turn hturn

lemma run {fuel : ℕ} (h : Leads s s') (hrun : Scanner.run fuel s = some t) :
    ∃ fuel', Scanner.run fuel' s' = some t := by
  induction h with
  | refl => exact ⟨fuel, hrun⟩
  | tail _ hturn ih =>
    obtain ⟨fuel', hrun'⟩ := ih
    exact hturn.run hrun'

end Leads

end RubyCheck.Scanner
