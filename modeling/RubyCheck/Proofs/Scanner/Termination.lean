import Mathlib.Data.Finset.Card
import Mathlib.Tactic.Ring
import RubyCheck.Proofs.Scanner.Place

/-!
# Reading comes to its end

The cursor moves forward but in two kinds of turns: it goes back to an opener, whose literal then
ends on its line from now on, and it jumps to where the bodies of heredocs end (`back_or_jump`).  No
opener is gone back to twice, because their offsets are only ever added to
(`singleLine_suffix_of_step`), and there are no more offsets than positions of the text; between two
times of going back, each jump uses up a heredoc whose body ended later than the one before.
`effort` counts both, and every turn lowers it (`effort_lt_of_step`), so the steps that are allowed
suffice (`run_isSome`).
-/

namespace RubyCheck.Scanner

variable {source : List Char} {s s' t : Scanner} {nested : Scanner → Option Scanner}

/-! ### Where a move leads -/

/-- How a move forward changes the cursor and the place to jump to. -/
inductive Stride (s s' : Scanner) : Prop
  | on (n : ℕ) (pos : 0 < n) (ahead : s.cursor.rest ≠ [])
      (cursor : s'.cursor = .advanceBy n s.cursor)
      (resume : s'.resume = s.resume)
  | out (l : OpenLiteral) (outer : List Mode) (modes : s.modes = .literal l :: outer)
      (modes' : s'.modes = outer)
      (cursor : s'.cursor = s.cursor) (resume : s'.resume = s.resume)
  | jump (rest : List Char) (code : s.InCode) (lineBreak : s.cursor.rest = '\n' :: rest)
      (pending : s.resume = some s'.cursor) (resume : s'.resume = none) (modes : s'.modes = s.modes)
  | heredoc (o : HeredocOpener) (opener : s.heredocOpener? = some o)
      (cursor : s'.cursor = .advanceBy o.length s.cursor)
      (resume : s'.resume = some (.advanceBy (s.bodyRange o).whole (s.bodyStart o)))

/-- A stride along the text, from what the snapshots say. -/
lemma Stride.on_of_snapshot {r : Snapshot} {n : ℕ} (h : s'.snapshot = r) (pos : 0 < n)
    (ahead : s.cursor.rest ≠ []) (cursor : r.cursor = .advanceBy n s.cursor)
    (resume : r.resume = s.resume) : Stride s s' :=
  .on n pos ahead ((congrArg Snapshot.cursor h).trans cursor)
    ((congrArg Snapshot.resume h).trans resume)

/-- Closing a literal is a stride out of it, at the same place. -/
lemma Stride.out_of_snapshot {r : Snapshot} {l : OpenLiteral} {outer : List Mode}
    (h : s'.snapshot = r) (modes : s.modes = .literal l :: outer) (modes' : r.modes = outer)
    (cursor : r.cursor = s.cursor) (resume : r.resume = s.resume) : Stride s s' :=
  .out l outer modes ((congrArg Snapshot.modes h).trans modes')
    ((congrArg Snapshot.cursor h).trans cursor)
    ((congrArg Snapshot.resume h).trans resume)

/-- A move forward is a stride. -/
theorem Forward.stride (h : Forward nested s s') : Stride s s' := by
  cases h with
  | blank n code piece core_eq =>
    exact .on_of_snapshot (snapshot_eq_of_core core_eq) piece.pos.1 piece.pos.2 rfl rfl
  | document n code top word ended core_eq =>
    exact .on_of_snapshot (snapshot_eq_of_core core_eq) (documentEnd_pos ended)
      (ne_nil_of_atWord (by decide) word) rfl rfl
  | stray cause n code pos ahead core_eq =>
    exact .on_of_snapshot (snapshot_eq_of_core core_eq) pos ahead rfl rfl
  | token ms kind n spaced code layers plain pos ahead core_eq =>
    exact .on_of_snapshot (snapshot_eq_of_core core_eq) pos ahead rfl rfl
  | faulty cause k kind n spaced code plain pos ahead core_eq =>
    exact .on_of_snapshot (snapshot_eq_of_core core_eq) pos ahead rfl rfl
  | jump t resume rest code lineBreak read pending core_eq =>
    have hcursor : s'.cursor = resume := cursor_eq_of_core core_eq
    refine .jump rest code lineBreak (by rw [hcursor, pending]) (resume_eq_of_core core_eq) ?_
    rcases read with rfl | rfl <;> exact (modes_eq_of_core core_eq :)
  | heredoc o spaced body code opener read core_eq =>
    exact .heredoc o opener (cursor_eq_of_core core_eq :) (resume_eq_of_core core_eq :)
  | begin o spaced code pos ahead core_eq =>
    have hsnap := (snapshot_eq_of_core core_eq).trans (snapshot_beginLiteral o spaced)
    exact .on_of_snapshot hsnap pos ahead rfl rfl
  | endInterpolation spaced mode outer rest modes brace core_eq =>
    exact .on_of_snapshot (snapshot_eq_of_core core_eq) Nat.one_pos (by simp [brace]) rfl rfl
  | beginInterpolation l outer modes stop core_eq =>
    refine .on_of_snapshot (snapshot_eq_of_core core_eq) Nat.two_pos ?_ rfl rfl
    generalize s.cursor.rest = rest at stop
    cases stop
    exact List.cons_ne_nil _ _
  | abandon l outer modes stop core_eq =>
    have hsnap := (snapshot_eq_of_core core_eq).trans (snapshot_abandonLiteral l outer)
    exact .out_of_snapshot hsnap modes rfl rfl rfl
  | close l outer modes stop core_eq =>
    have hsnap := (snapshot_eq_of_core core_eq).trans (snapshot_closeLiteral l outer)
    refine .on_of_snapshot hsnap (Nat.add_pos_left Nat.one_pos _) ?_ rfl rfl
    generalize s.cursor.rest = rest at stop
    cases stop
    exact List.cons_ne_nil _ _
  | endBody l outer modes open_ stop core_eq =>
    exact .out_of_snapshot (snapshot_eq_of_core core_eq) modes rfl rfl rfl

/-- Content is read from the cursor on. -/
lemma Content.stride (h : Content s t) :
    ∃ n, t.cursor = .advanceBy n s.cursor ∧ t.resume = s.resume := by
  obtain ⟨l, l', outer, stop, n, hmodes, -, rfl⟩ := h
  refine ⟨n, cursor_emitContent n, ?_⟩
  unfold emitContent
  split <;> rfl

/-! ### The openers that are not gone back to again -/

/-- An opener is put on top of those that end on their lines. -/
lemma singleLine_endOnItsLine (opener : ℕ) :
    s.singleLine <:+ (s.endOnItsLine opener).singleLine := by
  unfold endOnItsLine
  split
  · exact List.suffix_rfl
  · exact List.suffix_cons _ _

/-- No other opener is put there. -/
lemma mem_endOnItsLine {opener x : ℕ} (hx : x ∈ (s.endOnItsLine opener).singleLine) :
    x ∈ s.singleLine ∨ x = opener := by
  unfold endOnItsLine at hx
  split at hx
  · exact .inl hx
  · exact (List.mem_cons.mp hx).symm

/-- Closing a literal adds no opener that ends on its line. -/
lemma singleLine_popLiteral (promote : Bool) :
    (s.popLiteral promote).2.singleLine = s.singleLine := by
  unfold popLiteral
  split <;> rfl

/-- Reading content adds no opener that ends on its line. -/
lemma Content.singleLine_eq (h : Content s t) : t.singleLine = s.singleLine := by
  obtain ⟨l, l', outer, stop, n, -, -, rfl⟩ := h
  unfold emitContent
  split <;> rfl

/-- Opening a literal that always ends on its line puts its opener among those. -/
lemma singleLine_beginLiteral (o : Opening) (spaced : Bool) :
    (s.beginLiteral o spaced).singleLine =
      if o.singleLine then (s.endOnItsLine s.cursor.position.byte).singleLine
      else s.singleLine := by
  unfold beginLiteral
  dsimp only
  split <;> rfl

/-- A move forward adds to the openers whose literals end on their line no other than the one at the
cursor, and moves on behind that one. -/
theorem Forward.singleLine_eq_or (h : Forward nested s s') :
    s'.singleLine = s.singleLine ∨
      s'.singleLine = (s.endOnItsLine s.cursor.position.byte).singleLine ∧
        s.cursor.position.byte < s'.cursor.position.byte := by
  cases h with
  | blank n code piece core_eq | document n code top word ended core_eq
  | stray cause n code pos ahead core_eq
  | token ms kind n spaced code layers plain pos ahead core_eq
  | faulty cause k kind n spaced code plain pos ahead core_eq
  | heredoc o spaced body code opener read core_eq
  | endInterpolation spaced mode outer rest modes brace core_eq
  | beginInterpolation l outer modes stop core_eq | endBody l outer modes open_ stop core_eq =>
    exact .inl (singleLine_eq_of_core core_eq :)
  | jump t resume rest code lineBreak read pending core_eq =>
    left
    rw [singleLine_eq_of_core core_eq]
    rcases read with rfl | rfl <;> rfl
  | begin o spaced code pos ahead core_eq =>
    have hcursor : s'.cursor = .advanceBy o.width s.cursor :=
      congrArg Snapshot.cursor ((snapshot_eq_of_core core_eq).trans (snapshot_beginLiteral o spaced))
    rw [singleLine_eq_of_core core_eq, singleLine_beginLiteral, hcursor]
    split
    · exact .inr ⟨rfl, Cursor.byte_lt_byte_advanceBy pos ahead⟩
    · exact .inl rfl
  | abandon l outer modes stop core_eq =>
    left
    rw [singleLine_eq_of_core core_eq]
    exact singleLine_popLiteral false
  | close l outer modes stop core_eq =>
    left
    rw [singleLine_eq_of_core core_eq]
    have hpop := singleLine_popLiteral
      (s := { s with modes := outer }.emit .stringEnd (s.closingWidth l) false)
      (l.flavor == Flavor.string)
    refine Eq.trans ?_ hpop
    unfold closeLiteral closingWidth
    dsimp only
    split_ifs <;> rfl

/-- A move forward puts at most the opener at the cursor there. -/
lemma Forward.mem_singleLine (h : Forward nested s s') {opener : ℕ} (hmem : opener ∈ s'.singleLine) :
    opener ∈ s.singleLine ∨ opener = s.cursor.position.byte := by
  rcases h.singleLine_eq_or with hsame | ⟨hadded, -⟩
  · exact .inl (hsame ▸ hmem)
  · exact mem_endOnItsLine (hadded ▸ hmem)

/-- Moves forward only add to the openers whose literals end on their line. -/
theorem Forward.singleLine_suffix (h : Forward nested s s') : s.singleLine <:+ s'.singleLine := by
  rcases h.singleLine_eq_or with hsame | ⟨hadded, -⟩
  · rw [hsame]
  · rw [hadded]
    exact singleLine_endOnItsLine _

/-- Going back to an opener: the cursor is back at it, and its byte offset is new among those of the
openers whose literals end on their line. -/
structure GoesBack (s s' : Scanner) (opener : ℕ) : Prop where
  returns : s'.cursor.position.byte = opener
  fresh : opener ∉ s.singleLine
  singleLine : s'.singleLine = opener :: s.singleLine

/-- Going back to an opener ends its literal on its line from now on, which it did not before. -/
lemma singleLine_restore {c : Checkpoint} (h : s.rewindTarget? = some c) :
    c.opener ∉ s.singleLine ∧
      ((s.endOnItsLine c.opener).restore c).singleLine = c.opener :: s.singleLine := by
  obtain ⟨-, hworth⟩ := mem_live_of_rewindTarget? h
  have hfresh : c.opener ∉ s.singleLine := by
    unfold worthRestoring at hworth
    simp at hworth
    exact hworth.2
  exact ⟨hfresh, by simp [Scanner.restore, endOnItsLine, hfresh]⟩

/-- Whatever goes on at the end of the text puts the offset of an opener among those whose literals
end on their line, and it was not there. -/
lemma singleLine_of_endOfText (h : s.endOfText = .more s') :
    ∃ opener ∉ s.singleLine, s'.singleLine = opener :: s.singleLine := by
  unfold endOfText at h
  split at h
  · simp at h
  · simp at h
  split at h
  · simp at h
  split at h
  · rename_i c hc
    obtain rfl := Step.more.inj h
    exact ⟨c.opener, singleLine_restore hc⟩
  · simp at h

/-- Going back to a safe checkpoint goes back to the opener it was taken at. -/
lemma Rewind.goesBack {P : Snapshot → Prop} (hsafe : Safe P s) (h : Rewind s s') :
    ∃ opener, GoesBack s s' opener := by
  obtain ⟨c, houter, -, htarget, rfl⟩ := h
  obtain ⟨hlive, -⟩ := mem_live_of_rewindTarget? htarget
  obtain ⟨hfresh, hsingle⟩ := singleLine_restore htarget
  cases hsafe with
  | outer sound => exact ⟨c.opener, (sound.fits c hlive).opener_eq.symm, hfresh, hsingle⟩
  | body inBody _ _ => simp [houter] at inBody

/-- Only where the text has run out is an opener gone back to. -/
lemma GoesBack.rewind {opener : ℕ} (h : GoesBack s s' opener) (halt : Alternates s.modes)
    (hstep : s.step nested = some (.more s')) : ∃ t, (t = s ∨ Content s t) ∧ Rewind t s' := by
  have hmem : opener ∈ s'.singleLine := by
    rw [h.singleLine]
    exact List.mem_cons_self
  obtain ⟨t, ⟨hcontent, hforward | hrewind⟩ | ⟨hcontent, hcloses⟩⟩ := step_more halt hstep
  · have hsingle : t.singleLine = s.singleLine := by
      rcases hcontent with rfl | hcontent
      · rfl
      · exact hcontent.singleLine_eq
    rcases hforward.mem_singleLine hmem with hold | rfl
    · exact absurd (hsingle ▸ hold) h.fresh
    · rcases hforward.singleLine_eq_or with hsame | ⟨-, hon⟩
      · exact absurd (hsingle ▸ hsame ▸ hmem) h.fresh
      · exact absurd h.returns hon.ne'
  · exact ⟨t, hcontent, hrewind⟩
  · have hsame : s'.singleLine = s.singleLine :=
      hcloses.fields.2.2.2.1.trans hcontent.singleLine_eq
    exact absurd (hsame ▸ hmem) h.fresh

/-- Jumping behind the bodies of heredocs: the line break that is read ends the line on which they
were opened. -/
structure Jumps (s s' : Scanner) : Prop where
  code : s.InCode
  lineBreak : ∃ rest, s.cursor.rest = '\n' :: rest
  resume : s.resume = some s'.cursor
  consumed : s'.resume = none

/-- A step moves the cursor backwards only where it goes back to an opener or jumps. -/
theorem back_or_jump (h : Safe (Placed source) s) (hstep : s.step nested = some (.more s'))
    (hback : s'.cursor.position.byte < s.cursor.position.byte) :
    (∃ opener, GoesBack s s' opener) ∨ Jumps s s' := by
  obtain ⟨t, ⟨hcontent, hforward | hrewind⟩ | ⟨hcontent, hcloses⟩⟩ := step_more h.alternates hstep
  · have hbefore : s.cursor.position.byte ≤ t.cursor.position.byte := by
      rcases hcontent with rfl | hcontent
      · exact le_rfl
      · obtain ⟨n, hcursor, -⟩ := hcontent.stride
        rw [hcursor]
        exact Cursor.byte_le_byte_advanceBy n _
    cases hforward.stride with
    | on n pos ahead cursor =>
      have hforward := Cursor.byte_le_byte_advanceBy n t.cursor
      rw [cursor] at hback
      omega
    | heredoc o opener cursor =>
      have hforward := Cursor.byte_le_byte_advanceBy o.length t.cursor
      rw [cursor] at hback
      omega
    | out l outer modes modes' cursor =>
      rw [cursor] at hback
      omega
    | jump rest code lineBreak pending resume modes =>
      -- Content is not read in code, so nothing was read before the line break.
      rcases hcontent with rfl | hcontent
      · exact .inr ⟨code, ⟨rest, lineBreak⟩, pending, resume⟩
      · obtain ⟨l, l', outer, -, hmodes, -⟩ := hcontent.modes_eq
        obtain ⟨d, outer', hcode⟩ := code
        simp [hmodes] at hcode
  · rcases hcontent with rfl | hcontent
    · exact .inl (hrewind.goesBack h)
    · obtain ⟨opener, hgoes⟩ := hrewind.goesBack ((placed_kept source).safe_content h hcontent)
      exact .inl ⟨opener, hgoes.returns, hcontent.singleLine_eq ▸ hgoes.fresh,
        hcontent.singleLine_eq ▸ hgoes.singleLine⟩
  · obtain ⟨n, hcursor, -⟩ := hcontent.stride
    have hforward := Cursor.byte_le_byte_advanceBy n s.cursor
    rw [hcloses.fields.1, hcursor] at hback
    omega

/-- A step only adds to the openers whose literals end on their line. -/
theorem singleLine_suffix_of_step (h : Safe (Placed source) s)
    (hstep : s.step nested = some (.more s')) : s.singleLine <:+ s'.singleLine := by
  obtain ⟨t, ⟨hcontent, hmove⟩ | ⟨hcontent, hcloses⟩⟩ := step_more h.alternates hstep
  · have hbetween : Safe (Placed source) t ∧ t.singleLine = s.singleLine := by
      rcases hcontent with rfl | hcontent
      · exact ⟨h, rfl⟩
      · exact ⟨(placed_kept source).safe_content h hcontent, hcontent.singleLine_eq⟩
    rw [← hbetween.2]
    rcases hmove with hforward | hrewind
    · exact hforward.singleLine_suffix
    · obtain ⟨opener, hgoes⟩ := hrewind.goesBack hbetween.1
      rw [hgoes.singleLine]
      exact List.suffix_cons _ _
  · rw [hcloses.fields.2.2.2.1, hcontent.singleLine_eq]

/-! ### What is left to do between two times of going back -/

/-- Whether the inside of a literal is read, as a number. -/
def insideLiteral : List Mode → ℕ
  | .literal _ :: _ => 1
  | _ => 0

/-- Being inside a literal counts for one at most. -/
lemma insideLiteral_le (ms : List Mode) : insideLiteral ms ≤ 1 := by
  unfold insideLiteral
  split <;> omega

/-- Being in code counts for nothing. -/
lemma insideLiteral_of_inCode (h : s.InCode) : insideLiteral s.modes = 0 := by
  obtain ⟨d, outer, hmodes⟩ := h
  rw [hmodes]
  rfl

/-- Where reading goes on behind the current line if bodies of heredocs follow it, and otherwise
right here. -/
def landing (s : Scanner) : Cursor := s.resume.getD s.cursor

/-- What one jump counts for: more than reading the whole text. -/
def jumpCost (source : List Char) : ℕ := 2 * source.length + 2

/-- What is left to do if nothing is gone back to.  Jumping costs the text behind the place jumped
to; reading a heredoc puts that place further on and allows one jump; everything else reads on, or
leaves a literal. -/
def load (source : List Char) (s : Scanner) : ℕ :=
  s.landing.rest.length * jumpCost source + (if s.resume.isSome then jumpCost source else 0) +
    (2 * s.cursor.rest.length + insideLiteral s.modes)

/-- What is left to do if no body of a heredoc is pending. -/
lemma load_of_none (h : s.resume = none) :
    load source s = s.cursor.rest.length * jumpCost source +
      (2 * s.cursor.rest.length + insideLiteral s.modes) := by
  simp [load, landing, h]

/-- What is left to do if the body of a heredoc is pending. -/
lemma load_of_some {c : Cursor} (h : s.resume = some c) :
    load source s = c.rest.length * jumpCost source + jumpCost source +
      (2 * s.cursor.rest.length + insideLiteral s.modes) := by
  simp [load, landing, h]

/-- Going on by some characters leaves so many less. -/
lemma length_advanceBy (n : ℕ) (c : Cursor) :
    (Cursor.advanceBy n c).rest.length = c.rest.length - n := by
  rw [Cursor.rest_advanceBy, List.length_drop]

/-- Going on leaves less if there are any characters. -/
lemma length_advanceBy_lt {n : ℕ} {c : Cursor} (hpos : 0 < n) (hrest : c.rest ≠ []) :
    (Cursor.advanceBy n c).rest.length < c.rest.length := by
  have := List.length_pos_of_ne_nil hrest
  rw [length_advanceBy]
  omega

/-- The body of a heredoc begins behind its opener, or behind the bodies before it. -/
lemma length_bodyStart_lt {o : HeredocOpener} (ho : s.heredocOpener? = some o)
    (hresume : s.resume = none) : (s.bodyStart o).rest.length < s.cursor.rest.length := by
  obtain ⟨⟨after, hrest⟩, hpos⟩ := rest_of_heredocOpener? ho
  have hread := length_advanceBy_lt (Nat.zero_lt_of_lt hpos) (c := s.cursor) (by simp [hrest])
  unfold bodyStart
  rw [hresume, Option.getD_none, Cursor.nextLine_eq_advanceBy, length_advanceBy]
  omega

/-- Reading on along the text leaves as much less to do as there is less to read. -/
lemma load_add_le_of_cursor {k : ℕ} (hresume : s'.resume = s.resume)
    (hcursor : s'.cursor.rest.length ≤ s.cursor.rest.length)
    (hload : 2 * s'.cursor.rest.length + insideLiteral s'.modes + k ≤
      2 * s.cursor.rest.length + insideLiteral s.modes) :
    load source s' + k ≤ load source s := by
  have hmul := Nat.mul_le_mul_right (jumpCost source) hcursor
  cases hpending : s.resume with
  | none =>
    rw [load_of_none hpending, load_of_none (hresume.trans hpending)]
    omega
  | some c =>
    rw [load_of_some hpending, load_of_some (hresume.trans hpending)]
    omega

/-- Each move forward leaves less to do. -/
theorem load_lt_of_forward (h : Placed source s'.snapshot) (halt : Alternates s.modes)
    (hmove : Forward nested s s') : load source s' < load source s := by
  have hinside := insideLiteral_le s'.modes
  cases hmove.stride with
  | on n pos ahead cursor resume =>
    have hlt := length_advanceBy_lt pos ahead
    rw [← cursor] at hlt
    exact load_add_le_of_cursor (k := 1) resume hlt.le (by omega)
  | out l outer modes modes' cursor resume =>
    obtain ⟨d, outer', rfl⟩ := (modes ▸ halt).of_literal
    refine load_add_le_of_cursor (k := 1) resume (cursor ▸ le_rfl) ?_
    rw [cursor, modes, modes']
    exact le_rfl
  | jump rest code lineBreak pending resume modes =>
    have hlength : s'.cursor.rest.length ≤ source.length := h.cursor.length_le
    rw [load_of_none resume, load_of_some pending, modes, insideLiteral_of_inCode code, jumpCost]
    omega
  | heredoc o opener cursor resume =>
    obtain ⟨⟨after, hrest⟩, hpos⟩ := rest_of_heredocOpener? opener
    have hlt := length_advanceBy_lt (Nat.zero_lt_of_lt hpos) (c := s.cursor) (by simp [hrest])
    rw [← cursor] at hlt
    have hmodes : insideLiteral s'.modes ≤ insideLiteral s.modes + 1 := by omega
    have hend := length_advanceBy (s.bodyRange o).whole (s.bodyStart o)
    rw [load_of_some resume]
    cases hpending : s.resume with
    | none =>
      have hstart := length_bodyStart_lt opener hpending
      have hlater : (Cursor.advanceBy (s.bodyRange o).whole (s.bodyStart o)).rest.length + 1 ≤
          s.cursor.rest.length := by
        omega
      have hmul := Nat.mul_le_mul_right (jumpCost source) hlater
      rw [Nat.succ_mul] at hmul
      rw [load_of_none hpending]
      omega
    | some c =>
      have hstart : s.bodyStart o = c := by simp [bodyStart, hpending]
      have hlater : (Cursor.advanceBy (s.bodyRange o).whole (s.bodyStart o)).rest.length ≤
          c.rest.length := by
        rw [hend, hstart]
        exact Nat.sub_le _ _
      have hmul := Nat.mul_le_mul_right (jumpCost source) hlater
      rw [load_of_some hpending]
      omega

/-- Reading content leaves no more to do. -/
lemma load_le_of_content (h : Content s t) : load source t ≤ load source s := by
  obtain ⟨n, hcursor, hresume⟩ := h.stride
  obtain ⟨l, l', outer, hmodes, hmodes', -⟩ := h.modes_eq
  have hread := length_advanceBy n s.cursor
  rw [← hcursor] at hread
  have hinside : insideLiteral t.modes = insideLiteral s.modes := by
    rw [hmodes, hmodes']
    rfl
  exact load_add_le_of_cursor (k := 0) hresume (by omega) (by omega)

/-- Closing everything leaves a literal. -/
lemma load_lt_of_closes {l : OpenLiteral} {outer : List Mode}
    (hmodes : s.modes = .literal l :: outer) (halt : Alternates s'.modes) (h : Closes s s') :
    load source s' < load source s := by
  obtain ⟨hcursor, hresume, -, -, hlength⟩ := h.fields
  refine load_add_le_of_cursor (k := 1) hresume (hcursor ▸ le_rfl) ?_
  rcases halt.inCode_or_literal with hcode | ⟨l', outer', hmodes'⟩
  · rw [hcursor, insideLiteral_of_inCode hcode, hmodes]
    exact le_rfl
  · obtain ⟨d, outer'', rfl⟩ := (hmodes' ▸ halt).of_literal
    simp [hmodes'] at hlength

/-- The body of a heredoc leaves less to do than the text from its opener on. -/
lemma load_bodyScanner_lt (h : Placed source s.snapshot) {o : HeredocOpener}
    (ho : s.heredocOpener? = some o) : load source (s.bodyScanner o) < load source s := by
  obtain ⟨⟨after, hrest⟩, hpos⟩ := rest_of_heredocOpener? ho
  have hsource : s.cursor.rest.length ≤ source.length := h.cursor.length_le
  have hahead : 2 ≤ s.cursor.rest.length := by simp [hrest]
  have hbody : (s.bodyScanner o).cursor.rest.length ≤ (s.bodyStart o).rest.length :=
    List.length_take_le' _ _
  have hinside := insideLiteral_le (s.bodyScanner o).modes
  have hstarted : (s.bodyStart o).rest.length ≤ source.length := (h.bodyStart o).length_le
  rw [load_of_none (s := s.bodyScanner o) rfl]
  cases hpending : s.resume with
  | none =>
    have hstart := length_bodyStart_lt ho hpending
    have hmul := Nat.mul_le_mul_right (jumpCost source)
      (show (s.bodyScanner o).cursor.rest.length ≤ s.cursor.rest.length by omega)
    rw [load_of_none hpending]
    omega
  | some c =>
    have hstart : s.bodyStart o = c := by simp [bodyStart, hpending]
    rw [hstart] at hbody hstarted
    have hmul := Nat.mul_le_mul_right (jumpCost source) hbody
    have hcost : jumpCost source = 2 * source.length + 2 := rfl
    rw [load_of_some hpending]
    omega

/-! ### How often an opener can be gone back to -/

/-- What one time of going back counts for: more than everything that may be left to do. -/
def rewindCost (source : List Char) : ℕ := (source.length + 2) * jumpCost source

/-- Whatever is left to do counts for less than going back once. -/
lemma load_lt_rewindCost (h : Placed source s.snapshot) : load source s < rewindCost source := by
  have hcursor : s.cursor.rest.length ≤ source.length := h.cursor.length_le
  have hinside := insideLiteral_le s.modes
  have hcost : jumpCost source = 2 * source.length + 2 := rfl
  rw [rewindCost, Nat.add_mul]
  cases hpending : s.resume with
  | none =>
    have hmul := Nat.mul_le_mul_right (jumpCost source) hcursor
    rw [load_of_none hpending]
    omega
  | some c =>
    have hmul := Nat.mul_le_mul_right (jumpCost source) (h.resume c hpending).length_le
    rw [load_of_some hpending]
    omega

/-- The points of a text whose byte offsets are not among the openers whose literals end on their
line. -/
def freshPoints (source : List Char) (s : Scanner) : Finset ℕ :=
  (Finset.range (source.length + 1)).filter fun i =>
    Source.byteLength (source.take i) ∉ s.singleLine

/-- How often the scanner may still go back; in the body of a heredoc it never does. -/
def rewindsLeft (source : List Char) (s : Scanner) : ℕ :=
  if s.inBody then 0 else (freshPoints source s).card

/-- What is left to do. -/
def effort (source : List Char) (s : Scanner) : ℕ :=
  rewindsLeft source s * rewindCost source + load source s

/-- With more openers that end on their lines, no more can be gone back to. -/
lemma rewindsLeft_le (hbody : s'.inBody = s.inBody) (h : s.singleLine <:+ s'.singleLine) :
    rewindsLeft source s' ≤ rewindsLeft source s := by
  unfold rewindsLeft
  rw [hbody]
  split
  · exact le_rfl
  · refine Finset.card_le_card fun i hi => ?_
    rw [freshPoints, Finset.mem_filter] at hi ⊢
    exact ⟨hi.1, fun hmem => hi.2 (h.mem hmem)⟩

/-- Going back to an opener leaves one point less that is fresh. -/
lemma rewindsLeft_lt {opener : ℕ} (houter : s.inBody = false) (hbody : s'.inBody = false)
    (h : GoesBack s s' opener) (h' : s'.cursor.On source) :
    rewindsLeft source s' < rewindsLeft source s := by
  obtain ⟨before, hprefix, hposition⟩ := h'.exact
  have htake : source.take before.length = before := (List.prefix_iff_eq_take.mp hprefix).symm
  have hopener : Source.byteLength before = opener := by
    rw [← h.returns, hposition, Position.byte_behind]
  simp only [rewindsLeft, houter, hbody, Bool.false_eq_true, if_false]
  refine Finset.card_lt_card ⟨fun i hi => ?_, fun hsubset => ?_⟩
  · rw [freshPoints, Finset.mem_filter] at hi ⊢
    exact ⟨hi.1, fun hmem => hi.2 (by simp [h.singleLine, hmem])⟩
  · have hmem : before.length ∈ freshPoints source s := by
      rw [freshPoints, Finset.mem_filter, Finset.mem_range, htake, hopener]
      exact ⟨Nat.lt_succ_of_le hprefix.length_le, h.fresh⟩
    have hmem' := hsubset hmem
    rw [freshPoints, Finset.mem_filter, htake, hopener, h.singleLine] at hmem'
    simp at hmem'

/-- If an opener less can be gone back to, less effort is left, whatever is left to do. -/
lemma effort_lt_of_rewindsLeft_lt (h : Placed source s'.snapshot)
    (hlt : rewindsLeft source s' < rewindsLeft source s) : effort source s' < effort source s := by
  have hload := load_lt_rewindCost h
  have hmul := Nat.mul_le_mul_right (rewindCost source) (Nat.succ_le_of_lt hlt)
  rw [Nat.succ_mul] at hmul
  unfold effort
  omega

/-- So it is if as many can be gone back to and less is left to do. -/
lemma effort_lt_of_load_lt (hle : rewindsLeft source s' ≤ rewindsLeft source s)
    (hlt : load source s' < load source s) : effort source s' < effort source s := by
  have hmul := Nat.mul_le_mul_right (rewindCost source) hle
  unfold effort
  omega

/-- Going back leaves less to do. -/
lemma effort_lt_of_rewind (hsafe : Safe (Placed source) s) (hmove : Rewind s s') :
    effort source s' < effort source s := by
  obtain ⟨opener, hgoes⟩ := hmove.goesBack hsafe
  have hplaced := (hsafe.rewind hmove).holds
  obtain ⟨-, houter, -⟩ := id hmove
  exact effort_lt_of_rewindsLeft_lt hplaced
    (rewindsLeft_lt houter (hmove.inBody.trans houter) hgoes hplaced.cursor)

/-- Every step leaves less to do. -/
theorem effort_lt_of_step (hnested : Reads (Placed source) nested) (h : Safe (Placed source) s)
    (hstep : s.step nested = some (.more s')) : effort source s' < effort source s := by
  have hkept := placed_kept source
  obtain ⟨t, ⟨hcontent, hmove⟩ | ⟨hcontent, hcloses⟩⟩ := Scanner.step_more h.alternates hstep
  · have hbetween : Safe (Placed source) t ∧ effort source t ≤ effort source s := by
      rcases hcontent with rfl | hcontent
      · exact ⟨h, le_rfl⟩
      · refine ⟨hkept.safe_content h hcontent, Nat.add_le_add ?_ (load_le_of_content hcontent)⟩
        refine Nat.mul_le_mul_right _ (rewindsLeft_le hcontent.grows.inBody ?_)
        rw [hcontent.singleLine_eq]
    refine lt_of_lt_of_le ?_ hbetween.2
    rcases hmove with hforward | hrewind
    · have hplaced := (hkept.safe_forward hnested hbetween.1 hforward).holds
      exact effort_lt_of_load_lt (rewindsLeft_le hforward.grows.inBody hforward.singleLine_suffix)
        (load_lt_of_forward hplaced hbetween.1.alternates hforward)
    · exact effort_lt_of_rewind hbetween.1 hrewind
  · have hsafe := hkept.safe_content h hcontent
    obtain ⟨l, l', outer, -, hmodes, -⟩ := hcontent.modes_eq
    obtain ⟨-, -, hbody, hsingle, -⟩ := hcloses.fields
    have hloads : load source s' < load source t :=
      load_lt_of_closes hmodes (hkept.safe_closes hsafe hcloses).alternates hcloses
    refine effort_lt_of_load_lt (rewindsLeft_le (hbody.trans hcontent.grows.inBody) ?_)
      (hloads.trans_le (load_le_of_content hcontent))
    rw [hsingle, hcontent.singleLine_eq]

/-- Reading the body of a heredoc takes less effort than the text around it. -/
lemma effort_bodyScanner_lt (h : Placed source s.snapshot) {o : HeredocOpener}
    (ho : s.heredocOpener? = some o) : effort source (s.bodyScanner o) < effort source s := by
  refine effort_lt_of_load_lt ?_ (load_bodyScanner_lt h ho)
  rw [show rewindsLeft source (s.bodyScanner o) = 0 from if_pos rfl]
  exact Nat.zero_le _

/-- The steps that are allowed are more than there is to do. -/
theorem effort_lt_stepsFor (h : Placed source s.snapshot) :
    effort source s < stepsFor source.length := by
  have hload := load_lt_rewindCost h
  have hrewinds : rewindsLeft source s ≤ source.length + 1 := by
    unfold rewindsLeft
    split
    · exact Nat.zero_le _
    · exact (Finset.card_filter_le _ _).trans (Finset.card_range _).le
  have hmul := Nat.mul_le_mul_right (rewindCost source) hrewinds
  have hcost : rewindCost source ≤ 2 * ((source.length + 2) * (source.length + 2)) := by
    rw [rewindCost, jumpCost, Nat.mul_left_comm 2]
    exact Nat.mul_le_mul_left _ (by omega)
  calc effort source s
      < rewindsLeft source s * rewindCost source + rewindCost source := Nat.add_lt_add_left hload _
    _ ≤ (source.length + 1) * rewindCost source + rewindCost source := Nat.add_le_add_right hmul _
    _ = (source.length + 2) * rewindCost source := by ring
    _ ≤ (source.length + 2) * (2 * ((source.length + 2) * (source.length + 2))) :=
      Nat.mul_le_mul_left _ hcost
    _ = 2 * ((source.length + 2) * (source.length + 2) * (source.length + 2)) := by ring
    _ ≤ stepsFor source.length := Nat.mul_le_mul_right _ (by omega)

/-! ### Runs come to their end -/

/-- More steps than there is to do suffice. -/
theorem run_isSome {fuel : ℕ} (h : Safe (Placed source) s) (hfuel : effort source s < fuel) :
    (run fuel s).isSome = true := by
  induction fuel generalizing s with
  | zero => omega
  | succ fuel ih =>
    have hkept := placed_kept source
    have hsome : (s.step (run fuel)).isSome = true := by
      refine step_isSome (fun o hcode ho => ?_) h.alternates
      refine ih (hkept.safe_bodyScanner h hcode ho) ?_
      have := effort_bodyScanner_lt h.holds ho
      omega
    rw [run]
    split
    · rename_i hnone
      simp [hnone] at hsome
    · rfl
    · rename_i s' hstep
      refine ih (hkept.step_more (hkept.run_safe fuel) h hstep).1 ?_
      have := effort_lt_of_step (hkept.run_safe fuel) h hstep
      omega

/-! ### Turns -/

/-- The states are those of turns one after the other. -/
def Turns (states : ℕ → Scanner) (n : ℕ) : Prop := ∀ i < n, Turn (states i) (states (i + 1))

/-- In a state that is visited, every live checkpoint is safe. -/
lemma Visited.safe (h : Visited source s) : Safe (Placed source) s :=
  (placed_kept source).safe_of_visited (placed_ofText source) h

/-- Whatever turns lead to is visited. -/
lemma Visited.of_turns {states : ℕ → Scanner} {n : ℕ} (h : Visited source (states 0))
    (hturns : Turns states n) : ∀ i ≤ n, Visited source (states i) := by
  intro i hi
  induction i with
  | zero => exact h
  | succ i ih => exact (ih (by omega)).turn (hturns i hi)

/-- Turns use up what was left to do, so there are fewer of them than steps allowed. -/
theorem Turns.lt_stepsFor {states : ℕ → Scanner} {n : ℕ} (hturns : Turns states n)
    (h : Visited source (states 0)) : n < stepsFor source.length := by
  have hspent : ∀ i ≤ n, effort source (states i) + i ≤ effort source (states 0) := by
    intro i hi
    induction i with
    | zero => exact le_rfl
    | succ i ih =>
      obtain ⟨fuel, hstep⟩ := hturns i hi
      have hsafe := (h.of_turns hturns i (by omega)).safe
      have hlt := effort_lt_of_step ((placed_kept source).run_safe fuel) hsafe hstep
      have := ih (by omega)
      omega
  have hall := effort_lt_stepsFor h.safe.holds
  have := hspent n le_rfl
  omega

/-- No opener is gone back to twice. -/
theorem Turns.goesBack_ne {states : ℕ → Scanner} {n i j a b : ℕ} (hturns : Turns states n)
    (h : Visited source (states 0)) (hij : i < j) (hj : j < n)
    (hi : GoesBack (states i) (states (i + 1)) a) (hj' : GoesBack (states j) (states (j + 1)) b) :
    a ≠ b := by
  have hgrows : ∀ k, i + 1 ≤ k → k ≤ j → (states (i + 1)).singleLine <:+ (states k).singleLine := by
    intro k hk hkj
    induction k, hk using Nat.le_induction with
    | base => exact List.suffix_rfl
    | succ k hk ih =>
      obtain ⟨fuel, hstep⟩ := hturns k (by omega)
      exact (ih (by omega)).trans
        (singleLine_suffix_of_step (h.of_turns hturns k (by omega)).safe hstep)
  rintro rfl
  refine hj'.fresh ((hgrows j hij le_rfl).mem ?_)
  rw [hi.singleLine]
  exact List.mem_cons_self

end RubyCheck.Scanner
