import RubyCheck.Proofs.Position
import RubyCheck.Proofs.Scanner.Run

/-!
# Tokens stand where their spans say

`Placed` is the invariant that every cursor of the scanner is on the text, every token has the text
between the two exact positions of its span, and every fault has a span of the text.  It is kept by
every move, also by those that jump behind the body of a heredoc or read it with a scanner of its
own (`placed_kept`).
-/

namespace RubyCheck

/-- The token is a part of the text, and its span has the positions at the two ends of that part. -/
def Token.At (source : List Char) (t : Token) : Prop :=
  ∃ before middle rest, source = before ++ middle ++ rest ∧ t.text = String.ofList middle ∧
    t.span = ⟨.behind before, .behind (before ++ middle)⟩

lemma Token.At.exact {source : List Char} {t : Token} (h : t.At source) : t.span.Exact source := by
  obtain ⟨before, middle, rest, hsource, -, hspan⟩ := h
  exact ⟨before, middle, rest, hsource, hspan⟩

/-- The text of a token is the slice between the byte offsets of its span. -/
lemma Token.At.slice?_eq {source : List Char} {t : Token} (h : t.At source) :
    Source.slice? source t.span.start.byte t.span.stop.byte = some t.text.toList := by
  obtain ⟨before, middle, rest, rfl, htext, hspan⟩ := h
  rw [hspan, htext, String.toList_ofList]
  exact Source.slice?_append before middle rest

/-- An empty token stands at any position of the text. -/
lemma Token.at_empty {source : List Char} {p : Position} (kind : TokenKind) (h : p.Exact source) :
    (Token.empty kind p).At source := by
  obtain ⟨before, ⟨rest, rfl⟩, rfl⟩ := h
  exact ⟨before, [], rest, by simp, rfl, by simp [Token.empty, Span.point]⟩

namespace Scanner

variable {source : List Char} {s s' t : Scanner} {nested : Scanner → Option Scanner}

/-- What the scanner reads next as a token is at its place. -/
lemma at_of_on (h : s.cursor.On source) (kind : TokenKind) (n : ℕ) (spaced ambiguous : Bool) :
    (⟨kind, s.textOf n, s.spanOf n, spaced, ambiguous⟩ : Token).At source := by
  obtain ⟨before, rest, hsource, hstart, hstop⟩ := h.split n
  exact ⟨before, s.cursor.rest.take n, rest, hsource, rfl, by simp only [spanOf, hstart, hstop]⟩

/-- Everything that a scanner has found stands where the text has it. -/
structure Placed (source : List Char) (r : Snapshot) : Prop where
  cursor : r.cursor.On source
  resume : ∀ c ∈ r.resume, c.On source
  tokens : ∀ t ∈ r.tokens, t.At source
  faults : ∀ f ∈ r.faults, f.span.Exact source
  openers : ∀ l, .literal l ∈ r.modes → l.opener.Exact source

lemma placed_ofText (source : List Char) : Placed source (ofText source).snapshot where
  cursor := Cursor.on_ofText source
  resume := by simp [ofText, ofCursor, snapshot]
  tokens := by simp [ofText, ofCursor, snapshot]
  faults := by simp [ofText, ofCursor, snapshot]
  openers := by simp [ofText, ofCursor, snapshot]

lemma Placed.innermost {l : OpenLiteral} {outer : List Mode} (h : Placed source s.snapshot)
    (hmodes : s.modes = .literal l :: outer) : l.opener.Exact source := by
  refine h.openers l (show .literal l ∈ s.modes from ?_)
  rw [hmodes]
  exact List.mem_cons_self

lemma Placed.outer {m : Mode} {outer : List Mode} (h : Placed source s.snapshot)
    (hmodes : s.modes = m :: outer) : ∀ l, .literal l ∈ outer → l.opener.Exact source := by
  intro l hl
  refine h.openers l (show .literal l ∈ s.modes from ?_)
  rw [hmodes]
  exact List.mem_cons_of_mem _ hl

lemma Placed.bodyStart (h : Placed source s.snapshot) (o : HeredocOpener) :
    (s.bodyStart o).On source := by
  unfold Scanner.bodyStart
  cases hresume : s.resume with
  | none =>
    rw [Option.getD_none, Cursor.nextLine_eq_advanceBy]
    exact (h.cursor.advanceBy _).advanceBy _
  | some c => exact h.resume c hresume

/-- The scanner of a body starts with everything in its place. -/
lemma Placed.bodyScanner (h : Placed source s.snapshot) (o : HeredocOpener) :
    Placed source (s.bodyScanner o).snapshot where
  cursor := (h.bodyStart o).narrow _
  resume := by simp [Scanner.bodyScanner, ofBody, ofCursor, snapshot]
  tokens := by simp [Scanner.bodyScanner, ofBody, ofCursor, snapshot]
  faults := by simp [Scanner.bodyScanner, ofBody, ofCursor, snapshot]
  openers := by
    intro l hl
    have hopener : l.opener = s.spanOf o.length := by
      simp only [Scanner.bodyScanner, ofBody, ofCursor, snapshot, List.mem_cons,
        List.not_mem_nil, or_false, Mode.literal.injEq, reduceCtorEq] at hl
      rw [hl]
    rw [hopener]
    exact h.cursor.span _

lemma Placed.content (h : Placed source s.snapshot) (hmove : Content s t) :
    Placed source t.snapshot := by
  obtain ⟨l, l', outer, stop, n, hmodes, hends, rfl⟩ := hmove
  obtain ⟨-, -, -, -, hl⟩ := contentEnd_spec hends
  have hopeners : ∀ k, .literal k ∈ Mode.literal l' :: outer → k.opener.Exact source := by
    intro k hk
    rcases List.mem_cons.mp hk with heq | hk
    · obtain rfl := Mode.literal.inj heq
      rw [hl.opener]
      exact h.innermost hmodes
    · exact h.outer hmodes k hk
  have hemit := snapshot_emitContent (s := { s with modes := .literal l' :: outer }) n
  rcases hemit with ⟨hsnap, -⟩ | ⟨-, hsnap⟩
  · rw [hsnap]
    exact { h with openers := hopeners }
  · rw [hsnap]
    exact
      { cursor := h.cursor.advanceBy n
        resume := h.resume
        tokens := List.forall_mem_cons.mpr ⟨at_of_on h.cursor _ n _ _, h.tokens⟩
        faults := h.faults
        openers := hopeners }

lemma SameLayers.openers {ms ms' : List Mode} (h : SameLayers ms ms')
    (hopeners : ∀ l, .literal l ∈ ms → l.opener.Exact source) :
    ∀ l, .literal l ∈ ms' → l.opener.Exact source :=
  fun l hl => hopeners l (h.mem_literal hl)

/-- A move forward leaves everything in its place. -/
theorem Placed.forward (h : Placed source s.snapshot)
    (hnested : ∀ o t, s.InCode → s.heredocOpener? = some o → nested (s.bodyScanner o) = some t →
      Placed source t.snapshot)
    (hmove : Forward nested s s') : Placed source s'.snapshot := by
  have hpoint : s.cursor.position.Exact source := h.cursor.exact
  cases hmove with
  | blank n code piece core_eq | document n code top word ended core_eq =>
    rw [snapshot_eq_of_core core_eq]
    exact { h with cursor := h.cursor.advanceBy n }
  | stray cause n code pos ahead core_eq =>
    rw [snapshot_eq_of_core core_eq]
    exact { h with
      cursor := h.cursor.advanceBy n
      faults := List.forall_mem_cons.mpr ⟨h.cursor.span n, h.faults⟩ }
  | token ms kind n spaced code layers plain pos ahead core_eq =>
    rw [snapshot_eq_of_core core_eq]
    exact { h with
      cursor := h.cursor.advanceBy n
      tokens := List.forall_mem_cons.mpr ⟨at_of_on h.cursor kind n _ _, h.tokens⟩
      openers := layers.openers h.openers }
  | faulty cause k kind n spaced code plain pos ahead core_eq =>
    rw [snapshot_eq_of_core core_eq]
    exact { h with
      cursor := h.cursor.advanceBy n
      tokens := List.forall_mem_cons.mpr ⟨at_of_on h.cursor kind n _ _, h.tokens⟩
      faults := List.forall_mem_cons.mpr ⟨h.cursor.span k, h.faults⟩ }
  | jump t resume rest code lineBreak read pending core_eq =>
    have hread : Placed source t.snapshot := by
      rcases read with rfl | rfl
      · exact { h with
          cursor := h.cursor.advanceBy 1
          tokens := List.forall_mem_cons.mpr ⟨at_of_on h.cursor .newline 1 _ _, h.tokens⟩ }
      · exact { h with cursor := h.cursor.advanceBy 1 }
    rw [snapshot_eq_of_core core_eq]
    exact { hread with
      cursor := h.resume resume pending
      resume := by simp [snapshot] }
  | heredoc o spaced body code opener read core_eq =>
    have hbody := hnested o body code opener read
    rw [snapshot_eq_of_core core_eq]
    refine
      { cursor := h.cursor.advanceBy o.length
        resume := ?_
        tokens := ?_
        faults := ?_
        openers := h.openers }
    · intro c hc
      obtain rfl := Option.some.inj hc
      exact (h.bodyStart o).advanceBy _
    · refine List.forall_mem_cons.mpr ⟨Token.at_empty _ (h.cursor.span o.length).stop, ?_⟩
      refine List.forall_mem_append.mpr ⟨hbody.tokens, ?_⟩
      exact List.forall_mem_cons.mpr ⟨at_of_on h.cursor .stringBegin o.length _ _, h.tokens⟩
    · refine List.forall_mem_append.mpr ⟨hbody.faults, List.forall_mem_append.mpr ⟨?_, h.faults⟩⟩
      intro f hf
      rw [eq_of_mem_openerFaults hf]
      exact h.cursor.span o.length
  | begin o spaced code pos ahead core_eq =>
    rw [snapshot_eq_of_core core_eq, snapshot_beginLiteral]
    refine { h with
      cursor := h.cursor.advanceBy o.width
      tokens := List.forall_mem_cons.mpr ⟨at_of_on h.cursor _ o.width _ _, h.tokens⟩
      openers := ?_ }
    intro l hl
    rcases List.mem_cons.mp hl with heq | hl
    · obtain rfl := Mode.literal.inj heq
      exact h.cursor.span o.width
    · exact h.openers l hl
  | endInterpolation spaced mode outer rest modes brace core_eq =>
    rw [snapshot_eq_of_core core_eq]
    exact { h with
      cursor := h.cursor.advanceBy 1
      tokens := List.forall_mem_cons.mpr ⟨at_of_on h.cursor .interpolationEnd 1 _ _, h.tokens⟩
      openers := h.outer modes }
  | beginInterpolation l outer modes stop core_eq =>
    rw [snapshot_eq_of_core core_eq]
    refine { h with
      cursor := h.cursor.advanceBy 2
      tokens := List.forall_mem_cons.mpr ⟨at_of_on h.cursor .interpolationBegin 2 _ _, h.tokens⟩
      openers := ?_ }
    intro k hk
    rcases List.mem_cons.mp hk with heq | hk
    · simp at heq
    · exact h.openers k hk
  | abandon l outer modes stop core_eq =>
    rw [snapshot_eq_of_core core_eq, snapshot_abandonLiteral]
    exact { h with
      tokens := List.forall_mem_cons.mpr ⟨Token.at_empty _ hpoint, h.tokens⟩
      faults := List.forall_mem_cons.mpr ⟨h.innermost modes, h.faults⟩
      openers := h.outer modes }
  | close l outer modes stop core_eq =>
    rw [snapshot_eq_of_core core_eq, snapshot_closeLiteral]
    exact { h with
      cursor := h.cursor.advanceBy _
      tokens := List.forall_mem_cons.mpr ⟨at_of_on h.cursor .stringEnd _ _ _, h.tokens⟩
      openers := h.outer modes }
  | endBody l outer modes open_ stop core_eq =>
    rw [snapshot_eq_of_core core_eq]
    exact { h with openers := h.outer modes }

/-- Closing the innermost mode at the end of the text leaves everything in its place. -/
lemma Placed.dropMode {m : Mode} {outer : List Mode} (h : Placed source s.snapshot)
    (hmodes : s.modes = m :: outer) : Placed source (s.dropMode m outer).snapshot := by
  have hopeners := h.outer hmodes
  have hpoint : s.cursor.position.Exact source := h.cursor.exact
  cases m with
  | code d =>
    rw [snapshot_dropMode_code]
    exact { h with
      tokens := List.forall_mem_cons.mpr ⟨Token.at_empty _ hpoint, h.tokens⟩
      openers := hopeners }
  | literal l =>
    cases hclose : l.close with
    | none =>
      rw [snapshot_dropMode_body hclose]
      exact { h with openers := hopeners }
    | some c =>
      rw [snapshot_dropMode_literal (by simp [hclose])]
      exact { h with
        tokens := List.forall_mem_cons.mpr ⟨Token.at_empty _ hpoint, h.tokens⟩
        faults := List.forall_mem_cons.mpr ⟨h.innermost hmodes, h.faults⟩
        openers := hopeners }

theorem placed_kept (source : List Char) : Kept (Placed source) where
  content _ h hmove := h.content hmove
  body _ _ h := h.bodyScanner _
  forward _ h hnested hmove := h.forward (fun o t hcode ho ht => (hnested o t hcode ho ht).1) hmove
  close hmodes _ _ h := h.dropMode hmodes

/-- Everything that reading a text finds stands where the text has it. -/
theorem placed_of_run {fuel : ℕ} (h : run fuel (ofText source) = some t) :
    Placed source t.snapshot :=
  ((placed_kept source).run_safe fuel _ _ h (.outer (sound_ofText (placed_ofText source)))).1.holds

end Scanner

end RubyCheck
