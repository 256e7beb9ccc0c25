import RubyCheck.Proofs.Position
import RubyCheck.Proofs.Scanner.Run
import RubyCheck.Proofs.Scanner.Stack
import RubyCheck.Proofs.Token.Tape

/-!
# How tokens are spelled

What is true of the marks of literals, and of whatever is read from some characters at the cursor, is true
of every token of a text (`OfRead.kept`).  A name or a label begins with neither a dot nor a colon where it
is read, and an integer has no sign (`Token.Spelled`); so the names of a text are never empty, also without
the colon of a label, and none of them is made of dots alone.

A delimiter that the text never wrote is an empty token, and so is the end of the text.  Tokens of code, and
those that open a literal, are always written (`TokenKind.isWritten`): they cover some bytes of the text, so
whatever is behind one of them begins behind its first byte.

As long as no fault was found, the delimiters of symbols and percent literals are all there (`Intact`):
the scanner reports each one that it has to cut off.  Going back to an opener takes back the faults that
were found since, and the tokens with them.
-/

namespace RubyCheck.Scanner

variable {s s' t : Scanner} {r r' : Snapshot} {u : Token} {nested : Scanner → Option Scanner}
  {P : Token → Prop}

/-! ### Whatever is read -/

/-- The kinds of the tokens inside literals, which need not be written. -/
def insideKinds : List TokenKind :=
  [.stringContent, .stringEnd, .interpolationBegin, .interpolationEnd]

/-- A property of the tokens inside literals, whatever they are, and of those that are read from some
characters at the cursor and spelled as their kinds are. -/
structure OfRead (P : Token → Prop) : Prop where
  inside : ∀ u : Token, u.kind ∈ insideKinds → P u
  read : ∀ (s : Scanner) (kind : TokenKind) (n : ℕ) (spaced ambiguous : Bool), 0 < n →
    s.cursor.rest ≠ [] → Token.Spelled ⟨kind, s.textOf n, s.spanOf n, spaced, ambiguous⟩ →
      P ⟨kind, s.textOf n, s.spanOf n, spaced, ambiguous⟩

/-- Any spelling is right for what is neither a name, nor a label, nor an integer. -/
lemma spelled_of_ne (hname : u.kind ≠ .identifier ∧ u.kind ≠ .label)
    (hnumber : u.kind ≠ .integer ∧ u.kind ≠ .legacyOctal) : u.Spelled :=
  ⟨fun h => (h.elim hname.1 hname.2).elim, fun h => (h.elim hnumber.1 hnumber.2).elim⟩

lemma spelled_beginKind (o : Opening) (text : String) (span : Span) (spaced ambiguous : Bool) :
    Token.Spelled ⟨o.flavor.beginKind, text, span, spaced, ambiguous⟩ := by
  cases hflavor : o.flavor <;>
    exact spelled_of_ne (by simp [Flavor.beginKind]) (by simp [Flavor.beginKind])

namespace OfRead

/-- One more token was read. -/
lemma push (h : ∀ u ∈ r.tokens, P u) (htokens : r'.tokens = u :: r.tokens) (hu : P u) :
    ∀ u ∈ r'.tokens, P u := by
  rw [htokens]
  exact List.forall_mem_cons.mpr ⟨hu, h⟩

lemma content (hP : OfRead P) (h : ∀ u ∈ s.snapshot.tokens, P u) (hmove : Content s t) :
    ∀ u ∈ t.snapshot.tokens, P u := by
  obtain ⟨l, l', outer, stop, n, hmodes, hends, rfl⟩ := hmove
  rcases snapshot_emitContent (s := { s with modes := .literal l' :: outer }) n with
    ⟨hsnap, -⟩ | ⟨-, hsnap⟩
  · rw [hsnap]
    exact h
  · rw [hsnap]
    exact push h rfl (hP.inside _ (by simp [insideKinds]))

theorem forward (hP : OfRead P) (h : ∀ u ∈ s.snapshot.tokens, P u)
    (hnested : ∀ o t, s.InCode → s.heredocOpener? = some o → nested (s.bodyScanner o) = some t →
      ∀ u ∈ t.snapshot.tokens, P u)
    (hmove : Forward nested s s') : ∀ u ∈ s'.snapshot.tokens, P u := by
  cases hmove with
  | blank n code piece core_eq | document n code top word ended core_eq
  | stray cause n code pos ahead core_eq =>
    rw [snapshot_eq_of_core core_eq]
    exact h
  | token ms kind n spaced code layers plain pos ahead core_eq spelled =>
    rw [snapshot_eq_of_core core_eq]
    exact push h rfl (hP.read s kind n spaced false pos ahead spelled)
  | faulty cause k kind n spaced code plain pos ahead core_eq spelled =>
    rw [snapshot_eq_of_core core_eq]
    exact push h rfl (hP.read s kind n spaced false pos ahead spelled)
  | jump t resume rest code lineBreak read pending core_eq =>
    rw [snapshot_eq_of_core core_eq]
    rcases read with rfl | rfl
    · exact push h rfl (hP.read s .newline 1 false false Nat.one_pos (by simp [lineBreak])
        (spelled_of_ne (by simp) (by simp)))
    · exact h
  | heredoc o spaced body code opener read core_eq =>
    rw [snapshot_eq_of_core core_eq]
    obtain ⟨⟨after, hrest⟩, hlength⟩ := rest_of_heredocOpener? opener
    have hbegin := hP.read s .stringBegin o.length spaced false (Nat.lt_of_succ_lt hlength)
      (by simp [hrest]) (spelled_of_ne (by simp) (by simp))
    refine List.forall_mem_cons.mpr ⟨hP.inside _ (by simp [insideKinds, Token.empty]), ?_⟩
    refine List.forall_mem_append.mpr ⟨hnested o body code opener read, ?_⟩
    exact List.forall_mem_cons.mpr ⟨hbegin, h⟩
  | begin o spaced code pos ahead core_eq =>
    rw [snapshot_eq_of_core core_eq, snapshot_beginLiteral]
    exact push h rfl (hP.read s _ _ _ _ pos ahead (spelled_beginKind o _ _ _ _))
  | endInterpolation spaced mode outer rest modes brace core_eq =>
    rw [snapshot_eq_of_core core_eq]
    exact push h rfl (hP.inside _ (by simp [insideKinds]))
  | beginInterpolation l outer modes stop core_eq =>
    rw [snapshot_eq_of_core core_eq]
    exact push h rfl (hP.inside _ (by simp [insideKinds]))
  | abandon l outer modes stop core_eq =>
    rw [snapshot_eq_of_core core_eq, snapshot_abandonLiteral]
    exact push h rfl (hP.inside _ (by simp [insideKinds, Token.empty]))
  | close l outer modes stop core_eq =>
    rw [snapshot_eq_of_core core_eq, snapshot_closeLiteral]
    exact push h rfl (hP.inside _ (by simp [insideKinds]))
  | endBody l outer modes open_ stop core_eq =>
    rw [snapshot_eq_of_core core_eq]
    exact h

/-- What closes at the end of the text is a mark of a literal. -/
lemma dropMode (hP : OfRead P) (h : ∀ u ∈ s.snapshot.tokens, P u) (m : Mode) (outer : List Mode) :
    ∀ u ∈ (s.dropMode m outer).snapshot.tokens, P u := by
  cases m with
  | code d =>
    rw [snapshot_dropMode_code]
    exact push h rfl (hP.inside _ (by simp [insideKinds, Token.empty]))
  | literal l =>
    cases hclose : l.close with
    | none =>
      rw [snapshot_dropMode_body hclose]
      exact h
    | some c =>
      rw [snapshot_dropMode_literal (by simp [hclose])]
      exact push h rfl (hP.inside _ (by simp [insideKinds, Token.empty]))

theorem kept (hP : OfRead P) : Kept fun r => ∀ u ∈ r.tokens, P u where
  content _ h hmove := hP.content h hmove
  body _ _ _ := by simp [bodyScanner, ofBody, ofCursor]
  forward _ h hnested hmove :=
    hP.forward h (fun o t hcode ho ht => (hnested o t hcode ho ht).1) hmove
  close _ _ _ h := hP.dropMode h _ _

/-- Every token of a text has such a property. -/
theorem of_run (hP : OfRead P) {source : List Char} {fuel : ℕ}
    (h : run fuel (ofText source) = some t) : ∀ u ∈ t.tokens, P u := by
  have hstart : ∀ u ∈ (ofText source).snapshot.tokens, P u := by simp [ofText, ofCursor]
  exact (hP.kept.run_safe fuel _ _ h (.outer (sound_ofText hstart))).1.holds

end OfRead

/-! ### Names and integers -/

lemma ofRead_spelled : OfRead Token.Spelled where
  inside u hu := by
    simp only [insideKinds, List.mem_cons, List.not_mem_nil, or_false] at hu
    rcases hu with h | h | h | h <;> exact spelled_of_ne (by simp [h]) (by simp [h])
  read _ _ _ _ _ _ _ h := h

/-- The names and labels of a text begin with neither a dot nor a colon, and its integers have no
signs. -/
theorem spelled_of_run {source : List Char} {fuel : ℕ} (h : run fuel (ofText source) = some t) :
    ∀ u ∈ t.tokens, u.Spelled :=
  ofRead_spelled.of_run h

/-! ### Tokens that are written -/

lemma written_of_not (h : u.kind.isWritten = false) : u.Written := by
  intro hwritten
  rw [h] at hwritten
  exact absurd hwritten Bool.false_ne_true

lemma ofRead_written : OfRead Token.Written where
  inside u hu := by
    simp only [insideKinds, List.mem_cons, List.not_mem_nil, or_false] at hu
    rcases hu with h | h | h | h <;> exact written_of_not (by rw [h]; rfl)
  read _ _ _ _ _ hpos hahead _ := fun _ => Cursor.byte_lt_byte_advanceBy hpos hahead

/-- The tokens of code and the openings of literals cover some text. -/
theorem written_of_run {source : List Char} {fuel : ℕ} (h : run fuel (ofText source) = some t) :
    ∀ u ∈ t.tokens, u.Written :=
  ofRead_written.of_run h

/-! ### Tokens that are whole -/

/-- If no fault was found, the tokens that were read are whole. -/
def Intact (r : Snapshot) : Prop := r.faults = [] → ∀ u ∈ r.tokens, u.Whole

/-- Nothing was read. -/
lemma Intact.of_tokens (h : Intact r) (hfaults : r'.faults = r.faults)
    (htokens : r'.tokens = r.tokens) : Intact r' := by
  rw [Intact, hfaults, htokens]
  exact h

/-- One more token was read. -/
lemma Intact.push (h : Intact r) (hfaults : r'.faults = r.faults)
    (htokens : r'.tokens = u :: r.tokens) (hu : u.Whole) : Intact r' := by
  rw [Intact, hfaults, htokens]
  exact fun hnone => List.forall_mem_cons.mpr ⟨hu, h hnone⟩

/-- A fault was found. -/
lemma Intact.of_fault {f : Fault} {fs : List Fault} (hfaults : r.faults = f :: fs) : Intact r := by
  rw [Intact, hfaults]
  exact fun hnone => absurd hnone (List.cons_ne_nil f fs)

/-- A token inside a literal. -/
lemma whole_inside (hkind : u.kind = .stringContent ∨ u.kind = .stringEnd ∨
    u.kind = .interpolationBegin ∨ u.kind = .interpolationEnd) : u.Whole := by
  rcases hkind with h | h | h | h <;> exact Token.whole_of_ne (by simp [h])

lemma Intact.content (h : Intact s.snapshot) (hmove : Content s t) : Intact t.snapshot := by
  obtain ⟨l, l', outer, stop, n, hmodes, hends, rfl⟩ := hmove
  rcases snapshot_emitContent (s := { s with modes := .literal l' :: outer }) n with
    ⟨hsnap, -⟩ | ⟨-, hsnap⟩
  · rw [hsnap]
    exact h
  · rw [hsnap]
    exact h.push rfl rfl (whole_inside (.inl rfl))

theorem Intact.forward (h : Intact s.snapshot)
    (hnested : ∀ o t, s.InCode → s.heredocOpener? = some o → nested (s.bodyScanner o) = some t →
      Intact t.snapshot)
    (hmove : Forward nested s s') : Intact s'.snapshot := by
  cases hmove with
  | blank n code piece core_eq | document n code top word ended core_eq
  | endBody l outer modes open_ stop core_eq =>
    rw [snapshot_eq_of_core core_eq]
    exact h.of_tokens rfl rfl
  | stray cause n code pos ahead core_eq
  | faulty cause k kind n spaced code plain pos ahead core_eq =>
    rw [snapshot_eq_of_core core_eq]
    exact .of_fault rfl
  | abandon l outer modes stop core_eq =>
    rw [snapshot_eq_of_core core_eq, snapshot_abandonLiteral]
    exact .of_fault rfl
  | token ms kind n spaced code layers plain pos ahead core_eq spelled whole =>
    rw [snapshot_eq_of_core core_eq]
    exact h.push rfl rfl whole
  | jump t resume rest code lineBreak read pending core_eq =>
    rw [snapshot_eq_of_core core_eq]
    rcases read with rfl | rfl
    · exact h.push rfl rfl (Token.whole_of_ne (by simp))
    · exact h.of_tokens rfl rfl
  | heredoc o spaced body code opener read core_eq =>
    rw [snapshot_eq_of_core core_eq]
    intro hnone
    obtain ⟨hbody, hrest⟩ := List.append_eq_nil_iff.mp hnone
    obtain ⟨-, hbefore⟩ := List.append_eq_nil_iff.mp hrest
    refine List.forall_mem_cons.mpr ⟨whole_inside (.inr (.inl rfl)), ?_⟩
    refine List.forall_mem_append.mpr ⟨hnested o body code opener read hbody, ?_⟩
    exact List.forall_mem_cons.mpr ⟨Token.whole_of_ne (by simp), h hbefore⟩
  | begin o spaced code pos ahead core_eq =>
    rw [snapshot_eq_of_core core_eq, snapshot_beginLiteral]
    refine h.push rfl rfl (Token.whole_of_ne ?_)
    cases hflavor : o.flavor <;> simp [openingToken, Flavor.beginKind, hflavor]
  | endInterpolation spaced mode outer rest modes brace core_eq =>
    rw [snapshot_eq_of_core core_eq]
    exact h.push rfl rfl (whole_inside (.inr (.inr (.inr rfl))))
  | beginInterpolation l outer modes stop core_eq =>
    rw [snapshot_eq_of_core core_eq]
    exact h.push rfl rfl (whole_inside (.inr (.inr (.inl rfl))))
  | close l outer modes stop core_eq =>
    rw [snapshot_eq_of_core core_eq, snapshot_closeLiteral]
    exact h.push rfl rfl (whole_inside (.inr (.inl rfl)))

/-- What closes at the end of the text is code inside a literal, or a fault. -/
lemma Intact.dropMode (h : Intact s.snapshot) (m : Mode) (outer : List Mode) :
    Intact (s.dropMode m outer).snapshot := by
  cases m with
  | code d =>
    rw [snapshot_dropMode_code]
    exact h.push rfl rfl (whole_inside (.inr (.inr (.inr rfl))))
  | literal l =>
    cases hclose : l.close with
    | none =>
      rw [snapshot_dropMode_body hclose]
      exact h.of_tokens rfl rfl
    | some c =>
      rw [snapshot_dropMode_literal (by simp [hclose])]
      exact .of_fault rfl

theorem intact_kept : Kept Intact where
  content _ h hmove := h.content hmove
  body _ _ _ := by simp [Intact, bodyScanner, ofBody, ofCursor]
  forward _ h hnested hmove := h.forward (fun o t hcode ho ht => (hnested o t hcode ho ht).1) hmove
  close _ _ _ h := h.dropMode _ _

/-- If no fault was found in a text, its tokens are whole. -/
theorem whole_of_run {source : List Char} {fuel : ℕ} (h : run fuel (ofText source) = some t)
    (hnone : t.faults = []) : ∀ u ∈ t.tokens, u.Whole := by
  have hstart : Intact (ofText source).snapshot := by simp [Intact, ofText, ofCursor]
  have hintact : Intact t.snapshot :=
    (intact_kept.run_safe fuel _ _ h (.outer (sound_ofText hstart))).1.holds
  exact hintact hnone

end RubyCheck.Scanner
