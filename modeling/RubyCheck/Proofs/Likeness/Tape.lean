import RubyCheck.Proofs.Likeness.Basic
import RubyCheck.Proofs.Token.Tape

/-!
# Tapes that are alike

Reading moves over like tokens in the same way.  Whether the first token of a text is set off may differ
between two texts that are alike, and it can be seen only as long as nothing was consumed; so behind the
first token two tapes show the same (`Tape.Like`, with `settled`), and wherever one goes the other one
goes as well.
-/

namespace RubyCheck.Tape

variable (L : Likeness)

/-- The same tape in both texts.  Only a current token in front of which nothing was consumed may be set
off in one of them alone, and never the last one. -/
structure Like (settled : Bool) (t t' : Tape) : Prop where
  consumed : Option.Rel (Token.Like L) t.consumed t'.consumed
  current : t.current.Like L t'.current
  spaced : t'.current.spaced = t.current.spaced ∨ settled = false ∧ t.atEnd = false
  ahead : List.Forall₂ (Token.Same L) t.ahead t'.ahead
  ends : t.Ends

namespace Like

variable {L} {settled : Bool} {t t' : Tape}

/-- Tapes that are alike where they have settled are alike. -/
lemma weaken (h : t.Like L true t') : t.Like L settled t' := by
  have hspaced : t'.current.spaced = t.current.spaced := by simpa using h.spaced
  exact { h with spaced := .inl hspaced }

/-! ### What is seen -/

/-- The current tokens are of one kind. -/
lemma kind_eq (h : t.Like L settled t') : t'.kind = t.kind := h.current.kind

/-- Both tapes are at the end of the text or neither is. -/
lemma atEnd_eq (h : t.Like L settled t') : t'.atEnd = t.atEnd := h.current.isEof

/-- The previous tokens are alike. -/
lemma previous (h : t.Like L settled t') : t.previous.Like L t'.previous := by
  have hconsumed := h.consumed
  unfold Tape.previous
  generalize t.consumed = u at hconsumed ⊢
  generalize t'.consumed = u' at hconsumed ⊢
  cases hconsumed with
  | some hu => exact hu
  | none => exact h.current

/-- The next tokens are alike. -/
lemma next (h : t.Like L settled t') : t.next.Like L t'.next := by
  have hahead := h.ahead
  unfold Tape.next
  generalize t.ahead = us at hahead ⊢
  generalize t'.ahead = us' at hahead ⊢
  cases hahead with
  | nil => exact h.current
  | cons hu _ => exact hu.toLike

/-- Behind the first token the current one is the same. -/
lemma current_same (h : t.Like L true t') : t.current.Same L t'.current :=
  ⟨h.current, by simpa using h.spaced⟩

/-- Where the tapes have settled, the next tokens are set off in both texts or in neither. -/
lemma next_same (h : t.Like L true t') : t.next.Same L t'.next := by
  have hcurrent := h.current_same
  have hahead := h.ahead
  unfold Tape.next
  generalize t.ahead = us at hahead ⊢
  generalize t'.ahead = us' at hahead ⊢
  cases hahead with
  | nil => exact hcurrent
  | cons hu _ => exact hu

/-! ### Where tapes go -/

section Moves

variable {consumed consumed' : Option Token} {u u' : Token} {us us' : List Token}

/-- Tapes that are alike settle by one step. -/
lemma step {v v' : Token} (h : Like L settled ⟨consumed, v, u :: us⟩ ⟨consumed', v', u' :: us'⟩) :
    Like L true ⟨some v, u, us⟩ ⟨some v', u', us'⟩ := by
  cases h.ahead with
  | cons hu hus => exact ⟨.some h.current, hu.toLike, .inl hu.spaced, hus, onward_ends h.ends⟩

/-- Where the one tape has no token ahead, neither has the other one; and the current one is the same. -/
lemma ahead_eq_nil (h : Like L settled ⟨consumed, u, []⟩ ⟨consumed', u', us'⟩) : us' = [] :=
  List.forall₂_nil_left_iff.mp h.ahead

/-- If one of them has a token ahead, so has the other. -/
lemma exists_ahead {v v' : Token}
    (h : Like L settled ⟨consumed, v, u :: us⟩ ⟨consumed', v', us'⟩) :
    ∃ u' us'', us' = u' :: us'' := by
  cases h.ahead with
  | cons _ _ => exact ⟨_, _, rfl⟩

end Moves

/-- Tapes that are alike pass over the same tokens. -/
lemma passOver (p : TokenKind → Bool) (h : t.Like L settled t') :
    (t.passOver p).Like L settled (t'.passOver p) := by
  obtain ⟨consumed, v, us⟩ := t
  obtain ⟨consumed', v', us'⟩ := t'
  change Like L settled (Tape.passOver.go p consumed v us) (Tape.passOver.go p consumed' v' us')
  induction us generalizing settled consumed consumed' v v' us' with
  | nil =>
    obtain rfl := h.ahead_eq_nil
    exact h
  | cons u us ih =>
    obtain ⟨u', us', rfl⟩ := h.exists_ahead
    have hkind : v'.kind = v.kind := h.current.kind
    rw [Tape.passOver.go, Tape.passOver.go, hkind]
    split
    · apply weaken
      exact ih _ _ _ _ _ h.step
    · exact h

/-- Tapes that are alike both go to the last token. -/
lemma toLast (h : t.Like L settled t') : t.toLast.Like L settled t'.toLast := by
  obtain ⟨consumed, v, us⟩ := t
  obtain ⟨consumed', v', us'⟩ := t'
  change Like L settled (Tape.toLast.go consumed v us) (Tape.toLast.go consumed' v' us')
  induction us generalizing settled consumed consumed' v v' us' with
  | nil =>
    obtain rfl := h.ahead_eq_nil
    exact h
  | cons u us ih =>
    obtain ⟨u', us', rfl⟩ := h.exists_ahead
    rw [Tape.toLast.go, Tape.toLast.go]
    apply weaken
    exact ih _ _ _ _ _ h.step

/-- Tapes that are alike both go to the end of the statement. -/
lemma synchronize (h : t.Like L settled t') : t.synchronize.Like L settled t'.synchronize := by
  obtain ⟨consumed, v, us⟩ := t
  obtain ⟨consumed', v', us'⟩ := t'
  unfold Tape.synchronize
  generalize 0 = depth
  generalize false = moved
  induction us generalizing settled depth moved consumed consumed' v v' us' with
  | nil =>
    obtain rfl := h.ahead_eq_nil
    exact h
  | cons u us ih =>
    obtain ⟨u', us', rfl⟩ := h.exists_ahead
    have hkind : v'.kind = v.kind := h.current.kind
    have heof : v'.isEof = v.isEof := h.current.isEof
    simp only [Tape.synchronize.go, hkind, heof]
    split
    · exact h
    split
    · exact h.step.weaken
    · apply weaken
      apply ih
      exact h.step

/-- Behind the current token the tapes have settled. -/
lemma advance (h : t.Like L settled t') : t.advance.Like L true t'.advance := by
  obtain ⟨consumed, v, us⟩ := t
  obtain ⟨consumed', v', us'⟩ := t'
  cases us with
  | nil =>
    obtain rfl := h.ahead_eq_nil
    have hend : v.kind = .eof := h.ends
    have hspaced : v'.spaced = v.spaced := by
      simpa [Tape.atEnd, Token.isEof, hend] using h.spaced
    exact { h with spaced := .inl hspaced }
  | cons u us =>
    obtain ⟨u', us', rfl⟩ := h.exists_ahead
    have hadvance (consumed : Option Token) (v u : Token) (us : List Token) :
        Tape.advance ⟨consumed, v, u :: us⟩ =
          if v.isEof then ⟨consumed, v, u :: us⟩ else ⟨some v, u, us⟩ := rfl
    have heof : v'.isEof = v.isEof := h.current.isEof
    rw [hadvance, hadvance, heof]
    split
    · rename_i hend
      have hspaced : v'.spaced = v.spaced := by simpa [Tape.atEnd, hend] using h.spaced
      exact { h with spaced := .inl hspaced }
    · exact h.step

/-- A token that is consumed and breaks no line is taken from both texts. -/
lemma previous_advance (h : t.Like L settled t') (hsolid : t.kind.isSolid = true) :
    t.advance.previous.Taken L t'.advance.previous := by
  have hconsumable := h.ends.consumable (TokenKind.ne_eof_of_isSolid hsolid)
  refine ⟨h.advance.previous, ?_⟩
  rw [hconsumable.previous_advance]
  exact h.current.spells (TokenKind.ne_newline_of_isSolid hsolid)

end Like

end RubyCheck.Tape
