import Mathlib.Data.List.Basic
import RubyCheck.Proofs.Token.Tape

/-!
# Tokens in front of other tokens

A tape can be laid in front of another one, so that the tokens of the other one stand where its last
token stood (`Tape.before`).  As long as reading does not come to its last token, it goes over the
same tokens on both (`Tape.Over`).  The parentheses and square brackets that are open behind some
tokens (`Tape.openBehind`) tell whether looking ahead for their closers ends among those tokens.
-/

namespace RubyCheck

/-- How many parentheses and square brackets are open behind a token of a kind. -/
def TokenKind.turn (depth : ℕ) : TokenKind → ℕ
  | .punct .lParen | .punct .lBracket => depth + 1
  | .punct .rParen | .punct .rBracket => depth - 1
  | _ => depth

namespace Tape

variable {consumed : Option Token} {t u : Token} {ts us C C' : List Token}
  {tape tape' tape'' outer : Tape} {p : TokenKind → Bool} {d d' : ℕ}

/-! ### Open brackets -/

/-- How many parentheses and square brackets are open behind some tokens. -/
def openBehind (depth : ℕ) (ts : List Token) : ℕ := ts.foldl (fun depth t => t.kind.turn depth) depth

@[simp] lemma openBehind_nil : openBehind d [] = d := rfl

@[simp] lemma openBehind_cons : openBehind d (t :: ts) = openBehind (t.kind.turn d) ts := rfl

/-- Brackets are counted through one part of the tokens after another. -/
lemma openBehind_append : openBehind d (ts ++ us) = openBehind (openBehind d ts) us :=
  List.foldl_append

/-- Of more open brackets, at least as many stay open behind a token. -/
lemma turn_mono (k : TokenKind) (h : d ≤ d') : k.turn d ≤ k.turn d' := by
  unfold TokenKind.turn
  split <;> omega

/-- Of more open brackets, at least as many stay open behind any tokens. -/
lemma openBehind_mono (ts : List Token) (h : d ≤ d') : openBehind d ts ≤ openBehind d' ts := by
  induction ts generalizing d d' with
  | nil => exact h
  | cons t ts ih => exact ih (turn_mono t.kind h)

/-- What is not open in the end although something was open before, is not open without that. -/
lemma openBehind_eq_zero (h : openBehind d ts = 0) : openBehind 0 ts = 0 := by
  have hle := openBehind_mono ts (Nat.zero_le d)
  omega

/-! ### The tokens that a tape went over -/

/-- A tape that went over some tokens. -/
structure Over (C : List Token) (tape tape' : Tape) : Prop where
  tokens : tape.current :: tape.ahead = C ++ tape'.current :: tape'.ahead
  consumed : tape'.consumed = C.getLast?.or tape.consumed

namespace Over

/-- A tape that does not move goes over nothing. -/
lemma refl (tape : Tape) : Over [] tape tape := ⟨rfl, rfl⟩

/-- A single step goes over the current token. -/
lemma next : Over [t] ⟨consumed, t, u :: us⟩ ⟨some t, u, us⟩ := ⟨rfl, rfl⟩

/-- One way behind another goes over the tokens of both. -/
lemma trans (h : Over C tape tape') (h' : Over C' tape' tape'') : Over (C ++ C') tape tape'' where
  tokens := by rw [h.tokens, h'.tokens, List.append_assoc]
  consumed := by rw [h'.consumed, h.consumed, List.getLast?_append, Option.or_assoc]

/-- Passing over tokens of some kinds goes over such tokens only. -/
lemma passOver (p : TokenKind → Bool) (tape : Tape) :
    ∃ C, (∀ t ∈ C, p t.kind = true) ∧ Over C tape (tape.passOver p) := by
  obtain ⟨consumed, t, ahead⟩ := tape
  change ∃ C, _ ∧ Over C _ (passOver.go p consumed t ahead)
  induction ahead generalizing consumed t with
  | nil => exact ⟨[], by simp, refl _⟩
  | cons u us ih =>
    unfold passOver.go
    split
    · rename_i hp
      obtain ⟨C, hC, hover⟩ := ih (some t) u
      exact ⟨t :: C, List.forall_mem_cons.mpr ⟨hp, hC⟩, next.trans hover⟩
    · exact ⟨[], by simp, refl _⟩

end Over

/-! ### The tokens in front of the last one -/

/-- The tokens from the current one on, without the last one. -/
def pending (tape : Tape) : List Token := (tape.current :: tape.ahead).dropLast

@[simp] lemma pending_cons : pending ⟨consumed, t, u :: us⟩ = t :: pending ⟨some t, u, us⟩ := rfl

/-- No token is in front of the last one just if the last one is the current one. -/
lemma pending_eq_nil : tape.pending = [] ↔ tape.ahead = [] := by
  obtain ⟨consumed, t, ahead⟩ := tape
  cases ahead with
  | nil => simp [pending]
  | cons u us => simp

/-- What holds of all tokens in front of the last one goes on to hold of them. -/
lemma onward_pending (P : Token → Prop) : Onward fun tape => ∀ t ∈ tape.pending, P t :=
  fun _ _ _ _ h => (List.forall_mem_cons.mp h).2

/-- The current token is one of them, if any is left. -/
lemma current_mem_pending (h : tape.ahead ≠ []) : tape.current ∈ tape.pending := by
  obtain ⟨consumed, t, ahead⟩ := tape
  obtain ⟨u, us, rfl⟩ := List.exists_cons_of_ne_nil h
  exact List.mem_cons_self

/-- The tokens gone over are the first of those in front of the last one. -/
lemma Over.pending (h : Over C tape tape') : tape.pending = C ++ tape'.pending := by
  rw [Tape.pending, h.tokens, List.dropLast_append_of_ne_nil (List.cons_ne_nil _ _)]
  rfl

/-- The tokens in front of the last one end in a line break. -/
def EndsInBreak (tape : Tape) : Prop := ∀ t ∈ tape.pending.getLast?, t.kind = .newline

/-- That the last of them breaks the line stays so. -/
lemma onward_endsInBreak : Onward EndsInBreak := by
  intro consumed t u us h l hl
  refine h l ?_
  rw [pending_cons, List.getLast?_cons]
  rw [Option.mem_def] at hl
  rw [hl]
  rfl

/-- Nothing that is opened in front of the last token is still open there. -/
def Closes (tape : Tape) : Prop := openBehind 0 tape.pending = 0

/-- That they close the brackets they open stays so. -/
lemma onward_closes : Onward Closes := by
  intro consumed t u us h
  exact openBehind_eq_zero (d := t.kind.turn 0) h

/-- If something stands in front of the last token, so does a line break. -/
lemma EndsInBreak.next (h : EndsInBreak ⟨consumed, t, u :: us⟩) (ht : t.kind ≠ .newline) :
    us ≠ [] := by
  rintro rfl
  exact ht (h t (by simp [pending]))

/-! ### In front of another tape -/

/-- A tape in front of another one. -/
def before : Tape → Tape → Tape
  | ⟨consumed, _, []⟩, outer => { outer with consumed := consumed.or outer.consumed }
  | ⟨consumed, t, u :: us⟩, outer =>
    ⟨consumed.or outer.consumed, t, (u :: us).dropLast ++ outer.current :: outer.ahead⟩

/-- In front of another tape, the current token is the same until the last one. -/
lemma current_before (h : tape.ahead ≠ []) : (tape.before outer).current = tape.current := by
  obtain ⟨consumed, t, ahead⟩ := tape
  obtain ⟨u, us, rfl⟩ := List.exists_cons_of_ne_nil h
  rfl

/-- In front of another tape, the current token is of the same kind until the last one. -/
lemma kind_before (h : tape.ahead ≠ []) : (tape.before outer).kind = tape.kind :=
  congrArg Token.kind (current_before h)

/-- What was consumed is what this tape consumed, or the other one if it has not moved. -/
lemma consumed_before (tape outer : Tape) :
    (tape.before outer).consumed = tape.consumed.or outer.consumed := by
  obtain ⟨consumed, t, ahead⟩ := tape
  cases ahead with
  | nil => rfl
  | cons u us => rfl

/-- The tokens of the other tape stand where the last token stood. -/
lemma tokens_before (tape outer : Tape) :
    (tape.before outer).current :: (tape.before outer).ahead =
      tape.pending ++ outer.current :: outer.ahead := by
  obtain ⟨consumed, t, ahead⟩ := tape
  cases ahead with
  | nil => rfl
  | cons u us => rfl

/-- The previous token is the same once the tape has moved. -/
lemma previous_before (h : tape.consumed.isSome = true) :
    (tape.before outer).previous = tape.previous := by
  obtain ⟨consumed, t, ahead⟩ := tape
  obtain ⟨c, rfl⟩ := Option.isSome_iff_exists.mp h
  cases ahead with
  | nil => rfl
  | cons u us => rfl

/-- In front of the line break that ends them, the token behind the current one is the same. -/
lemma next_before (hbreak : tape.EndsInBreak) (h : tape.ahead ≠ []) (hkind : tape.kind ≠ .newline) :
    (tape.before outer).next = tape.next := by
  obtain ⟨consumed, t, ahead⟩ := tape
  obtain ⟨u, us, rfl⟩ := List.exists_cons_of_ne_nil h
  obtain ⟨v, vs, rfl⟩ := List.exists_cons_of_ne_nil (hbreak.next hkind)
  rfl

/-- The token behind the current one is consumed next. -/
lemma kind_advance (h : tape.kind ≠ .eof) : tape.advance.kind = tape.next.kind := by
  obtain ⟨consumed, t, ahead⟩ := tape
  have hnotEnd : t.isEof = false := beq_eq_false_iff_ne.mpr h
  cases ahead with
  | nil => rfl
  | cons u us => simp [advance, atEnd, hnotEnd, next, kind]

/-- One step on both. -/
lemma before_step (ht : t.kind ≠ .eof) :
    (before ⟨consumed, t, u :: us⟩ outer).advance = before ⟨some t, u, us⟩ outer := by
  have hnotEnd : t.isEof = false := by simpa [Token.isEof] using ht
  cases us with
  | nil => simp [before, advance, atEnd, hnotEnd]
  | cons v vs => simp [before, advance, atEnd, hnotEnd]

/-- A token in front of the last one is consumed alike. -/
lemma advance_before (h : tape.Consumable) :
    (tape.before outer).advance = tape.advance.before outer := by
  obtain ⟨consumed, t, u, us, rfl, hkind, hadvance⟩ := h.exists_advance
  rw [hadvance, before_step hkind]

/-- Passing over tokens in front of others goes on with those. -/
lemma passOver_before (p : TokenKind → Bool) (outer tape : Tape) :
    (tape.before outer).passOver p = ((tape.passOver p).before outer).passOver p := by
  obtain ⟨consumed, t, ahead⟩ := tape
  change _ = (before (passOver.go p consumed t ahead) outer).passOver p
  induction ahead generalizing consumed t with
  | nil => rfl
  | cons u us ih =>
    by_cases hp : p t.kind = true
    · have hstep : (before ⟨consumed, t, u :: us⟩ outer).passOver p =
          (before ⟨some t, u, us⟩ outer).passOver p := by
        cases us with
        | nil => simp [before, passOver, passOver.go, hp]
        | cons v vs => simp [before, passOver, passOver.go, hp]
      rw [hstep, ih, passOver.go, if_pos hp]
    · rw [passOver.go, if_neg hp]

/-- What stops the passing over is not passed over. -/
lemma passOver_of_not (h : p tape.kind = false) : tape.passOver p = tape := by
  obtain ⟨consumed, t, ahead⟩ := tape
  cases ahead with
  | nil => rfl
  | cons u us =>
    have hp : p t.kind = false := h
    simp [passOver, passOver.go, hp]

/-- Passing over tokens ends at one of another kind, or at the last. -/
lemma kind_passOver (h : (tape.passOver p).ahead ≠ []) : p (tape.passOver p).kind = false := by
  obtain ⟨consumed, t, ahead⟩ := tape
  change p (passOver.go p consumed t ahead).kind = false
  replace h : (passOver.go p consumed t ahead).ahead ≠ [] := h
  induction ahead generalizing consumed t with
  | nil => exact absurd rfl h
  | cons u us ih =>
    unfold passOver.go at h ⊢
    split
    · rename_i hp
      rw [if_pos hp] at h
      exact ih _ _ h
    · rename_i hp
      simpa [kind] using hp

/-- If the tokens that are passed over end in front of the last one, nothing changes. -/
lemma before_passOver (h : (tape.passOver p).ahead ≠ []) :
    (tape.before outer).passOver p = (tape.passOver p).before outer := by
  rw [passOver_before, passOver_of_not]
  rw [kind_before h]
  exact kind_passOver h

end Tape

end RubyCheck
