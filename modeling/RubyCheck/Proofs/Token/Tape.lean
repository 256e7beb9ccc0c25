import Mathlib.Tactic.Common
import RubyCheck.Grammar.Operation
import RubyCheck.Token.Tape

/-!
# Moving over a tape

Reading moves a tape over its tokens in few ways, and each of them is a number of single steps: over
tokens that are not the end of the text (`Tape.Steps`), or over everything up to the last token.
What every single step keeps is `Onward`.  The last token being the end of the text (`Tape.Ends`) is
kept so, and makes sure that a token in front of the end is really consumed.

Of the kinds of tokens, a solid one neither breaks lines nor ends the text, and a flat one opens and
closes no brackets either.  What productions look for as a name or an operator is flat.
-/

namespace RubyCheck

/-- Whether a token of some kind always covers some text: a token of code does, and the opening of
a literal.  A delimiter that closes a literal, or the code in it, need not be written. -/
def TokenKind.isWritten : TokenKind → Bool
  | .stringContent | .stringEnd | .interpolationBegin | .interpolationEnd | .eof => false
  | _ => true

/-- Whether tokens of a kind neither break lines nor end the text. -/
def TokenKind.isSolid : TokenKind → Bool
  | .newline | .eof => false
  | _ => true

/-- A solid kind is no line break. -/
lemma TokenKind.ne_newline_of_isSolid {k : TokenKind} (h : k.isSolid = true) : k ≠ .newline := by
  rintro rfl
  cases h

/-- A solid kind is not the end of the text. -/
lemma TokenKind.ne_eof_of_isSolid {k : TokenKind} (h : k.isSolid = true) : k ≠ .eof := by
  rintro rfl
  cases h

/-- Whether tokens of a kind neither break lines, nor end the text, nor open or close brackets. -/
def TokenKind.isFlat : TokenKind → Bool
  | .newline | .eof
  | .punct .lParen | .punct .lBracket | .punct .rParen | .punct .rBracket => false
  | _ => true

/-- A flat kind is solid. -/
lemma TokenKind.isSolid_of_isFlat {k : TokenKind} (h : k.isFlat = true) : k.isSolid = true := by
  unfold isSolid
  split
  all_goals first | rfl | simp [isFlat] at h

/-- A token that covers some text, if its kind always does. -/
def Token.Written (t : Token) : Prop :=
  t.kind.isWritten = true → t.span.start.byte < t.span.stop.byte

namespace Grammar

/-! ### Kinds of tokens that productions look for -/

/-- What names a method is flat. -/
lemma isFlat_of_namesMethod {k : TokenKind} (h : namesMethod k = true) : k.isFlat = true := by
  cases k with
  | punct mark => cases mark with
    | lParen | rParen | lBracket | rBracket => exact absurd h (by decide)
    | _ => rfl
  | newline | eof => exact absurd h (by decide)
  | _ => rfl

/-- What a method may be defined on is flat. -/
lemma isFlat_of_namesOwner {t next : Token} (h : namesOwner t next = true) :
    t.kind.isFlat = true := by
  obtain ⟨hkind, -⟩ := Bool.and_eq_true_iff.mp h
  rcases Bool.or_eq_true_iff.mp hkind with hkind | hkind
  · rcases Bool.or_eq_true_iff.mp hkind with hkind | hkind
    · rw [eq_of_beq hkind]; rfl
    · rw [eq_of_beq hkind]; rfl
  · rw [eq_of_beq hkind]; rfl

/-- The operator of a range is flat. -/
lemma isFlat_of_isRangeOperator {k : TokenKind} (h : isRangeOperator k = true) :
    k.isFlat = true := by
  rcases Bool.or_eq_true_iff.mp h with h | h
  · rw [eq_of_beq h]; rfl
  · rw [eq_of_beq h]; rfl

/-- Arguments are opened by a parenthesis. -/
lemma kind_of_opensArguments {t : Token} (h : opensArguments t = true) : t.kind = .punct .lParen :=
  eq_of_beq (Bool.and_eq_true_iff.mp h).1

end Grammar

namespace Tape

variable {consumed : Option Token} {t u : Token} {us : List Token} {tape tape' : Tape}

/-- The number of tokens behind the current one. -/
def left (tape : Tape) : ℕ := tape.ahead.length

/-- The last token is the end of the text. -/
def Ends (tape : Tape) : Prop := (tape.ahead.getLastD tape.current).kind = .eof

/-! ### Single steps -/

/-- What stays true whenever a tape moves on by one token. -/
def Onward (P : Tape → Prop) : Prop :=
  ∀ ⦃consumed t u us⦄, P ⟨consumed, t, u :: us⟩ → P ⟨some t, u, us⟩

/-- The last token stays the end of the text. -/
lemma onward_ends : Onward Ends := by
  intro consumed t u us h
  rwa [Ends, List.getLastD_cons] at h

/-- The tokens left become no more. -/
lemma onward_left_le (n : ℕ) : Onward (left · ≤ n) := by
  intro consumed t u us h
  simp only [left, List.length_cons] at h ⊢
  omega

/-- What holds of all tokens from the current one on goes on to hold of them. -/
lemma onward_all (P : Token → Prop) : Onward fun tape => ∀ t ∈ tape.current :: tape.ahead, P t :=
  fun _ _ _ _ h => (List.forall_mem_cons.mp h).2

/-- A tape that went over some tokens, none of which is the end of the text. -/
inductive Steps : Tape → Tape → Prop
  | refl (tape : Tape) : Steps tape tape
  | next {consumed : Option Token} {t u : Token} {us : List Token} {tape : Tape} :
      t.kind ≠ .eof → Steps ⟨some t, u, us⟩ tape → Steps ⟨consumed, t, u :: us⟩ tape

/-- What every single step keeps is kept by any number of them. -/
lemma Onward.steps {P : Tape → Prop} (hP : Onward P) (h : Steps tape tape') (ht : P tape) :
    P tape' := by
  induction h with
  | refl => exact ht
  | next _ _ ih => exact ih (hP ht)

/-- What every single step keeps is kept by going to the last token at once. -/
lemma Onward.toLast {P : Tape → Prop} (hP : Onward P) (ht : P tape) : P tape.toLast := by
  obtain ⟨consumed, t, ahead⟩ := tape
  change P (toLast.go consumed t ahead)
  induction ahead generalizing consumed t with
  | nil => exact ht
  | cons u us ih => exact ih _ _ (hP ht)

/-- Behind the last token nothing is left. -/
lemma ahead_toLast (tape : Tape) : tape.toLast.ahead = [] := by
  obtain ⟨consumed, t, ahead⟩ := tape
  change (toLast.go consumed t ahead).ahead = []
  induction ahead generalizing consumed t with
  | nil => rfl
  | cons u us ih => exact ih _ _

/-- On the last token nothing is left to be passed over. -/
lemma toLast_eq (h : tape.ahead = []) : tape.toLast = tape := by
  obtain ⟨consumed, t, ahead⟩ := tape
  cases h
  rfl

/-- At the last token nothing is passed over. -/
lemma synchronize_eq (h : tape.ahead = []) : tape.synchronize = tape := by
  obtain ⟨consumed, t, ahead⟩ := tape
  cases h
  rfl

/-- At the end of the text nothing is skipped. -/
lemma synchronize_of_isEof (h : tape.current.isEof = true) : tape.synchronize = tape := by
  obtain ⟨consumed, t, ahead⟩ := tape
  change t.isEof = true at h
  cases ahead with
  | nil => rfl
  | cons u us => simp [synchronize, synchronize.go, h]

/-! ### Consuming a token -/

/-- The current token is none but the end of the text, and there is one behind it. -/
structure Consumable (tape : Tape) : Prop where
  kind : tape.kind ≠ .eof
  ahead : tape.ahead ≠ []

/-- In front of the end of the text there is always one more token. -/
lemma Ends.consumable (h : tape.Ends) (hkind : tape.kind ≠ .eof) : tape.Consumable := by
  refine ⟨hkind, fun hahead => hkind ?_⟩
  rw [Ends, hahead] at h
  exact h

namespace Consumable

/-- What consuming a token comes to. -/
lemma exists_advance (h : tape.Consumable) :
    ∃ consumed t u us, tape = ⟨consumed, t, u :: us⟩ ∧ t.kind ≠ .eof ∧
      tape.advance = ⟨some t, u, us⟩ := by
  obtain ⟨consumed, t, ahead⟩ := tape
  obtain ⟨hkind, hahead⟩ := h
  obtain ⟨u, us, rfl⟩ := List.exists_cons_of_ne_nil hahead
  refine ⟨consumed, t, u, us, rfl, hkind, ?_⟩
  have hnotEnd : ({ consumed, current := t, ahead := u :: us } : Tape).atEnd = false := by
    simpa [Tape.kind, atEnd, Token.isEof] using hkind
  simp [Tape.advance, hnotEnd]

/-- Consuming a token is a step. -/
lemma steps (h : tape.Consumable) : Steps tape tape.advance := by
  obtain ⟨consumed, t, u, us, rfl, hkind, hadvance⟩ := h.exists_advance
  rw [hadvance]
  exact .next hkind (.refl _)

/-- The token that was consumed is the previous one. -/
lemma previous_advance (h : tape.Consumable) : tape.advance.previous = tape.current := by
  obtain ⟨consumed, t, u, us, rfl, hkind, hadvance⟩ := h.exists_advance
  rw [hadvance]
  rfl

/-- The tokens in front are the current one, and those that are in front behind it. -/
lemma current_ahead (h : tape.Consumable) :
    tape.current :: tape.ahead = tape.current :: tape.advance.current :: tape.advance.ahead := by
  obtain ⟨consumed, t, u, us, rfl, hkind, hadvance⟩ := h.exists_advance
  rw [hadvance]

/-- Consuming a token leaves one less. -/
lemma left_advance (h : tape.Consumable) : tape.advance.left < tape.left := by
  obtain ⟨consumed, t, u, us, rfl, hkind, hadvance⟩ := h.exists_advance
  rw [hadvance]
  simp [left]

end Consumable

/-- At the end of the text nothing is consumed. -/
lemma steps_advance (tape : Tape) : Steps tape tape.advance := by
  obtain ⟨consumed, t, ahead⟩ := tape
  cases ahead with
  | nil => exact .refl _
  | cons u us =>
    by_cases hkind : t.kind = .eof
    · have hend : ({ consumed, current := t, ahead := u :: us } : Tape).atEnd = true := by
        simp [atEnd, Token.isEof, hkind]
      simpa [Tape.advance, hend] using Steps.refl _
    · exact Consumable.steps ⟨hkind, List.cons_ne_nil _ _⟩

/-! ### Passing over tokens -/

/-- Passing over tokens of some kinds is a number of steps, if the end of the text is not of them. -/
lemma steps_passOver {p : TokenKind → Bool} (hp : p .eof = false) (tape : Tape) :
    Steps tape (tape.passOver p) := by
  obtain ⟨consumed, t, ahead⟩ := tape
  change Steps _ (passOver.go p consumed t ahead)
  induction ahead generalizing consumed t with
  | nil => exact .refl _
  | cons u us ih =>
    unfold passOver.go
    split
    · rename_i hpasses
      refine .next ?_ (ih _ _)
      rintro hkind
      simp [hkind, hp] at hpasses
    · exact .refl _

/-- Looking for the end of a statement is a number of steps, at every depth of brackets. -/
lemma steps_synchronizeGo (depth : ℕ) (moved : Bool) (tape : Tape) :
    Steps tape (synchronize.go depth moved tape.consumed tape.current tape.ahead) := by
  obtain ⟨consumed, t, ahead⟩ := tape
  induction ahead generalizing consumed t depth moved with
  | nil => exact .refl _
  | cons u us ih =>
    simp only
    unfold synchronize.go
    split
    · exact .refl _
    · rename_i hstops
      have hkind : t.kind ≠ .eof := by
        intro hkind
        simp [Token.isEof, hkind] at hstops
      split
      · exact .next hkind (.refl _)
      · exact .next hkind (ih _ _ _ _)

/-- Going to the end of a statement is a number of steps. -/
lemma steps_synchronize (tape : Tape) : Steps tape tape.synchronize :=
  steps_synchronizeGo 0 false tape

/-- Skipping the rest of a statement moves on, unless the text ends. -/
lemma left_synchronize (h : tape.Consumable) : tape.synchronize.left < tape.left := by
  obtain ⟨consumed, t, u, us, rfl, hkind, -⟩ := h.exists_advance
  change (synchronize.go 0 false consumed t (u :: us)).left < us.length + 1
  refine Nat.lt_succ_of_le ?_
  have hbehind : left ⟨some t, u, us⟩ ≤ us.length := Nat.le_refl _
  unfold synchronize.go
  rw [if_neg (by simpa [Token.isEof] using hkind)]
  split
  · exact hbehind
  · exact (onward_left_le _).steps (steps_synchronizeGo _ _ ⟨some t, u, us⟩) hbehind

/-- A tape that has moved has consumed a token. -/
lemma onward_consumed (tape : Tape) :
    Onward fun tape' => tape' = tape ∨ tape'.consumed.isSome = true :=
  fun _ _ _ _ _ => .inr rfl

/-- Unless the text ends, something was consumed behind the rest of a statement. -/
lemma consumed_synchronize (h : tape.Ends) :
    tape.current.isEof = true ∨ tape.synchronize.consumed.isSome = true := by
  by_cases hkind : tape.kind = .eof
  · exact .inl (beq_iff_eq.mpr hkind)
  · refine .inr ?_
    have hless := left_synchronize (h.consumable hkind)
    rcases (onward_consumed tape).steps (steps_synchronize tape) (.inl rfl) with hsame | hsome
    · rw [hsame] at hless
      exact absurd hless (Nat.lt_irrefl _)
    · exact hsome

/-! ### The tokens of a tape -/

/-- The tokens on the tape of some tokens. -/
def supplied (tokens : List Token) : List Token :=
  (ofTokens tokens).current :: (ofTokens tokens).ahead

/-- Tokens that end as they should are all that there is on their tape. -/
lemma supplied_eq {tokens ts : List Token} {e : Token} (hend : tokens = ts ++ [e])
    (he : e.kind = .eof) : supplied tokens = tokens := by
  cases tokens with
  | nil => simp at hend
  | cons t rest =>
    have hlast : rest.getLastD t = e := by
      simpa [List.getLast?_cons] using congrArg List.getLast? hend
    have hending : ending (rest.getLastD t) = [] := by
      rw [hlast]
      simp [ending, Token.isEof, he]
    simpa [supplied, ofTokens] using hending

/-- The tape of a list of tokens ends in the end of the text. -/
lemma ends_ofTokens (tokens : List Token) : (ofTokens tokens).Ends := by
  cases tokens with
  | nil => rfl
  | cons t ts =>
    change ((ts ++ ending (ts.getLastD t)).getLastD t).kind = .eof
    unfold ending
    split
    · rename_i hend
      rw [List.append_nil]
      simpa [Token.isEof] using hend
    · simp [Token.empty]

/-- Behind its first token no more are left than the list has. -/
lemma left_ofTokens_le (tokens : List Token) : (ofTokens tokens).left ≤ tokens.length := by
  cases tokens with
  | nil => exact Nat.le_refl 0
  | cons t ts =>
    change (ts ++ ending (ts.getLastD t)).length ≤ ts.length + 1
    unfold ending
    split <;> simp

end Tape

end RubyCheck
