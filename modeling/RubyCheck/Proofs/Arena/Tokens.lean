import RubyCheck.Proofs.Arena.Runs
import RubyCheck.Proofs.Token.Splice

/-!
# Tokens by index and tokens on a tape

What the machine finds at an index is what the grammar finds on its tape: the index of the last token exists,
the current one and the one before it do, and no look ahead goes past the last one.
-/

namespace RubyCheck.Arena

open Grammar (State Failure Round)

variable {greatest : Option ℕ} {m : Machine} {α β γ δ : Type} {w : Array Cell} {base : ℕ}

/-! ### Machines and tapes -/

namespace Machine

/-- A sane machine has a token to stand at. -/
lemma Sane.length_pos (h : m.Sane greatest) : 0 < m.tokens.length := (Nat.zero_le _).trans_lt h.current_lt

/-- The index it stands at holds the token its state shows. -/
lemma Sane.getElem?_current (h : m.Sane greatest) :
    m.tokens[m.current]? = some m.state.tape.current := by
  simp [state, List.getElem?_eq_getElem h.current_lt]

/-- The tokens from the current one on. -/
lemma Sane.drop_current (h : m.Sane greatest) :
    m.tokens.drop m.current = m.state.tape.current :: m.state.tape.ahead := by
  rw [List.drop_eq_getElem_cons h.current_lt]
  simp [state, List.getElem?_eq_getElem h.current_lt]

/-- A token behind which there is none is the end of the text. -/
lemma Sane.isEof_of_drop (h : m.Sane greatest) {i : ℕ} {t : Token} (ht : m.tokens.drop i = [t]) :
    t.isEof = true := by
  obtain ⟨before, last, htokens, hlast⟩ := h.ends
  have heq : m.tokens.getLast? = some t := by
    rw [← List.take_append_drop i m.tokens, ht, List.getLast?_concat]
  rw [htokens, List.getLast?_concat] at heq
  rwa [← Option.some.inj heq]

/-- Nothing is ahead only of an end marker. -/
lemma Sane.isEof_of_ahead (h : m.Sane greatest) (hahead : m.state.tape.ahead = []) :
    m.state.tape.current.isEof = true :=
  h.isEof_of_drop (by rw [h.drop_current, hahead])

/-- The machine with another current token. -/
def at_ (m : Machine) (i : ℕ) : Machine := { m with current := i }

/-- Standing at another token of the list keeps a machine sane. -/
lemma Sane.at_ (h : m.Sane greatest) {i : ℕ} (hi : i < m.tokens.length) : (m.at_ i).Sane greatest where
  greatestId := h.greatestId
  ends := h.ends
  current_lt := hi
  closed := h.closed
  gaveUp := h.gaveUp

/-- A machine reaches every later index without touching its nodes. -/
lemma Sane.reaches_at (h : m.Sane greatest) {i : ℕ} (hle : m.current ≤ i) (hi : i < m.tokens.length) :
    m.Reaches greatest base (m.at_ i) :=
  ⟨h.at_ hi, rfl, rfl, rfl, rfl, hle, .refl _ _ _⟩

/-- One token further on. -/
lemma Sane.tape_succ (h : m.Sane greatest) {u : Token} {us : List Token}
    (hahead : m.state.tape.ahead = u :: us) :
    m.current + 1 < m.tokens.length ∧
      (m.at_ (m.current + 1)).state.tape = ⟨some m.state.tape.current, u, us⟩ := by
  have hdrop : m.tokens.drop (m.current + 1) = u :: us := hahead
  have hget : m.tokens[m.current + 1]? = some u := by
    rw [← Nat.add_zero (m.current + 1), ← List.getElem?_drop, hdrop]
    rfl
  have htail : m.tokens.drop (m.current + 1 + 1) = us := by
    rw [← List.drop_drop, hdrop]
    rfl
  refine ⟨(List.getElem?_eq_some_iff.mp hget).1, ?_⟩
  change Tape.mk (m.tokens.take (m.current + 1)).getLast? (m.tokens.getD (m.current + 1) default)
    (m.tokens.drop (m.current + 1 + 1)) = _
  rw [List.take_add_one, h.getElem?_current, Option.toList_some, List.getLast?_concat, htail,
    List.getD_eq_getElem?_getD, hget, Option.getD_some]

end Machine

/-! ### Looking up -/

/-- The last index is there as soon as there is a token: the subtraction does not run below zero. -/
lemma lastIndex_eq (h : 0 < m.tokens.length) : lastIndex m = .ok (m.tokens.length - 1) m := by
  change inRange (Number.minus? m.tokens.length 1) m = _
  rw [Number.minus?, if_pos (by omega)]
  rfl

/-- Looking at an index of the list gives the token there. -/
lemma tokenAt_eq {i : ℕ} {t : Token} (h : m.tokens[i]? = some t) : tokenAt i m = .ok t m := by
  change inRange m.tokens[i]? m = _
  rw [h]
  rfl

/-- A look ahead finds the token there, or the last one. -/
lemma peek_eq (h : m.Sane greatest) {offset : ℕ} {t : Token}
    (ht : m.tokens[min (m.current + offset) (m.tokens.length - 1)]? = some t) :
    peek offset m = .ok t m := by
  have hlast := lastIndex_eq h.length_pos
  change EStateM.bind lastIndex _ m = _
  rw [EStateM.bind, hlast]
  exact tokenAt_eq ht

/-- A look ahead finds the first token of what is left behind the offset. -/
lemma peek_of_drop (h : m.Sane greatest) {offset : ℕ} {t : Token} {ts : List Token}
    (ht : m.tokens.drop (m.current + offset) = t :: ts) : peek offset m = .ok t m := by
  have hget : m.tokens[m.current + offset]? = some t := by
    rw [← Nat.add_zero (m.current + offset), ← List.getElem?_drop, ht]
    rfl
  obtain ⟨hlt, -⟩ := List.getElem?_eq_some_iff.mp hget
  refine peek_eq h ?_
  rwa [Nat.min_eq_left (by omega)]

/-- A look at the offset zero finds the current token. -/
lemma peek_zero (h : m.Sane greatest) : peek 0 m = .ok m.state.tape.current m :=
  peek_of_drop h h.drop_current

/-- The token behind the current one. -/
lemma peek_one (h : m.Sane greatest) : peek 1 m = .ok m.state.tape.next m := by
  have hlt := h.current_lt
  cases hahead : m.state.tape.ahead with
  | nil =>
    have hdrop := congrArg List.length h.drop_current
    rw [hahead, List.length_drop, List.length_singleton] at hdrop
    refine peek_eq h ?_
    rw [show min (m.current + 1) (m.tokens.length - 1) = m.current by omega, h.getElem?_current,
      Tape.next, hahead, List.headD_nil]
  | cons u us =>
    rw [Tape.next, hahead]
    exact peek_of_drop h hahead

/-- Failing with one fault is failing alike. -/
lemma Runs.fail {V : Array Cell → γ → δ → Prop} (f : Fault) :
    Runs greatest w base V (Arena.fail f) (Grammar.fail f) := by
  rintro - m hm rfl
  exact .fault (hm.reaches base) fun _ => rfl

/-! ### Productions that change no node -/

/-- A production that changes no node comes to just what one of the grammar does. -/
def Exact (greatest : Option ℕ) {α : Type} (p : Parser α) (q : Grammar.Parser α) : Prop :=
  ∀ w base, Runs greatest w base (fun w' a b => w' = w ∧ a = b) p q

namespace Exact

variable {V : Array Cell → γ → δ → Prop} {p p' : Parser α} {q q' : Grammar.Parser α}
  {f : α → Parser γ} {g : α → Grammar.Parser δ}

/-- A production that only looks. -/
lemma view {φ : State → α} (h : ∀ m, m.Sane greatest → p m = .ok (φ m.state) m) :
    Exact greatest p (Grammar.view φ) := by
  rintro w base - m hm rfl
  rw [h m hm]
  exact .ok (hm.reaches base) ⟨rfl, rfl⟩ fun _ => rfl

/-- A production that goes from one state to another. -/
lemma move {p : Parser Unit} {φ : State → State}
    (h : ∀ m, m.Sane greatest → ∃ m', p m = .ok () m' ∧ m.Reaches greatest m.nodes.size m' ∧
      m'.nodes = m.nodes ∧ m'.state = φ m.state) :
    Exact greatest p (modify φ) := by
  rintro w base hbase m hm rfl
  obtain ⟨m', hp, hreaches, hnodes, hstate⟩ := h m hm
  rw [hp]
  exact .ok (hreaches.mono hbase) ⟨hnodes, rfl⟩ fun _ => congrArg (EStateM.Result.ok ()) hstate.symm

/-- Giving back a value moves nothing. -/
lemma pure (a : α) : Exact greatest (Pure.pure a) (Pure.pure a) := fun _ _ => .pure ⟨rfl, rfl⟩

/-- What is done behind a production that changes no node. -/
lemma runs (hp : Exact greatest p q) (hf : ∀ a, Runs greatest w base V (f a) (g a)) :
    Runs greatest w base V (p >>= f) (q >>= g) := by
  refine (hp w base).seq fun w' a b _ hab => ?_
  obtain ⟨rfl, rfl⟩ := hab
  exact hf a

/-- What is made of exact parts in a row is exact. -/
lemma bind {f : α → Parser γ} {g : α → Grammar.Parser γ} (hp : Exact greatest p q)
    (hf : ∀ a, Exact greatest (f a) (g a)) : Exact greatest (p >>= f) (q >>= g) :=
  fun w base => hp.runs fun a => hf a w base

/-- A choice between exact productions by one condition is exact. -/
lemma ite {x : Prop} [Decidable x] (hp : Exact greatest p q) (hp' : Exact greatest p' q') :
    Exact greatest (if x then p else p') (if x then q else q') :=
  fun w base => .ite (hp w base) (hp' w base)

/-- Throwing a result away keeps a production exact. -/
lemma discard (hp : Exact greatest p q) : Exact greatest (discard p) (discard q) :=
  hp.bind fun _ => .pure ()

end Exact

/-! ### The current token and its neighbours -/

namespace Exact

/-- Both show the same current token. -/
lemma current : Exact greatest Arena.current Grammar.current :=
  view fun _ => peek_zero

/-- Both show its kind. -/
lemma kind : Exact greatest Arena.kind Grammar.kind :=
  current.bind fun t => .pure t.kind

/-- Both compare it with a kind alike. -/
lemma check (k : TokenKind) : Exact greatest (Arena.check k) (Grammar.check k) :=
  kind.bind fun k' => .pure (k' == k)

/-- Both see the end of the tokens alike. -/
lemma atEnd : Exact greatest Arena.atEnd Grammar.atEnd :=
  current.bind fun t => .pure t.isEof

/-- Both show the same position. -/
lemma here : Exact greatest Arena.here Grammar.here :=
  current.bind fun t => .pure t.span.start

/-- The token before the current one, which is the first one in front of all. -/
lemma previous : Exact greatest Arena.previous (Grammar.view (·.tape.previous)) := by
  refine view fun m hm => tokenAt_eq ?_
  change m.tokens[m.current - 1]? =
    some ((m.tokens.take m.current).getLast?.getD m.state.tape.current)
  cases hcurrent : m.current with
  | zero => simpa [hcurrent] using hm.getElem?_current
  | succ i =>
    have hi : i < m.tokens.length := by
      have := hm.current_lt
      omega
    rw [List.take_add_one, List.getElem?_eq_getElem hi, Option.toList_some, List.getLast?_concat]
    exact List.getElem?_eq_getElem hi

/-- Both show the same next token. -/
lemma next : Exact greatest (peek 1) (Grammar.view (·.tape.next)) := view fun _ => peek_one

end Exact

/-! ### Moving on -/

/-- What became of a machine that only moved on, seen as a tape. -/
def Moves (m : Machine) (r : EStateM.Result Stop Machine Unit) (tape : Tape) : Prop :=
  ∃ i, m.current ≤ i ∧ i < m.tokens.length ∧ r = .ok () (m.at_ i) ∧ (m.at_ i).state.tape = tape

/-- A production that only moves along the tokens is exact when it lands where the tape does. -/
lemma Exact.moves {p : Parser Unit} {φ : Tape → Tape}
    (h : ∀ m, m.Sane greatest → Moves m (p m) (φ m.state.tape)) :
    Exact greatest p (Grammar.move φ) := by
  refine .move fun m hm => ?_
  obtain ⟨i, hle, hi, hp, htape⟩ := h m hm
  refine ⟨m.at_ i, hp, hm.reaches_at hle hi, rfl, ?_⟩
  rw [← htape]
  rfl

/-- Doing nothing is a move. -/
lemma Machine.Sane.stays (h : m.Sane greatest) : Moves m (.ok () m) m.state.tape :=
  ⟨m.current, le_rfl, h.current_lt, rfl, rfl⟩

section Moving

variable {p : Parser Unit} {tape : Tape}

/-- A sane machine stands at the end where its tape does. -/
lemma atEnd_eq (h : m.Sane greatest) : Arena.atEnd m = .ok m.state.tape.current.isEof m := by
  change EStateM.bind (peek 0) _ m = _
  rw [EStateM.bind, peek_zero h]
  rfl

/-- It shows the kind its tape shows. -/
lemma kind_eq (h : m.Sane greatest) : Arena.kind m = .ok m.state.tape.kind m := by
  change EStateM.bind (peek 0) _ m = _
  rw [EStateM.bind, peek_zero h]
  rfl

/-- The end of the text is not consumed. -/
lemma drop_of_isEof (h : m.Sane greatest) (heof : m.state.tape.current.isEof = true) :
    drop m = .ok () m := by
  change EStateM.bind Arena.atEnd _ m = _
  rw [EStateM.bind, atEnd_eq h, heof]
  rfl

/-- Any other token is. -/
lemma drop_of_not_isEof (h : m.Sane greatest) (heof : m.state.tape.current.isEof = false) :
    drop m = .ok () (m.at_ (m.current + 1)) := by
  change EStateM.bind Arena.atEnd _ m = _
  rw [EStateM.bind, atEnd_eq h, heof]
  rfl

/-- One token and what is done behind it. -/
lemma Moves.cons (h : m.Sane greatest)
    (heof : m.state.tape.current.isEof = false)
    (hrest : Moves (m.at_ (m.current + 1)) (p (m.at_ (m.current + 1))) tape) :
    Moves m ((do drop; p) m) tape := by
  obtain ⟨i, hle, hi, hp, htape⟩ := hrest
  refine ⟨i, (Nat.le_succ _).trans hle, hi, ?_, htape⟩
  change EStateM.bind drop _ m = _
  rw [EStateM.bind, drop_of_not_isEof h heof]
  exact hp

/-- Dropping a token is one step of the tape. -/
lemma drop_moves (h : m.Sane greatest) : Moves m (drop m) m.state.tape.advance := by
  cases heof : m.state.tape.current.isEof with
  | true =>
    have hadvance : m.state.tape.advance = m.state.tape := by
      unfold Tape.advance
      split
      · rfl
      · rw [Tape.atEnd, if_pos heof]
    rw [drop_of_isEof h heof, hadvance]
    exact h.stays
  | false =>
    cases hahead : m.state.tape.ahead with
    | nil => simp [h.isEof_of_ahead hahead] at heof
    | cons u us =>
      obtain ⟨hlt, htape⟩ := h.tape_succ hahead
      refine ⟨m.current + 1, Nat.le_succ _, hlt, drop_of_not_isEof h heof, ?_⟩
      rw [htape, Tape.advance, hahead]
      simp [Tape.atEnd, heof]

/-- Where the current token is not the end of the text, there is one behind it. -/
lemma Machine.Sane.exists_ahead (h : m.Sane greatest) (heof : m.state.tape.current.isEof = false) :
    ∃ u us, m.state.tape.ahead = u :: us := by
  refine List.exists_cons_of_ne_nil fun hahead => ?_
  rw [h.isEof_of_ahead hahead] at heof
  exact absurd heof (by decide)

/-- Rounds enough for the tokens ahead pass over all tokens of some kinds, as the tape does. -/
lemma passOver_moves {p : TokenKind → Bool} (hp : p .eof = false) (rounds : ℕ) (h : m.Sane greatest)
    (hrounds : m.state.tape.ahead.length < rounds) :
    Moves m (passOver p rounds m) (m.state.tape.passOver p) := by
  induction rounds generalizing m with
  | zero => omega
  | succ rounds ih =>
    change Moves m (EStateM.bind kind _ m) _
    rw [EStateM.bind, kind_eq h]
    change Moves m ((if p m.state.tape.kind then (do drop; passOver p rounds) else pure ()) m) _
    cases hkind : p m.state.tape.kind with
    | false =>
      rw [Tape.passOver_of_not hkind]
      exact h.stays
    | true =>
      have heof : m.state.tape.current.isEof = false := by
        refine beq_eq_false_iff_ne.mpr fun heof => ?_
        rw [Tape.kind, heof, hp] at hkind
        exact absurd hkind (by decide)
      obtain ⟨u, us, hahead⟩ := h.exists_ahead heof
      obtain ⟨hlt, htape⟩ := h.tape_succ hahead
      rw [hahead, List.length_cons] at hrounds
      have hrest := ih (h.at_ hlt) (by rw [htape]; exact Nat.lt_of_succ_lt_succ hrounds)
      have hgo : (m.at_ (m.current + 1)).state.tape.passOver p = m.state.tape.passOver p := by
        change p m.state.tape.current.kind = true at hkind
        rw [htape, Tape.passOver, Tape.passOver, hahead, Tape.passOver.go, if_pos hkind]
      exact .cons h heof (hgo ▸ hrest)

/-- The same skipping, of which some may be behind already. -/
lemma synchronizeFrom_moves {first : ℕ} (rounds depth : ℕ) (h : m.Sane greatest)
    (hfirst : first ≤ m.current) (hrounds : m.state.tape.ahead.length < rounds) :
    Moves m (synchronizeFrom first depth rounds m)
      (Tape.synchronize.go depth (first < m.current) m.state.tape.consumed m.state.tape.current
        m.state.tape.ahead) := by
  induction rounds generalizing m depth with
  | zero => omega
  | succ rounds ih =>
    change Moves m (EStateM.bind current _ m) _
    rw [EStateM.bind, Arena.current, peek_zero h]
    change Moves m ((if (m.state.tape.current.isEof || (depth == 0 && decide (first < m.current) &&
        Tape.beginsDefinition m.state.tape.current.kind)) then pure () else
      if depth == 0 && Tape.endsStatement m.state.tape.current.kind then drop else do
        drop
        synchronizeFrom first (Tape.bracketDepth depth m.state.tape.current.kind) rounds) m) _
    cases hahead : m.state.tape.ahead with
    | nil =>
      rw [h.isEof_of_ahead hahead, Bool.true_or, if_pos rfl]
      have hgo : Tape.synchronize.go depth (first < m.current) m.state.tape.consumed
          m.state.tape.current [] = m.state.tape := by
        rw [Tape.synchronize.go, ← hahead]
      rw [hgo]
      exact h.stays
    | cons u us =>
      obtain ⟨hlt, htape⟩ := h.tape_succ hahead
      rw [Tape.synchronize.go]
      split
      · have hsame : Tape.mk m.state.tape.consumed m.state.tape.current (u :: us) =
            m.state.tape := by rw [← hahead]
        rw [hsame]
        exact h.stays
      · rename_i hstops
        have heof : m.state.tape.current.isEof = false := by
          by_contra heof
          rw [Bool.not_eq_false] at heof
          rw [heof] at hstops
          exact hstops rfl
        split
        · exact ⟨_, Nat.le_succ _, hlt, drop_of_not_isEof h heof, htape⟩
        · rw [hahead, List.length_cons] at hrounds
          have hrest := ih (Tape.bracketDepth depth m.state.tape.current.kind)
            (h.at_ hlt) (hfirst.trans (Nat.le_succ _))
            (by rw [htape]; exact Nat.lt_of_succ_lt_succ hrounds)
          have hmoved : decide (first < (m.at_ (m.current + 1)).current) = true :=
            decide_eq_true (Nat.lt_succ_of_le hfirst)
          rw [htape, hmoved] at hrest
          exact .cons h heof hrest

/-- The last token of all. -/
lemma Machine.Sane.moves_last (h : m.Sane greatest) :
    (m.at_ (m.tokens.length - 1)).state.tape = m.state.tape.toLast := by
  have hlt := h.current_lt
  generalize hahead : m.state.tape.ahead = ahead
  induction ahead generalizing m with
  | nil =>
    have hdrop := congrArg List.length h.drop_current
    rw [hahead, List.length_drop, List.length_singleton] at hdrop
    rw [Tape.toLast_eq hahead, show m.tokens.length - 1 = m.current by omega]
    rfl
  | cons u us ih =>
    obtain ⟨hlt, htape⟩ := h.tape_succ hahead
    have hrest := ih (h.at_ hlt) hlt (by rw [htape])
    rw [htape] at hrest
    rw [Tape.toLast, hahead, Tape.toLast.go]
    exact hrest

end Moving

/-- As many rounds as there are tokens suffice to go over what is ahead. -/
lemma ahead_lt (m : Machine) : m.state.tape.ahead.length < m.tokens.length + 1 := by
  change (m.tokens.drop (m.current + 1)).length < _
  rw [List.length_drop]
  omega

namespace Exact

/-- Dropping a token is exact. -/
lemma drop : Exact greatest Arena.drop Grammar.drop := moves fun _ => drop_moves

/-- Taking a token is exact. -/
lemma advance : Exact greatest Arena.advance Grammar.advance := drop.bind fun _ => previous

/-- Taking a token of one kind, where it stands here, is exact. -/
lemma accept (k : TokenKind) : Exact greatest (Arena.accept k) (Grammar.accept k) :=
  (check k).bind fun found => by
    cases found with
    | false => exact pure false
    | true => exact drop.bind fun _ => pure true

/-- Passing over tokens is exact: the rounds are as many as the tokens are. -/
lemma passOver {p : TokenKind → Bool} (hp : p .eof = false) :
    Exact greatest (do Arena.passOver p (← lookRounds)) (Grammar.move (Tape.passOver p)) :=
  moves fun m hm => passOver_moves hp (m.tokens.length + 1) hm (ahead_lt m)

/-- Passing over line breaks is exact. -/
lemma skipBreaks : Exact greatest Arena.skipBreaks Grammar.skipBreaks := passOver rfl

/-- Passing over terminators is exact. -/
lemma skipTerminators : Exact greatest Arena.skipTerminators Grammar.skipTerminators := passOver rfl

end Exact

/-! ### Faults -/

/-- What a report comes to. -/
lemma report_eq (hm : m.Sane greatest) (f : Fault) :
    ∃ m', Arena.report f m = .ok () m' ∧ m.Reaches greatest m.nodes.size m' ∧
      m'.nodes = m.nodes ∧ m'.state = m.state.report f := by
  have hgaveUp := hm.gaveUp
  have hreport : Arena.report f m = (if m.gaveUp then Pure.pure () else
      if m.limits.maxFaults ≤ (m.faults.push f).size then do
        let last ← lastIndex
        set { m with faults := m.faults.push f, gaveUp := true, current := last }
      else set { m with faults := m.faults.push f } : Parser Unit) m := rfl
  rw [hreport, State.report, ← hgaveUp]
  by_cases hgave : m.gaveUp = true
  · rw [if_pos hgave, if_pos hgave]
    exact ⟨m, rfl, hm.reaches _, rfl, rfl⟩
  · rw [if_neg hgave, if_neg hgave]
    by_cases hfull : m.limits.maxFaults ≤ (m.faults.push f).size
    · have hfull' : ({ m.state with faults := m.state.faults.push f } : State).gaveUp = true :=
        decide_eq_true hfull
      have hlt := hm.length_pos
      refine ⟨{ m with faults := m.faults.push f, gaveUp := true, current := m.tokens.length - 1 },
        ?_, ⟨⟨hm.greatestId, hm.ends, ?_, hm.closed, hfull'.symm⟩, rfl, rfl, rfl, rfl, ?_,
          .refl _ _ _⟩, rfl, ?_⟩
      · rw [if_pos hfull]
        change EStateM.bind lastIndex _ m = _
        rw [EStateM.bind, lastIndex_eq hlt]
        rfl
      · change m.tokens.length - 1 < m.tokens.length
        omega
      · have hcurrent := hm.current_lt
        change m.current ≤ m.tokens.length - 1
        omega
      · simp only [hfull', if_true]
        exact congrArg (fun tape => { m.state with tape := tape, faults := m.faults.push f })
          hm.moves_last
    · have hfull' : ({ m.state with faults := m.state.faults.push f } : State).gaveUp = false :=
        decide_eq_false hfull
      refine ⟨{ m with faults := m.faults.push f }, ?_, ⟨⟨hm.greatestId, hm.ends, hm.current_lt,
        hm.closed, (Bool.eq_false_iff.mpr hgave).trans hfull'.symm⟩, rfl, rfl, rfl, rfl, le_rfl, .refl _ _ _⟩, rfl, ?_⟩
      · rw [if_neg hfull]
        rfl
      · simp only [hfull', Bool.false_eq_true, if_false]
        rfl

namespace Exact

/-- Recording a fault is exact, with the cap and the jump to the last token. -/
lemma report (f : Fault) : Exact greatest (Arena.report f) (Grammar.report f) :=
  move fun _ hm => report_eq hm f

/-- Both word an unexpected token alike. -/
lemma unexpected (expected : String) :
    Exact greatest (Arena.unexpected expected) (Grammar.view (·.unexpected expected)) := by
  have hview : Grammar.view (·.unexpected expected) = (do
      let t ← Grammar.current
      if t.isEof then
        return ⟨.unexpectedEnd expected, .point (← Grammar.view (·.tape.previous)).span.stop⟩
      else return ⟨.unexpectedToken t.describe expected, t.span⟩) := by
    funext s
    change EStateM.Result.ok (s.unexpected expected) s = _
    rw [State.unexpected]
    change _ = (if s.tape.current.isEof then _ else _ : Grammar.Parser Fault) s
    rw [Tape.atEnd]
    split <;> rfl
  rw [hview]
  exact current.bind fun t => .ite (previous.bind fun _ => pure _) (pure _)

/-- Reporting an unexpected token is exact. -/
lemma reportUnexpected (expected : String) :
    Exact greatest (Arena.reportUnexpected expected) (Grammar.reportUnexpected expected) :=
  (unexpected expected).bind report

end Exact

/-- Refusing the current token fails alike. -/
lemma Runs.refuse {V : Array Cell → γ → δ → Prop} (expected : String) :
    Runs greatest w base V (Arena.refuse expected) (Grammar.refuse expected) :=
  (Exact.unexpected expected).runs fun f => .fail f

namespace Exact

/-- Requiring a token of one kind is exact. -/
lemma expect (k : TokenKind) : Exact greatest (Arena.expect k) (Grammar.expect k) :=
  (check k).bind fun _ => .ite advance fun _ _ => .refuse _

/-- Requiring the closer of a construct is exact, with the fault at its opener. -/
lemma expectCloser (opener : Token) (closer : TokenKind) :
    Exact greatest (Arena.expectCloser opener closer) (Grammar.expectCloser opener closer) :=
  atEnd.bind fun atEnd => by
    cases atEnd with
    | false => exact (expect closer).discard
    | true => exact bind (fun _ _ => .fail _) fun _ : Unit => (expect closer).discard

/-! ### Spans and names -/

/-- Both lay the same span from a start to where they stand. -/
lemma spanFrom (start : Position) :
    Exact greatest (Arena.spanFrom start) (Grammar.view (·.spanFrom start)) :=
  previous.bind fun _ => pure _

/-- Declaring a name is exact. -/
lemma declare (name : String) : Exact greatest (Arena.declare name) (Grammar.declare name) := by
  refine move fun m hm => ⟨{ m with scopes := (m.state.declare name).scopes }, rfl,
    ⟨⟨hm.greatestId, hm.ends, hm.current_lt, hm.closed, hm.gaveUp⟩, rfl, rfl, rfl, rfl, le_rfl,
      .refl _ _ _⟩, rfl, ?_⟩
  change { m.state with scopes := (m.state.declare name).scopes } = m.state.declare name
  unfold State.declare
  split
  · rfl
  · split <;> rfl

/-- Both know the same names. -/
lemma isLocal (name : String) :
    Exact greatest (Arena.isLocal name) (Grammar.view (·.isLocal name)) :=
  view fun _ _ => rfl

/-- Both withhold `do` alike. -/
lemma doAllowed : Exact greatest Arena.doAllowed (Grammar.view (·.doWithheld == 0)) :=
  view fun _ _ => rfl

end Exact

end RubyCheck.Arena
