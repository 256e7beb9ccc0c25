import RubyCheck.Proofs.Arena.Tokens

/-!
# Looks ahead

Three times a production looks as far ahead as it takes to decide what stands there.  Each look goes from
index to index where the grammar goes down a list, stops at the last token at the latest, and so never
uses up the rounds it has.
-/

namespace RubyCheck.Arena

open Grammar (State)

variable {greatest : Option ℕ} {m : Machine} {t : Token} {ts : List Token} {offset rounds : ℕ}

/-- What is behind a token some places ahead. -/
lemma drop_succ (ht : m.tokens.drop (m.current + offset) = t :: ts) :
    m.tokens.drop (m.current + (offset + 1)) = ts := by
  rw [← Nat.add_assoc, ← List.drop_drop, ht]
  rfl

/-! ### Behind line breaks -/

lemma kindBehindBreaksFrom_eq (h : m.Sane greatest) (consumed : Option Token)
    (ht : m.tokens.drop (m.current + offset) = t :: ts) (hrounds : ts.length < rounds) :
    kindBehindBreaksFrom offset rounds m =
      .ok (Tape.passOver.go (· == .newline) consumed t ts).kind m := by
  induction rounds generalizing offset consumed t ts with
  | zero => omega
  | succ rounds ih =>
    change EStateM.bind (peek offset) _ m = _
    rw [EStateM.bind, peek_of_drop h ht]
    change (if t.kind == .newline then kindBehindBreaksFrom (offset + 1) rounds else pure t.kind) m = _
    cases ts with
    | nil =>
      have heof : t.kind = .eof := beq_iff_eq.mp (h.isEof_of_drop ht)
      rw [heof, if_neg (by decide), Tape.passOver.go, Tape.kind, heof]
      rfl
    | cons u us =>
      rw [Tape.passOver.go]
      split
      · exact ih (some t) (drop_succ ht) (Nat.lt_of_succ_lt_succ hrounds)
      · rfl

lemma Exact.kindBehindBreaks :
    Exact greatest Arena.kindBehindBreaks (Grammar.view (·.tape.kindBehindBreaks)) :=
  .view fun m hm => kindBehindBreaksFrom_eq hm _ hm.drop_current (ahead_lt m)

/-! ### Several targets -/

lemma assignsSeveralFrom_eq (h : m.Sane greatest) {depth : ℕ} {comma afterName : Bool}
    (ht : m.tokens.drop (m.current + offset) = t :: ts) (hrounds : ts.length < rounds) :
    assignsSeveralFrom offset depth comma afterName rounds m =
      .ok (Grammar.assignsSeveral depth comma afterName (t :: ts)) m := by
  induction rounds generalizing offset depth comma afterName t ts with
  | zero => omega
  | succ rounds ih =>
    have hnext (hts : t.kind ≠ .eof) (depth : ℕ) (comma afterName : Bool) :
        assignsSeveralFrom (offset + 1) depth comma afterName rounds m =
          .ok (Grammar.assignsSeveral depth comma afterName ts) m := by
      cases ts with
      | nil => exact absurd (beq_iff_eq.mp (h.isEof_of_drop ht)) hts
      | cons u us => exact ih (drop_succ ht) (Nat.lt_of_succ_lt_succ hrounds)
    change EStateM.bind (peek offset) _ m = _
    rw [EStateM.bind, peek_of_drop h ht, Grammar.assignsSeveral]
    simp only
    by_cases hdepth : 0 < depth
    · have hminus : Number.minus? depth 1 = some (depth - 1) := if_pos hdepth
      rw [if_pos hdepth, if_pos hdepth, hminus]
      cases hkind : t.kind with
      | eof => rfl
      | punct mark => cases mark <;> exact hnext (by simp [hkind]) _ _ _
      | _ => exact hnext (by simp [hkind]) _ _ _
    · rw [if_neg hdepth, if_neg hdepth]
      have hname (hts : t.kind ≠ .eof) : (if afterName then pure false else
          assignsSeveralFrom (offset + 1) 0 comma true rounds : Parser Bool) m =
            .ok (!afterName && Grammar.assignsSeveral 0 comma true ts) m := by
        cases afterName with
        | true => rfl
        | false => exact hnext hts _ _ _
      cases hkind : t.kind with
      | punct mark => cases mark <;> first | rfl | exact hnext (by simp [hkind]) _ _ _
      | keyword word => cases word <;> first | rfl | exact hname (by simp [hkind])
      | _ => first | rfl | exact hname (by simp [hkind])

lemma Exact.assignsSeveral : Exact greatest Arena.assignsSeveral
    (Grammar.view fun s => Grammar.assignsSeveral 0 false false (s.tape.current :: s.tape.ahead)) :=
  .view fun m hm => assignsSeveralFrom_eq hm hm.drop_current (ahead_lt m)

/-! ### Block parameters without an opener -/

/-- Whether the token behind a bar stands on a line of its own, or there is none. -/
def endsLine (bar next : Token) : Bool :=
  next.kind == .newline || next.kind == .eof || decide (bar.span.stop.line < next.span.start.line)

/-- What the look for the closing bar tells. -/
inductive BarFound (m : Machine) (offset : ℕ) (t : Token) (ts : List Token) : Option ℕ → Prop
  | none (hends : Grammar.endsBareParameters (t :: ts) = false) : BarFound m offset t ts none
  | here {next : Token} {rest : List Token} (hkind : t.kind = .punct .pipe)
      (hts : ts = next :: rest) : BarFound m offset t ts (some offset)
  | behind {k : ℕ} {bar next : Token} {rest : List Token} (hkind : t.kind ≠ .punct .pipe)
      (hk : offset < k) (hbar : m.tokens.drop (m.current + k) = bar :: next :: rest)
      (hends : Grammar.endsBareParameters (t :: ts) = endsLine bar next) :
      BarFound m offset t ts (some k)

lemma closingBarFrom_found (h : m.Sane greatest)
    (ht : m.tokens.drop (m.current + offset) = t :: ts) (hrounds : ts.length < rounds) :
    ∃ r, closingBarFrom offset rounds m = .ok r m ∧ BarFound m offset t ts r := by
  induction rounds generalizing offset t ts with
  | zero => omega
  | succ rounds ih =>
    have hbehind (hkind : t.kind ≠ .punct .pipe) (hts : t.kind ≠ .eof)
        (hends : Grammar.endsBareParameters (t :: ts) = Grammar.endsBareParameters ts) :
        ∃ r, closingBarFrom (offset + 1) rounds m = .ok r m ∧ BarFound m offset t ts r := by
      cases ts with
      | nil => exact absurd (beq_iff_eq.mp (h.isEof_of_drop ht)) hts
      | cons u us =>
        have hu := drop_succ ht
        obtain ⟨r, hr, hfound⟩ := ih hu (Nat.lt_of_succ_lt_succ hrounds)
        refine ⟨r, hr, ?_⟩
        cases hfound with
        | none hnone => exact .none (hends.trans hnone)
        | here hpipe hus =>
          subst hus
          refine .behind hkind (Nat.lt_succ_self _) hu (hends.trans ?_)
          rw [Grammar.endsBareParameters, hpipe]
          rfl
        | behind _ hk hbar hline => exact .behind hkind (by omega) hbar (hends.trans hline)
    unfold closingBarFrom
    change ∃ r, EStateM.bind (peek offset) _ m = _ ∧ _
    rw [EStateM.bind, peek_of_drop h ht]
    simp only
    have hnone (hends : Grammar.endsBareParameters (t :: ts) = false) :
        ∃ r, (pure none : Parser (Option ℕ)) m = .ok r m ∧ BarFound m offset t ts r :=
      ⟨none, rfl, .none hends⟩
    have hends := Grammar.endsBareParameters.eq_def (t :: ts)
    cases hkind : t.kind with
    | identifier => exact hbehind (by simp [hkind]) (by simp [hkind]) (by simp [hends, hkind])
    | punct mark =>
      cases mark
      case comma | star | amp =>
        exact hbehind (by simp [hkind]) (by simp [hkind]) (by simp [hends, hkind])
      case pipe =>
        cases ts with
        | nil =>
          have heof := beq_iff_eq.mp (h.isEof_of_drop ht)
          rw [hkind] at heof
          exact absurd heof (by decide)
        | cons next rest => exact ⟨some offset, rfl, .here hkind rfl⟩
      all_goals exact hnone (by simp [hends, hkind])
    | _ => exact hnone (by simp [hends, hkind])

/-- A look ahead from the token at the head of `ts` on. -/
lemma lacksBlockOpener_of_drop (h : m.Sane greatest)
    (ht : m.tokens.drop (m.current + 1) = t :: ts) :
    Arena.lacksBlockOpener m = .ok (Grammar.lacksBlockOpener (t :: ts)) m := by
  have hrounds : ts.length < m.tokens.length + 1 := by
    have hlength := congrArg List.length ht
    rw [List.length_drop, List.length_cons] at hlength
    omega
  obtain ⟨r, hr, hfound⟩ := closingBarFrom_found h ht hrounds
  change EStateM.bind (closingBarFrom 1 (m.tokens.length + 1)) _ m = _
  rw [EStateM.bind, hr, Grammar.lacksBlockOpener]
  cases hfound with
  | none hends =>
    rw [hends, Bool.and_false]
    rfl
  | here hkind hts =>
    simp only [List.head?_cons, Option.all_some, hkind, bne_self_eq_false, Bool.false_and]
    rfl
  | @behind k bar next rest hkind hk hbar hends =>
    have hnext := drop_succ hbar
    have hbars : (t.kind != .punct .pipe) = true := bne_iff_ne.mpr hkind
    rw [List.head?_cons, Option.all_some, hbars, Bool.true_and, hends]
    simp only [beq_eq_false_iff_ne.mpr hk.ne']
    change EStateM.bind (peek k) _ m = _
    rw [EStateM.bind, peek_of_drop h hbar]
    change EStateM.bind (peek (k + 1)) _ m = _
    rw [EStateM.bind, peek_of_drop h hnext]
    rfl

lemma Exact.lacksBlockOpener : Exact greatest Arena.lacksBlockOpener
    (Grammar.view fun s => Grammar.lacksBlockOpener s.tape.ahead) := by
  refine .view fun m hm => ?_
  cases hahead : m.state.tape.ahead with
  | nil =>
    have hkind : m.state.tape.next.kind = .eof := by
      rw [Tape.next, hahead]
      exact beq_iff_eq.mp (hm.isEof_of_ahead hahead)
    have hnone : closingBarFrom 1 (m.tokens.length + 1) m = .ok none m := by
      change EStateM.bind (peek 1) _ m = _
      rw [EStateM.bind, peek_one hm]
      simp only [hkind]
      rfl
    change EStateM.bind (closingBarFrom 1 (m.tokens.length + 1)) _ m = _
    rw [EStateM.bind, hnone]
    rfl
  | cons u us => exact lacksBlockOpener_of_drop hm hahead

end RubyCheck.Arena
