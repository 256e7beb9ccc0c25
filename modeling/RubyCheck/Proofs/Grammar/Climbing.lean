import RubyCheck.Proofs.Grammar.Lists
import RubyCheck.Proofs.Grammar.Operation
import RubyCheck.Proofs.Grammar.Unclosed

/-!
# Operations that are read back

Binary operators are read by rounds, each of which takes one more operator and its right side, as long
as the operators bind tightly enough; the right side of an operator is read at the next tighter level.
For a canonical operation these rounds rebuild it from the tokens that it is written as
(`readable_of_canonical`), wherever it stands and whatever closes it.  So a program that is
written as one canonical operation is read as that operation (`SyntaxTree.ofTokens_operation`).
-/

namespace RubyCheck

namespace Grammar

variable {σ α : Type} {g : Grammar} {s s' s'' : State} {o : Operation} {ts rest : List Token}
  {t next : Token} {levels : ℕ} {n : Node} {k : TokenKind}

/-! ### Rounds that go on -/

/-- Some rounds of a repetition one behind another, behind each of which another one follows. -/
inductive Goes (body : σ → Parser (Round σ α)) : ℕ → σ → State → σ → State → Prop
  | refl (a : σ) (s : State) : Goes body 0 a s a s
  | round {rounds : ℕ} {a b c : σ} {s s' s'' : State} :
      Goes body rounds a s b s' → body b s' = .ok (.again c) s'' → Goes body (rounds + 1) a s c s''

/-- A repetition comes to what it comes to behind its first rounds. -/
lemma Goes.iterate {body : σ → Parser (Round σ α)} {rounds : ℕ} {a b : σ}
    (h : Goes body rounds a s b s') (more : ℕ) :
    Grammar.iterate body (rounds + more) a s = Grammar.iterate body more b s' := by
  induction h generalizing more with
  | refl a s => rw [Nat.zero_add]
  | @round rounds _ _ _ _ _ _ _ hround ih =>
    calc Grammar.iterate body (rounds + 1 + more) _ _
        = Grammar.iterate body (rounds + (more + 1)) _ _ := by rw [Nat.add_assoc, Nat.add_comm 1]
      _ = Grammar.iterate body (more + 1) _ _ := ih (more + 1)
      _ = Grammar.iterate body more _ _ := bind_eq_of_ok hround _

/-- A repetition whose first round ends it. -/
lemma iterate_of_done {body : σ → Parser (Round σ α)} {rounds : ℕ} {a : σ} {b : α}
    (h : body a s = .ok (.done b) s') (hrounds : 0 < rounds) :
    iterate body rounds a s = .ok b s' := by
  obtain ⟨rounds, rfl⟩ := Nat.exists_eq_add_one.mpr hrounds
  exact bind_eq_of_ok h _

/-! ### Behind an operation -/

/-- Whether a token of a kind closes what an operation stands in. -/
def closesOperation : TokenKind → Bool
  | .eof | .punct .rParen => true
  | _ => false

/-- What may be written behind an operation so that it does not become a part of it: what closes it,
or an operator that binds no tighter than the one at its top. -/
inductive Follows (o : Operation) : TokenKind → Prop
  | closer {k : TokenKind} : closesOperation k = true → Follows o k
  | operator (operator : BinaryOperator) :
      (∀ l ∈ o.level?, operator.level.rank ≤ l.rank) → Follows o (.punct operator.mark)

/-- Whether a token of a kind stands behind an operand that nothing is chained to. -/
def endsOperand (k : TokenKind) : Bool := closesOperation k || isBinaryOperator k

/-- A binary operator is found by its mark. -/
lemma ofToken?_mark (operator : BinaryOperator) :
    Level.ofToken? (.punct operator.mark) = some (operator.level, operator.mark) := by
  rw [Level.ofToken?, operator.ofPunct]
  rfl

/-- What closes an operation is no binary operator. -/
lemma ofToken?_of_closes (h : closesOperation k = true) : Level.ofToken? k = none := by
  unfold closesOperation at h
  split at h
  · rfl
  · rfl
  · cases h

/-- Whatever follows an operation ends its last operand. -/
lemma Follows.endsOperand (h : Follows o k) : endsOperand k = true := by
  unfold Grammar.endsOperand
  cases h with
  | closer hcloses => rw [hcloses, Bool.true_or]
  | operator operator _ => simp [isBinaryOperator, ofToken?_mark]

/-- What may follow an operation is no power. -/
lemma Follows.ne_pow (h : Follows o k) : k ≠ .punct .pow := by
  rintro rfl
  generalize hpow : TokenKind.punct .pow = k at h
  cases h with
  | closer hcloses =>
    subst hpow
    cases hcloses
  | operator operator _ =>
    have hlevel := ofToken?_mark operator
    rw [← hpow] at hlevel
    cases hlevel

/-- Behind an operator that binds no tighter than a level, every operator at the top of a right side
binds tighter than that. -/
lemma Follows.right {l : Level} {right : Operation} (hright : ∀ m ∈ right.level?, l.rank < m.rank)
    (h : closesOperation k = true ∨
      ∃ operator : BinaryOperator, k = .punct operator.mark ∧ operator.level.rank ≤ l.rank) :
    Follows right k := by
  obtain hcloses | ⟨operator, rfl, hrank⟩ := h
  · exact .closer hcloses
  · exact .operator operator fun m hm => (hrank.trans_lt (hright m hm)).le

/-! ### Steps over tokens -/

/-- Behind a token that does not end the text stands the next one. -/
lemma tape_advanced {us : List Token} (h : s.tape.current :: s.tape.ahead = t :: us) (hus : us ≠ [])
    (ht : t.kind ≠ .eof) :
    s.advanced.tape.previous = t ∧ s.advanced.tape.current :: s.advanced.tape.ahead = us := by
  obtain ⟨u, us, rfl⟩ := List.exists_cons_of_ne_nil hus
  obtain ⟨hcurrent, hahead⟩ := List.cons.inj h
  have htape : s.tape = ⟨s.tape.consumed, t, u :: us⟩ := by rw [← hcurrent, ← hahead]
  have hadvanced : s.advanced.tape = ⟨some t, u, us⟩ := tape_advance htape ht
  rw [hadvanced]
  exact ⟨rfl, rfl⟩

/-- The kind of the tape is that of its first token. -/
lemma kind_of_tokens {tape : Tape} (h : tape.current :: tape.ahead = t :: ts) :
    tape.kind = t.kind := congrArg Token.kind (List.cons.inj h).1

/-! ### Nodes that show an operation -/

/-- What is read shows an operation and ends in front of some tokens; besides the tape, the state is
what it was. -/
def Recovers (o : Operation) (behind : List Token) (p : Parser Node) (s : State) : Prop :=
  ∃ n tape, p s = .ok n { s with tape := tape } ∧ tape.current :: tape.ahead = behind ∧ o.Shows n

/-- An operation that is written at the head of the tokens, in front of a last one, with room for it
and as many levels as reading it takes. -/
structure Faces (o : Operation) (ts : List Token) (next : Token) (rest : List Token) (levels : ℕ)
    (s : State) : Prop where
  tokens : s.tape.current :: s.tape.ahead = ts ++ next :: rest
  written : ts.map Token.lexeme = o.lexemes
  levels : ts.length ≤ levels
  depth : s.depth + o.depth ≤ s.limits.maxDepth
  /-- Nothing that is written from here on belongs to a multiple assignment. -/
  single : ∀ t ∈ ts ++ next :: rest, t.kind ≠ .punct .comma

namespace Recovers

variable {behind : List Token} {p : Parser Node}

/-- What is read one level deeper is read back, under the limit. -/
lemma nested (hdepth : s.depth < s.limits.maxDepth)
    (h : Recovers o behind p { s with depth := s.depth + 1 }) :
    Recovers o behind (nested p) s := by
  obtain ⟨n, tape, hrun, htokens, hshows⟩ := h
  refine ⟨n, tape, ?_, htokens, hshows⟩
  rw [Grammar.nested, if_pos hdepth, around_eq, hrun]
  rfl

end Recovers

/-! ### Operands -/

/-- What ends an operand adds nothing to the chain. -/
lemma link_of_endsOperand {start : Position} (hn : takesBlock n = false)
    (hends : endsOperand s.tape.kind = true) : link g start n s = .ok (.done n) s := by
  unfold endsOperand at hends
  rw [Bool.or_eq_true] at hends
  obtain hcloses | hop := hends
  · change closesOperation s.tape.current.kind = true at hcloses
    rw [link, current, view_bind_eq]
    generalize s.tape.current.kind = k at hcloses ⊢
    unfold closesOperation at hcloses
    split at hcloses
    · rfl
    · rfl
    · cases hcloses
  · exact link_eq_done hn hop

/-- An operand that takes no block, in front of a token that is not chained to it. -/
lemma chain_of_operand (h : g.operand s = .ok n s') (hn : takesBlock n = false)
    (hends : endsOperand s'.tape.kind = true) (hrounds : 0 < g.rounds) :
    g.chain s = .ok n s' := by
  rw [chain, here, view_bind_eq, bind_eq_of_ok h]
  exact iterate_of_done (link_of_endsOperand hn hends) hrounds

/-- An integer is a whole operand. -/
lemma operand_integer (htokens : s.tape.current :: s.tape.ahead = t :: next :: rest)
    (hinteger : t.kind.isInteger = true) :
    g.operand s = .ok (.leaf .integer t.span t.text) s.advanced := by
  have heof : t.kind ≠ .eof := by
    intro heof
    rw [heof] at hinteger
    cases hinteger
  obtain ⟨hprevious, -⟩ := tape_advanced htokens (List.cons_ne_nil next rest) heof
  have htake : takeLeaf .integer s = .ok (.leaf .integer t.span t.text) s.advanced := by
    rw [← hprevious]
    rfl
  rw [operand, Grammar.kind, view_bind_eq, kind_of_tokens htokens]
  obtain h | h := TokenKind.eq_of_isInteger hinteger
  · rw [h]
    exact htake
  · rw [h]
    exact htake

/-! ### One statement between parentheses -/

/-- A token with which an operation begins begins a statement and no other expression. -/
lemma plain_of_begins (h : Operation.begins k = true) :
    isRangeOperator k = false ∧ k ≠ .keyword .not_ ∧ beginsStatement k = true := by
  unfold Operation.begins at h
  split at h
  · exact ⟨rfl, by simp, rfl⟩
  · exact ⟨rfl, by simp, rfl⟩
  · exact ⟨rfl, by simp, rfl⟩
  · exact ⟨rfl, by simp, rfl⟩
  · exact ⟨rfl, by simp, rfl⟩
  · obtain rfl | rfl := TokenKind.eq_of_isInteger h
    · exact ⟨rfl, by simp, rfl⟩
    · exact ⟨rfl, by simp, rfl⟩

/-- An operation is closed by the end of the text or by a parenthesis. -/
lemma eq_of_closesOperation (h : closesOperation k = true) : k = .eof ∨ k = .punct .rParen := by
  unfold closesOperation at h
  split at h
  · exact .inl rfl
  · exact .inr rfl
  · cases h

/-- Without a comma there are no several targets. -/
lemma assignsSeveral_of_single {depth : ℕ} {afterName : Bool}
    (h : ∀ t ∈ ts, t.kind ≠ .punct .comma) :
    assignsSeveral depth false afterName ts = false := by
  induction ts generalizing depth afterName with
  | nil => rfl
  | cons t ts ih =>
    obtain ⟨ht, hts⟩ := List.forall_mem_cons.mp h
    unfold assignsSeveral
    split
    · split
      · exact ih hts
      · exact ih hts
      · exact ih hts
      · exact ih hts
      · rfl
      · exact ih hts
    · split
      all_goals first | exact ih hts | (rw [ih hts, Bool.and_false]) | exact absurd ‹_› ht | rfl

/-- An operation that is closed is a whole expression. -/
lemma Recovers.expression (hbegins : Operation.begins s.tape.kind = true)
    (hcloses : closesOperation next.kind = true) (hdepth : s.depth < s.limits.maxDepth)
    (h : Recovers o (next :: rest) (g.binary .disjunction) { s with depth := s.depth + 1 }) :
    Recovers o (next :: rest) g.expression s := by
  refine .nested hdepth ?_
  obtain ⟨n, tape, hbinary, htokens, hshows⟩ := h
  let before : State := { s with depth := s.depth + 1 }
  let behind : State := { before with tape := tape }
  have hkind : behind.tape.kind = .eof ∨ behind.tape.kind = .punct .rParen := by
    have hnext : behind.tape.kind = next.kind := kind_of_tokens htokens
    rw [hnext]
    exact eq_of_closesOperation hcloses
  have hrange : g.range before = .ok n behind := by
    have hlower : isRangeOperator before.tape.kind = false := (plain_of_begins hbegins).1
    have hupper : isRangeOperator behind.tape.kind = false := by
      obtain h | h := hkind <;> rw [h] <;> rfl
    rw [range, here, view_bind_eq, Grammar.kind, view_bind_eq, hlower, if_neg Bool.false_ne_true,
      bind_eq_of_ok hbinary, view_bind_eq, hupper, if_neg Bool.false_ne_true]
    rfl
  have hternary : g.ternary before = .ok n behind := by
    have hquestion : behind.tape.kind ≠ .punct .question := by
      obtain h | h := hkind <;> simp [h]
    rw [ternary, here, view_bind_eq, bind_eq_of_ok hrange, bind_eq_of_ok (accept_of_ne hquestion)]
    rfl
  refine ⟨n, tape, ?_, htokens, hshows⟩
  rw [assignment, here, view_bind_eq, bind_eq_of_ok hternary, Grammar.kind, view_bind_eq]
  obtain h | h := hkind <;> rw [h] <;> rfl

/-- An operation that is closed is a whole statement. -/
lemma Recovers.statement (hbegins : Operation.begins s.tape.kind = true)
    (hcloses : closesOperation next.kind = true) (hdepth : s.depth + 2 ≤ s.limits.maxDepth)
    (hsingle : ∀ t ∈ s.tape.current :: s.tape.ahead, t.kind ≠ .punct .comma)
    (hrounds : 0 < g.rounds)
    (h : Recovers o (next :: rest) (g.binary .disjunction) { s with depth := s.depth + 2 }) :
    Recovers o (next :: rest) g.statement s := by
  refine .nested (Nat.lt_of_succ_lt hdepth) ?_
  let before : State := { s with depth := s.depth + 1 }
  obtain ⟨n, tape, hexpression, htokens, hshows⟩ : Recovers o (next :: rest) g.expression before :=
    .expression hbegins hcloses hdepth h
  let behind : State := { before with tape := tape }
  have hkind : behind.tape.kind = .eof ∨ behind.tape.kind = .punct .rParen := by
    have hnext : behind.tape.kind = next.kind := kind_of_tokens htokens
    rw [hnext]
    exact eq_of_closesOperation hcloses
  have hnot : g.notExpression before = .ok n behind := by
    have hword : (before.tape.kind == .keyword .not_) = false :=
      beq_eq_false_iff_ne.mpr (plain_of_begins hbegins).2.1
    rw [notExpression, check, view_bind_eq, hword, if_neg Bool.false_ne_true]
    exact hexpression
  have hjunctions : g.junctions before = .ok n behind := by
    rw [junctions, here, view_bind_eq, bind_eq_of_ok hnot]
    refine iterate_of_done ?_ hrounds
    rw [Grammar.kind, view_bind_eq]
    obtain h | h := hkind <;> rw [h] <;> rfl
  have hstatement : g.expressionStatement before = .ok n behind := by
    have hone : assignsSeveral 0 false false (before.tape.current :: before.tape.ahead) = false :=
      assignsSeveral_of_single hsingle
    rw [expressionStatement, view_bind_eq, hone, if_neg Bool.false_ne_true]
    exact hjunctions
  refine ⟨n, tape, ?_, htokens, hshows⟩
  rw [here, view_bind_eq, bind_eq_of_ok hstatement]
  refine iterate_of_done ?_ hrounds
  rw [Grammar.kind, view_bind_eq]
  obtain h | h := hkind <;> rw [h] <;> rfl

/-- A list of statements in front of which the list ends. -/
lemma statementRound_of_closes {stops : List TokenKind} {seen : List Node}
    (hcloses : closesOperation s.tape.kind = true)
    (hends : s.tape.kind = .eof ∨ s.tape.kind ∈ stops) :
    g.statementRound stops seen s = .ok (.done seen.reverse) s := by
  have hstay : s.tape.passOver Tape.endsStatement = s.tape := by
    refine Tape.passOver_of_not ?_
    obtain h | h := eq_of_closesOperation hcloses <;> rw [h] <;> rfl
  have hstop : (s.tape.kind == .eof || stops.contains s.tape.kind) = true := by
    simpa using hends
  unfold statementRound
  rw [bind_eq, skipTerminators_eq, hstay, continuing, Grammar.kind, view_bind_eq, hstop, if_pos rfl]
  rfl

/-- A list of statements is read, of which an operation is the only one. -/
def RecoversList (o : Operation) (behind : List Token) (p : Parser Node) (s : State) : Prop :=
  ∃ list tape n, p s = .ok list { s with tape := tape } ∧ tape.current :: tape.ahead = behind ∧
    list.kind = .statements ∧ list.text = none ∧ list.children = [n] ∧ o.Shows n

/-- A statement behind which the list ends is the only one of the list. -/
lemma Recovers.statements {stops : List TokenKind} (hbegins : Operation.begins s.tape.kind = true)
    (hstops : ∀ k ∈ stops, closesConstruct k = true) (hcloses : closesOperation next.kind = true)
    (hends : next.kind = .eof ∨ next.kind ∈ stops) (hrounds : 1 < g.rounds)
    (h : Recovers o (next :: rest) g.statement s) :
    RecoversList o (next :: rest) (g.statements stops) s := by
  obtain ⟨n, tape, hstatement, htokens, hshows⟩ := h
  let behind : State := { s with tape := tape }
  have hkind : behind.tape.kind = next.kind := kind_of_tokens htokens
  have hfirst : g.statementRound stops [] s = .ok (.again [n]) behind := by
    have hgoesOn : (next.kind.isTerminator || stops.contains next.kind) = true := by
      obtain heof | hstop := hends
      · rw [heof]
        rfl
      · simp [hstop]
    rw [statementRound_of_begins (plain_of_begins hbegins).2.2 hstops, listedStatement, current,
      view_bind_eq, attempt_bind_eq, hstatement]
    change behindStatement stops [n] behind = _
    rw [behindStatement, Grammar.kind, view_bind_eq, hkind, hgoesOn]
    rfl
  have hsecond : g.statementRound stops [n] behind = .ok (.done [n]) behind :=
    statementRound_of_closes (by rwa [hkind]) (by rwa [hkind])
  have hlist : iterate (g.statementRound stops) g.rounds [] s = .ok [n] behind := by
    obtain ⟨rounds, hsucc⟩ := Nat.exists_eq_add_of_lt hrounds
    have hgoes : Goes (g.statementRound stops) 1 [] s [n] behind := .round (.refl [] s) hfirst
    rw [hsucc, Nat.add_assoc, hgoes.iterate]
    exact iterate_of_done hsecond (Nat.succ_pos rounds)
  refine ⟨.inner .statements (spanOfEach s.start [n]) [n], tape, n, ?_, htokens, rfl, rfl, rfl, hshows⟩
  rw [Grammar.statements, here, view_bind_eq, bind_eq_of_ok hlist]
  rfl

/-- One statement in parentheses. -/
lemma operand_paren {close : Token} (htokens : s.tape.current :: s.tape.ahead = t :: ts)
    (hts : ts ≠ []) (hopen : t.kind = .punct .lParen) (hclose : close.kind = .punct .rParen)
    (h : RecoversList o (close :: next :: rest) (g.parse (.statements [.punct .rParen]))
      { s.advanced with doWithheld := 0 }) :
    Recovers (.paren o) (next :: rest) g.operand s := by
  have heof : t.kind ≠ .eof := by simp [hopen]
  obtain ⟨list, tape, n, hlist, hbehind, hkind, htext, hchildren, hshows⟩ := h
  let before : State := { s with tape := tape }
  have hcloseEof : close.kind ≠ .eof := by simp [hclose]
  obtain ⟨-, hafter⟩ := tape_advanced (s := before) hbehind (List.cons_ne_nil next rest) hcloseEof
  have hcloseKind : before.tape.kind = .punct .rParen := (kind_of_tokens hbehind).trans hclose
  have hallowing : allowingDo (g.parse (.statements [.punct .rParen])) s.advanced =
      .ok list before := by
    rw [allowingDo, around_eq, hlist]
    rfl
  have hexpect : expectCloser t (.punct .rParen) before = .ok () before.advanced := by
    have hnotEnd : before.tape.atEnd = false := by
      change (before.tape.kind == .eof) = false
      rw [hcloseKind]
      rfl
    have hfound : (before.tape.kind == .punct .rParen) = true := by
      rw [hcloseKind]
      rfl
    have hclosed : expect (.punct .rParen) before =
        .ok before.advanced.tape.previous before.advanced := by
      rw [expect, check, view_bind_eq, hfound]
      rfl
    rw [expectCloser, atEnd, view_bind_eq, hnotEnd]
    change (expect (.punct .rParen) >>= fun _ => Pure.pure ()) before = _
    rw [bind_eq_of_ok hclosed]
    rfl
  have hadvance : advance s = .ok s.advanced.tape.previous s.advanced := rfl
  obtain ⟨hprevious, -⟩ := tape_advanced htokens hts heof
  refine ⟨.inner .paren (before.advanced.spanFrom t.span.start) [list], before.advanced.tape, ?_,
    hafter, rfl, rfl, list, rfl, hkind, htext, n, hchildren, hshows⟩
  rw [operand, Grammar.kind, view_bind_eq, kind_of_tokens htokens, hopen]
  change g.paren s = _
  rw [paren, bind_eq_of_ok hadvance, hprevious, bind_eq_of_ok hallowing, bind_eq_of_ok hexpect]
  rfl

/-! ### Operations at the head of the tokens -/

namespace Faces

/-- An operation is written with more tokens than it has operators. -/
lemma operators_lt (h : Faces o ts next rest levels s) : o.operators < ts.length := by
  have hlength := congrArg List.length h.written
  rw [List.length_map] at hlength
  rw [hlength]
  exact o.operators_lt

/-- The first token of an operation begins one. -/
lemma begins (h : Faces o ts next rest levels s) : Operation.begins s.tape.kind = true := by
  obtain ⟨first, others, hlexemes, hbegins⟩ := o.exists_lexemes_eq
  obtain ⟨t, ts', rfl, rfl, -⟩ := List.map_eq_cons_iff.mp (h.written.trans hlexemes)
  rw [kind_of_tokens h.tokens]
  exact hbegins

/-- An operation in parentheses, and an integer, begins with a token that the operand there takes. -/
lemma leads (h : Faces o ts next rest levels s) (hprimary : o.isPrimary = true) :
    s.tape.kind.leads = true := by
  have hwritten := h.written
  cases o with
  | integer numeral =>
    obtain ⟨t, ts', rfl, hlexeme, -⟩ := List.map_eq_cons_iff.mp hwritten
    have hkind : t.kind = numeral.kind := congrArg Prod.fst hlexeme
    rw [kind_of_tokens h.tokens, hkind]
    exact TokenKind.leads_of_isInteger numeral.isInteger
  | paren inner =>
    obtain ⟨t, ts', rfl, hlexeme, -⟩ := List.map_eq_cons_iff.mp hwritten
    have hkind : t.kind = .punct .lParen := congrArg Prod.fst hlexeme
    rw [kind_of_tokens h.tokens, hkind]
    rfl
  | _ => cases hprimary

/-- What is written first in an operation stands in front of the rest of it. -/
lemma left {x : Operation} {left right : List Token}
    (h : Faces o (left ++ t :: right) next rest levels s) (hx : left.map Token.lexeme = x.lexemes)
    (hdepth : x.depth ≤ o.depth) : Faces x left t (right ++ next :: rest) levels s := by
  have htokens : (left ++ t :: right) ++ next :: rest = left ++ t :: (right ++ next :: rest) := by
    simp
  have hlevels := h.levels
  rw [List.length_append] at hlevels
  exact ⟨h.tokens.trans htokens, hx, by omega, (Nat.add_le_add_left hdepth _).trans h.depth,
    by rw [← htokens]; exact h.single⟩

/-- What is written behind an operator stands one level deeper. -/
lemma right {x : Operation} {left right : List Token} {tape : Tape}
    (h : Faces o (left ++ t :: right) next rest (levels + 1) s)
    (htokens : tape.current :: tape.ahead = t :: (right ++ next :: rest))
    (hx : right.map Token.lexeme = x.lexemes) (hdepth : x.depth + 1 ≤ o.depth)
    (ht : t.kind ≠ .eof) :
    Faces x right next rest levels
      { State.advanced { s with tape := tape } with depth := s.depth + 1 } := by
  obtain ⟨-, hbehind⟩ := tape_advanced (s := { s with tape := tape }) htokens (by simp) ht
  have hlevels := h.levels
  rw [List.length_append, List.length_cons] at hlevels
  refine ⟨hbehind, hx, by omega, ?_, fun u hu => h.single u ?_⟩
  · have hroom : s.depth + o.depth ≤ s.limits.maxDepth := h.depth
    change s.depth + 1 + x.depth ≤ s.limits.maxDepth
    omega
  · rw [List.append_assoc, List.cons_append]
    exact List.mem_append_right _ (List.mem_cons_of_mem _ hu)

end Faces

/-- An operation that is rebuilt from what it is written as.  As an operand it is read with nothing
chained to it; as the left side of further operators it is what the rounds over its own ones come to. -/
structure Readable (o : Operation) : Prop where
  operand {ts rest : List Token} {next : Token} {levels : ℕ} {s : State} :
    o.isPrimary = true → Faces o ts next rest levels s → endsOperand next.kind = true →
    Recovers o (next :: rest) (chain ⟨levels + 1, production levels⟩) s
  rounds {ts rest : List Token} {next : Token} {levels : ℕ} {s : State} (least : Level)
    (start : Position) :
    Faces o ts next rest levels s → Follows o next.kind → (∀ l ∈ o.level?, least.rank ≤ l.rank) →
    ∃ n₀ s₀ n tape, unary ⟨levels + 1, production levels⟩ s = .ok n₀ s₀ ∧
      Goes (operatorRound ⟨levels + 1, production levels⟩ least start) o.operators n₀ s₀ n
        { s with tape := tape } ∧
      tape.current :: tape.ahead = next :: rest ∧ o.Shows n

/-- Behind an operand without a level of its own may stand what stands behind any other. -/
lemma Follows.of_level?_eq_none {x : Operation} (h : Follows o k) (hx : x.level? = none) :
    Follows x k := by
  cases h with
  | closer hcloses => exact .closer hcloses
  | operator operator _ => exact .operator operator (by simp [hx])

namespace Readable

/-- An operation that is not binary is all that is read where prefix operators may stand. -/
lemma unary (h : Readable o) (hlevel : o.level? = none) (hfaces : Faces o ts next rest levels s)
    (hfollows : Follows o next.kind) :
    Recovers o (next :: rest) (Grammar.unary ⟨levels + 1, production levels⟩) s := by
  obtain ⟨n₀, s₀, n, tape, hunary, hgoes, htokens, hshows⟩ :=
    h.rounds .disjunction s.start hfaces hfollows (by simp [hlevel])
  rw [Operation.operators_eq_zero hlevel] at hgoes
  cases hgoes
  exact ⟨n₀, tape, hunary, htokens, hshows⟩

/-- An operation that is not binary needs no round. -/
lemma of_unary (hlevel : o.level? = none)
    (hoperand : ∀ {ts rest next levels s}, o.isPrimary = true → Faces o ts next rest levels s →
      endsOperand next.kind = true →
      Recovers o (next :: rest) (Grammar.chain ⟨levels + 1, production levels⟩) s)
    (hunary : ∀ {ts rest next levels s}, Faces o ts next rest levels s → Follows o next.kind →
      Recovers o (next :: rest) (Grammar.unary ⟨levels + 1, production levels⟩) s) :
    Readable o := by
  refine ⟨hoperand, fun least start hfaces hfollows _ => ?_⟩
  obtain ⟨n, tape, hrun, htokens, hshows⟩ := hunary hfaces hfollows
  rw [Operation.operators_eq_zero hlevel]
  exact ⟨n, _, n, tape, hrun, .refl n _, htokens, hshows⟩

/-- An operand that needs no operator is a whole power as well. -/
lemma of_operand (hprimary : o.isPrimary = true)
    (hoperand : ∀ {ts rest next levels s}, Faces o ts next rest levels s →
      endsOperand next.kind = true →
      Recovers o (next :: rest) (Grammar.chain ⟨levels + 1, production levels⟩) s) :
    Readable o := by
  refine of_unary (Operation.level?_of_isPrimary hprimary) (fun _ => hoperand)
    fun hfaces hfollows => ?_
  obtain ⟨n, tape, hchain, htokens, hshows⟩ := hoperand hfaces hfollows.endsOperand
  refine ⟨n, tape, unary_of_chain (hfaces.leads hprimary) ?_ hchain, htokens, hshows⟩
  change tape.kind ≠ .punct .pow
  rw [kind_of_tokens htokens]
  exact hfollows.ne_pow

/-- Behind the last round nothing binds tightly enough. -/
lemma binary (h : Readable o) (least : Level) (hleast : ∀ l ∈ o.level?, least.rank ≤ l.rank)
    (hfaces : Faces o ts next rest levels s) (hfollows : Follows o next.kind)
    (hstop : ∀ l mark, Level.ofToken? next.kind = some (l, mark) → l.rank < least.rank) :
    Recovers o (next :: rest) (Grammar.binary ⟨levels + 1, production levels⟩ least) s := by
  obtain ⟨n₀, s₀, n, tape, hunary, hgoes, htokens, hshows⟩ :=
    h.rounds least s.start hfaces hfollows hleast
  let behind : State := { s with tape := tape }
  have hkind : behind.tape.kind = next.kind := kind_of_tokens htokens
  have hdone : operatorRound ⟨levels + 1, production levels⟩ least s.start n behind =
      .ok (.done n) behind := by
    rw [operatorRound, Grammar.kind, view_bind_eq, hkind]
    cases hlevel : Level.ofToken? next.kind with
    | none => rfl
    | some found =>
      obtain ⟨l, mark⟩ := found
      change (if l.rank < least.rank then _ else _ : Parser (Round Node Node)) behind = _
      rw [if_pos (hstop l mark hlevel)]
      rfl
  have hfew := hfaces.operators_lt
  have hlevels := hfaces.levels
  obtain ⟨more, hmore⟩ : ∃ more, levels + 1 = o.operators + (more + 1) :=
    ⟨levels - o.operators, by omega⟩
  let body := operatorRound ⟨levels + 1, production levels⟩ least s.start
  have hrounds : iterate body (levels + 1) n₀ s₀ = .ok n behind :=
    calc iterate body (levels + 1) n₀ s₀
        = iterate body (o.operators + (more + 1)) n₀ s₀ := congrArg (iterate body · n₀ s₀) hmore
      _ = iterate body (more + 1) n behind := hgoes.iterate (more + 1)
      _ = .ok n behind := iterate_of_done hdone (Nat.succ_pos more)
  refine ⟨n, tape, ?_, htokens, hshows⟩
  rw [Grammar.binary, here, view_bind_eq, bind_eq_of_ok hunary]
  exact hrounds

/-- The right side of an operator, in front of what closes the operation or binds no tighter. -/
lemma right (h : Readable o) {l : Level} (hright : ∀ m ∈ o.level?, l.rank < m.rank)
    (hfaces : Faces o ts next rest levels s)
    (hnext : closesOperation next.kind = true ∨
      ∃ operator : BinaryOperator, next.kind = .punct operator.mark ∧ operator.level.rank ≤ l.rank) :
    Recovers o (next :: rest) (production (levels + 1) (rightGoal l)) s := by
  have hfollows : Follows o next.kind := .right hright hnext
  unfold rightGoal
  cases htighter : l.tighter? with
  | some tighter =>
    have hrank : tighter.rank = l.rank + 1 := Level.rank_of_tighter? htighter
    refine h.binary tighter (fun m hm => ?_) hfaces hfollows fun m mark hm => ?_
    · rw [hrank]
      exact hright m hm
    · obtain hcloses | ⟨operator, hkind, hoperator⟩ := hnext
      · rw [ofToken?_of_closes hcloses] at hm
        cases hm
      · rw [hkind, ofToken?_mark] at hm
        cases hm
        rw [hrank]
        exact Nat.lt_succ_of_le hoperator
  | none =>
    -- The tightest level has no next one, so nothing but an operand stands to its right.
    have htightest : ∀ m : Level, m.rank ≤ l.rank := by
      cases l with
      | product => intro m; cases m <;> decide
      | _ => cases htighter
    refine h.unary ?_ hfaces hfollows
    rw [Option.eq_none_iff_forall_not_mem]
    exact fun m hm => (hright m hm).not_ge (htightest m)

/-- An operation that is closed is the only statement of a list. -/
lemma statements (h : Readable o) {stops : List TokenKind}
    (hfaces : Faces o ts next rest levels { s with depth := s.depth + 2 })
    (hstops : ∀ k ∈ stops, closesConstruct k = true) (hcloses : closesOperation next.kind = true)
    (hends : next.kind = .eof ∨ next.kind ∈ stops) :
    RecoversList o (next :: rest) (Grammar.statements ⟨levels + 1, production levels⟩ stops) s := by
  have hbinary : Recovers o (next :: rest)
      (Grammar.binary ⟨levels + 1, production levels⟩ .disjunction)
      { s with depth := s.depth + 2 } := by
    refine h.binary .disjunction (fun l _ => ?_) hfaces (.closer hcloses) fun l mark hl => ?_
    · cases l <;> decide
    · rw [ofToken?_of_closes hcloses] at hl
      cases hl
  have hbegins : Operation.begins s.tape.kind = true := hfaces.begins
  have hroom : s.depth + 2 ≤ s.limits.maxDepth := by
    have hall : s.depth + 2 + o.depth ≤ s.limits.maxDepth := hfaces.depth
    omega
  have hsingle : ∀ t ∈ s.tape.current :: s.tape.ahead, t.kind ≠ .punct .comma := by
    have htokens : s.tape.current :: s.tape.ahead = ts ++ next :: rest := hfaces.tokens
    rw [htokens]
    exact hfaces.single
  have hrounds : 0 < levels := by
    have hfew := hfaces.operators_lt
    have hlevels := hfaces.levels
    omega
  have hstatement : Recovers o (next :: rest)
      (Grammar.statement ⟨levels + 1, production levels⟩) s :=
    .statement hbegins hcloses hroom hsingle (Nat.succ_pos levels) hbinary
  exact hstatement.statements hbegins hstops hcloses hends (Nat.succ_lt_succ hrounds)

end Readable

/-! ### Canonical operations -/

/-- A mark is not the end of the text. -/
lemma ne_eof_of_mark {mark : Punct} (h : t.lexeme = Operation.markLexeme mark) : t.kind ≠ .eof := by
  have hkind : t.kind = .punct mark := congrArg Prod.fst h
  simp [hkind]

/-- The node of a binary operation has its kind and its text. -/
lemma exists_joined (start : Position) (operator : BinaryOperator) (left right : Node) (s : State) :
    ∃ n, joined start operator.mark left right s = .ok n s ∧ n.kind = operator.nodeKind ∧
      n.text = operator.nodeText ∧ n.children = [left, right] := by
  obtain ⟨mark, level, hmark⟩ := operator
  cases mark <;> exact ⟨_, rfl, rfl, rfl, rfl⟩

/-- An integer is rebuilt. -/
lemma readable_integer (numeral : Numeral) : Readable (.integer numeral) := by
  refine .of_operand rfl fun {ts rest next levels s} hfaces hends => ?_
  obtain ⟨t, ts', rfl, hlexeme, hnil⟩ := List.map_eq_cons_iff.mp hfaces.written
  obtain rfl := List.map_eq_nil_iff.mp hnil
  have hkind : t.kind = numeral.kind := congrArg Prod.fst hlexeme
  have htext : t.text = numeral.text := congrArg Prod.snd hlexeme
  have hinteger : t.kind.isInteger = true := by
    rw [hkind]
    exact numeral.isInteger
  have heof : t.kind ≠ .eof := by
    intro heof
    rw [heof] at hinteger
    cases hinteger
  obtain ⟨-, hbehind⟩ := tape_advanced hfaces.tokens (List.cons_ne_nil next rest) heof
  refine ⟨.leaf .integer t.span t.text, s.advanced.tape, ?_, hbehind, rfl, congrArg some htext, rfl⟩
  refine chain_of_operand (operand_integer hfaces.tokens hinteger) rfl ?_ (Nat.succ_pos levels)
  rw [kind_of_tokens hbehind]
  exact hends

/-- An operation in parentheses is rebuilt. -/
lemma readable_paren {inner : Operation} (h : Readable inner) : Readable (.paren inner) := by
  refine .of_operand rfl fun {ts rest next levels s} hfaces hends => ?_
  obtain ⟨opener, ts', rfl, hopener, hwritten⟩ := List.map_eq_cons_iff.mp hfaces.written
  obtain ⟨us, closers, rfl, hinner, hclosers⟩ := List.map_eq_append_iff.mp hwritten
  obtain ⟨closer, none, rfl, hcloser, hnone⟩ := List.map_eq_cons_iff.mp hclosers
  obtain rfl := List.map_eq_nil_iff.mp hnone
  have hopen : opener.kind = .punct .lParen := congrArg Prod.fst hopener
  have hclose : closer.kind = .punct .rParen := congrArg Prod.fst hcloser
  have htokens : s.tape.current :: s.tape.ahead = opener :: (us ++ closer :: next :: rest) := by
    simpa using hfaces.tokens
  have hroom : s.depth + (inner.depth + 2) ≤ s.limits.maxDepth := hfaces.depth
  -- Two levels less are left for what stands in the parentheses, and two tokens are spent on them.
  have hlevels := hfaces.levels
  rw [List.length_cons, List.length_append, List.length_singleton] at hlevels
  obtain ⟨fewer, rfl⟩ : ∃ fewer, levels = fewer + 1 := ⟨levels - 1, by omega⟩
  obtain ⟨-, hbehind⟩ := tape_advanced htokens (by simp) (ne_eof_of_mark hopener)
  let inside : State := { s.advanced with doWithheld := 0 }
  have hsingle : ∀ t ∈ us ++ closer :: next :: rest, t.kind ≠ .punct .comma := by
    intro t ht
    refine hfaces.single t ?_
    rw [List.cons_append, List.append_assoc]
    exact List.mem_cons_of_mem _ ht
  have hdeeper : Faces inner us closer (next :: rest) fewer { inside with depth := s.depth + 2 } := by
    refine ⟨hbehind, hinner, by omega, ?_, hsingle⟩
    change s.depth + 2 + inner.depth ≤ s.limits.maxDepth
    omega
  have hcloses : closesOperation closer.kind = true := by
    rw [hclose]
    rfl
  have hstatements : RecoversList inner (closer :: next :: rest)
      (production (fewer + 1) (.statements [.punct .rParen])) inside :=
    h.statements hdeeper (by decide) hcloses (.inr (by simp [hclose]))
  obtain ⟨n, tape, hoperand, htape, hshows⟩ := operand_paren
    (g := ⟨fewer + 1 + 1, production (fewer + 1)⟩) htokens (by simp) hopen hclose hstatements
  refine ⟨n, tape, chain_of_operand hoperand ?_ ?_ (Nat.succ_pos _), htape, hshows⟩
  · have hkind : n.kind = .paren := hshows.1
    simp [takesBlock, hkind]
  · change endsOperand tape.kind = true
    rw [kind_of_tokens htape]
    exact hends

/-- What stands behind an operator, one level deeper. -/
lemma Readable.behind {x : Operation} (h : Readable x) (hlevel : x.level? = none)
    {left right : List Token} {tape : Tape}
    (hfaces : Faces o (left ++ t :: right) next rest (levels + 1) s)
    (htokens : tape.current :: tape.ahead = t :: (right ++ next :: rest))
    (hx : right.map Token.lexeme = x.lexemes) (hdepth : x.depth + 1 ≤ o.depth)
    (ht : t.kind ≠ .eof) (hfollows : Follows o next.kind) :
    Recovers x (next :: rest) (nested (production (levels + 1) .unary))
      (State.advanced { s with tape := tape }) := by
  have hroom : s.depth < s.limits.maxDepth := by
    have hall := hfaces.depth
    omega
  exact .nested hroom
    (h.unary hlevel (hfaces.right htokens hx hdepth ht) (hfollows.of_level?_eq_none hlevel))

/-- A negation is read back if its operand is. -/
lemma Recovers.not {x : Operation} {behind : List Token} (hkind : s.tape.kind = .punct .bang)
    (h : Recovers x behind (Grammar.nested (g.parse .unary)) s.advanced) :
    Recovers (.not x) behind g.unary s := by
  obtain ⟨m, tape, hoperand, htokens, hshows⟩ := h
  let after : State := { s with tape := tape }
  refine ⟨.inner .not_ (after.spanFrom s.start) [m], tape, ?_, htokens, rfl, rfl, m, rfl, hshows⟩
  have hdrop : drop s = .ok () s.advanced := rfl
  rw [unary, here, view_bind_eq, Grammar.kind, view_bind_eq, hkind]
  change (drop >>= fun _ => Grammar.nested (g.parse .unary) >>= fun m => finish .not_ s.start [m]) s =
    _
  rw [bind_eq_of_ok hdrop, bind_eq_of_ok hoperand]
  rfl

/-- An operand with a sign is read back if the operand is. -/
lemma Recovers.signed {x : Operation} {sign : Sign} {behind : List Token}
    (hkind : s.tape.kind = .punct sign.mark) (htext : s.advanced.tape.previous.text = sign.mark.text)
    (h : Recovers x behind (Grammar.nested (g.parse .unary)) s.advanced) :
    Recovers (.signed sign x) behind g.unary s := by
  obtain ⟨m, tape, hoperand, htokens, hshows⟩ := h
  let after : State := { s with tape := tape }
  refine ⟨(Node.inner .unary (after.spanFrom s.start) [m]).withText sign.mark.text, tape, ?_, htokens,
    rfl, rfl, m, rfl, hshows⟩
  have hadvance : advance s = .ok s.advanced.tape.previous s.advanced := rfl
  have hrest : (advance >>= fun operator => Grammar.nested (g.parse .unary) >>= fun m =>
      finishNamed .unary s.start operator.text [m]) s =
        .ok ((Node.inner .unary (after.spanFrom s.start) [m]).withText sign.mark.text) after := by
    rw [bind_eq_of_ok hadvance, bind_eq_of_ok hoperand, htext]
    rfl
  rw [unary, here, view_bind_eq, Grammar.kind, view_bind_eq, hkind]
  cases sign with
  | minus => exact hrest
  | plus => exact hrest
  | tilde => exact hrest

/-- A negation of what needs no parentheses is rebuilt. -/
lemma readable_not {operand : Operation} (hlevel : operand.level? = none) (h : Readable operand) :
    Readable (.not operand) := by
  refine .of_unary rfl (fun hprimary => by cases hprimary)
    fun {ts rest next levels s} hfaces hfollows => ?_
  obtain ⟨t, us, rfl, hmark, hwritten⟩ := List.map_eq_cons_iff.mp hfaces.written
  have hlevels := hfaces.levels
  rw [List.length_cons] at hlevels
  obtain ⟨fewer, rfl⟩ : ∃ fewer, levels = fewer + 1 := ⟨levels - 1, by omega⟩
  have hkind : s.tape.kind = .punct .bang :=
    (kind_of_tokens hfaces.tokens).trans (congrArg Prod.fst hmark)
  have hfront : Faces (.not operand) ([] ++ t :: us) next rest (fewer + 1) s := hfaces
  exact .not hkind (h.behind hlevel hfront hfaces.tokens hwritten le_rfl (ne_eof_of_mark hmark)
    hfollows)

/-- A sign in front of what needs no parentheses is rebuilt. -/
lemma readable_signed (sign : Sign) {operand : Operation} (hlevel : operand.level? = none)
    (h : Readable operand) : Readable (.signed sign operand) := by
  refine .of_unary rfl (fun hprimary => by cases hprimary)
    fun {ts rest next levels s} hfaces hfollows => ?_
  obtain ⟨t, us, rfl, hmark, hwritten⟩ := List.map_eq_cons_iff.mp hfaces.written
  have hlevels := hfaces.levels
  rw [List.length_cons] at hlevels
  obtain ⟨fewer, rfl⟩ : ∃ fewer, levels = fewer + 1 := ⟨levels - 1, by omega⟩
  have heof : t.kind ≠ .eof := ne_eof_of_mark hmark
  have hkind : s.tape.kind = .punct sign.mark :=
    (kind_of_tokens hfaces.tokens).trans (congrArg Prod.fst hmark)
  obtain ⟨hprevious, -⟩ := tape_advanced hfaces.tokens (by simp) heof
  have htext : s.advanced.tape.previous.text = sign.mark.text := by
    rw [hprevious]
    exact congrArg Prod.snd hmark
  have hfront : Faces (.signed sign operand) ([] ++ t :: us) next rest (fewer + 1) s := hfaces
  exact .signed hkind htext (h.behind hlevel hfront hfaces.tokens hwritten le_rfl heof hfollows)

/-- A mark that stands here is accepted. -/
lemma accept_mark {mark : TokenKind} (h : s.tape.kind = mark) :
    accept mark s = .ok true s.advanced := by
  have hfound : (s.tape.kind == mark) = true := by simp [h]
  rw [accept, check, view_bind_eq, hfound]
  rfl

/-- A power is rebuilt if its base is primary and its exponent needs no parentheses. -/
lemma readable_power {base exponent : Operation} (hprimary : base.isPrimary = true)
    (hlevel : exponent.level? = none) (hbase : Readable base) (hexponent : Readable exponent) :
    Readable (.power base exponent) := by
  refine .of_unary rfl (fun hprimary => by cases hprimary)
    fun {ts rest next levels s} hfaces hfollows => ?_
  obtain ⟨us, vs, rfl, hwrittenBase, hvs⟩ := List.map_eq_append_iff.mp hfaces.written
  obtain ⟨t, us', rfl, hmark, hwritten⟩ := List.map_eq_cons_iff.mp hvs
  have hlevels := hfaces.levels
  rw [List.length_append, List.length_cons] at hlevels
  obtain ⟨fewer, rfl⟩ : ∃ fewer, levels = fewer + 1 := ⟨levels - 1, by omega⟩
  have hpow : t.kind = .punct .pow := congrArg Prod.fst hmark
  have hleft : Faces base us t (us' ++ next :: rest) (fewer + 1) s :=
    hfaces.left hwrittenBase (le_max_left _ _)
  have hends : endsOperand t.kind = true := by
    rw [hpow]
    rfl
  obtain ⟨m, tape, hchain, htokens, hshows⟩ := hbase.operand hprimary hleft hends
  obtain ⟨m', tape', hright, htokens', hshows'⟩ := hexponent.behind hlevel hfaces htokens hwritten
    (le_max_right _ _) (ne_eof_of_mark hmark) hfollows
  let before : State := { s with tape := tape }
  let after : State := { s with tape := tape' }
  have haccept : accept (.punct .pow) before = .ok true before.advanced :=
    accept_mark ((kind_of_tokens htokens).trans hpow)
  refine ⟨(Node.inner .binary (after.spanFrom s.start) [m, m']).withText "**", tape', ?_, htokens',
    rfl, rfl, m, m', rfl, hshows, hshows'⟩
  rw [unary_eq (hleft.leads hprimary), power, here, view_bind_eq, bind_eq_of_ok hchain,
    bind_eq_of_ok haccept, if_pos rfl]
  change (nested (production (fewer + 1) .unary) >>= _) before.advanced = _
  rw [bind_eq_of_ok hright]
  rfl

/-- The last round of a binary operation takes its operator and its right side. -/
lemma readable_binary (operator : BinaryOperator) {left right : Operation}
    (hlooser : ∀ l ∈ left.level?, operator.level.rank ≤ l.rank)
    (htighter : ∀ l ∈ right.level?, operator.level.rank < l.rank) (hleft : Readable left)
    (hright : Readable right) : Readable (.binary operator left right) := by
  refine ⟨fun hprimary => (by cases hprimary),
    fun {ts rest next levels s} least start hfaces hfollows hleast => ?_⟩
  obtain ⟨us, vs, rfl, hwrittenLeft, hvs⟩ := List.map_eq_append_iff.mp hfaces.written
  obtain ⟨t, us', rfl, hmark, hwritten⟩ := List.map_eq_cons_iff.mp hvs
  have hlevels := hfaces.levels
  rw [List.length_append, List.length_cons] at hlevels
  obtain ⟨fewer, rfl⟩ : ∃ fewer, levels = fewer + 1 := ⟨levels - 1, by omega⟩
  have hkind : t.kind = .punct operator.mark := congrArg Prod.fst hmark
  have hfits : least.rank ≤ operator.level.rank := hleast operator.level rfl
  have hfollowsLeft : Follows left t.kind := by
    rw [hkind]
    exact .operator operator hlooser
  obtain ⟨n₀, s₀, m, tape, hunary, hgoes, htokens, hshows⟩ := hleft.rounds least start
    (hfaces.left hwrittenLeft (le_max_left _ _)) hfollowsLeft
    fun l hl => hfits.trans (hlooser l hl)
  let before : State := { s with tape := tape }
  have hroom : s.depth < s.limits.maxDepth := by
    have hall : s.depth + max left.depth (right.depth + 1) ≤ s.limits.maxDepth := hfaces.depth
    omega
  have hnext : closesOperation next.kind = true ∨ ∃ other : BinaryOperator,
      next.kind = .punct other.mark ∧ other.level.rank ≤ operator.level.rank := by
    generalize next.kind = k at hfollows
    cases hfollows with
    | closer hcloses => exact .inl hcloses
    | operator other hother => exact .inr ⟨other, rfl, hother operator.level rfl⟩
  obtain ⟨m', tape', hnested, htokens', hshows'⟩ : Recovers right (next :: rest)
      (nested (production (fewer + 1) (rightGoal operator.level))) before.advanced :=
    .nested hroom (hright.right htighter
      (hfaces.right htokens hwritten (le_max_right _ _) (ne_eof_of_mark hmark)) hnext)
  let after : State := { s with tape := tape' }
  obtain ⟨n, hjoined, hnodeKind, hnodeText, hchildren⟩ := exists_joined start operator m m' after
  have hround : operatorRound ⟨fewer + 1 + 1, production (fewer + 1)⟩ least start m before =
      .ok (.again n) after := by
    have hoperator : Level.ofToken? before.tape.kind = some (operator.level, operator.mark) := by
      have hbefore : before.tape.kind = t.kind := kind_of_tokens htokens
      rw [hbefore, hkind]
      exact ofToken?_mark operator
    have hdrop : drop before = .ok () before.advanced := rfl
    rw [operatorRound, Grammar.kind, view_bind_eq, hoperator]
    change (if operator.level.rank < least.rank then _ else _ : Parser (Round Node Node)) before = _
    rw [if_neg hfits.not_gt, bind_eq_of_ok hdrop]
    change (nested (production (fewer + 1) (rightGoal operator.level)) >>= _) before.advanced = _
    rw [bind_eq_of_ok hnested]
    change (joined start operator.mark m m' >>= _) after = _
    rw [bind_eq_of_ok hjoined]
    rfl
  exact ⟨n₀, s₀, n, tape', hunary, .round hgoes hround, htokens', hnodeKind, hnodeText, m, m',
    hchildren, hshows, hshows'⟩

/-- Whatever is canonical is rebuilt from what it is written as. -/
theorem readable_of_canonical (h : o.Canonical) : Readable o := by
  induction h with
  | integer numeral => exact readable_integer numeral
  | paren _ ih => exact readable_paren ih
  | not hlevel _ ih => exact readable_not hlevel ih
  | signed sign hlevel _ ih => exact readable_signed sign hlevel ih
  | power hprimary hlevel _ _ ihBase ihExponent =>
    exact readable_power hprimary hlevel ihBase ihExponent
  | binary operator hlooser htighter _ _ ihLeft ihRight =>
    exact readable_binary operator hlooser htighter ihLeft ihRight

end Grammar

namespace SyntaxTree

open Grammar

/-- A program that is written as one canonical operation has no faults and that operation as its only
statement, as long as the operation is not nested too deeply. -/
theorem ofTokens_operation {limits : Limits} {o : Operation} {ts : List Token} {e : Token}
    (ho : o.Canonical) (hts : ts.map Token.lexeme = o.lexemes) (he : e.kind = .eof)
    (hdepth : o.depth + 2 ≤ limits.maxDepth) :
    (ofTokens limits (ts ++ [e])).faults = [] ∧
      (ofTokens limits (ts ++ [e])).root.kind = .program ∧
      ∃ n, (ofTokens limits (ts ++ [e])).root.children = [n] ∧ o.Shows n := by
  have htape : (Tape.ofTokens (ts ++ [e])).current :: (Tape.ofTokens (ts ++ [e])).ahead =
      ts ++ [e] := by
    have hlast : Tape.ending e = [] := by simp [Tape.ending, Token.isEof, he]
    cases ts with
    | nil => simp [Tape.ofTokens, hlast]
    | cons t ts => simp [Tape.ofTokens, List.getLast?_cons, hlast]
  let before : State := (State.ofTokens limits (ts ++ [e])).enterScope true
  have hfaces : Faces o ts e [] (ts.length + 3) { before with depth := before.depth + 2 } := by
    refine ⟨htape, hts, Nat.le_add_right _ _, ?_, fun t ht => ?_⟩
    · change 0 + 2 + o.depth ≤ limits.maxDepth
      omega
    · rcases List.mem_append.mp ht with hmem | hmem
      · have hlexeme : t.lexeme ∈ o.lexemes := by
          rw [← hts]
          exact List.mem_map_of_mem hmem
        exact o.ne_comma_of_mem_lexemes _ hlexeme
      · rw [List.mem_singleton.mp hmem, he]
        simp
  have hcloses : closesOperation e.kind = true := by
    rw [he]
    rfl
  have hstatements : RecoversList o [e]
      (Grammar.statements ⟨ts.length + 3 + 1, production (ts.length + 3)⟩ []) before :=
    (readable_of_canonical ho).statements hfaces (by simp) hcloses (.inl he)
  obtain ⟨list, tape, n, hlist, -, -, -, hchildren, hshows⟩ := hstatements
  let after : State := State.leaveScope { before with tape := tape }
  have hscope : inScope true (production (levelsFor (ts ++ [e])) (.statements []))
      (.ofTokens limits (ts ++ [e])) = .ok list after := by
    have hlevels : levelsFor (ts ++ [e]) = ts.length + 3 + 1 := by
      rw [levelsFor, List.length_append, List.length_singleton]
    rw [hlevels, inScope, around_eq]
    change leaving _ (Grammar.statements ⟨ts.length + 3 + 1, production (ts.length + 3)⟩ [] before) = _
    rw [hlist]
    rfl
  have hprogram : program (levelsFor (ts ++ [e])) (.ofTokens limits (ts ++ [e])) =
      .ok (.inner .program ⟨(State.ofTokens limits (ts ++ [e])).start,
        after.tape.current.span.stop.later (State.ofTokens limits (ts ++ [e])).start⟩
        list.children) after := by
    rw [program, here, view_bind_eq, bind_eq_of_ok hscope]
    rfl
  rw [ofTokens, hprogram]
  exact ⟨rfl, rfl, n, hchildren, hshows⟩

/-- A product, to the left of which a sign stands in front of a power, and to the right a sum in
parentheses. -/
theorem ofTokens_operation_product :
    let token (kind : TokenKind) (text : String) (i : ℕ) : Token :=
      ⟨kind, text, ⟨⟨i, 0, i⟩, ⟨i + 1, 0, i + 1⟩⟩, true, false⟩
    let number (text : String) : Operation := .integer ⟨.integer, text, rfl⟩
    let product : Operation := .binary ⟨.star, .product, rfl⟩
      (.signed .minus (.power (number "1") (number "2")))
      (.paren (.binary ⟨.plus, .sum, rfl⟩ (number "3") (number "4")))
    let tokens := [token (.punct .minus) "-" 0, token .integer "1" 1, token (.punct .pow) "**" 2,
      token .integer "2" 3, token (.punct .star) "*" 4, token (.punct .lParen) "(" 5,
      token .integer "3" 6, token (.punct .plus) "+" 7, token .integer "4" 8,
      token (.punct .rParen) ")" 9]
    let e := token .eof "" 10
    product.Canonical ∧ tokens.map Token.lexeme = product.lexemes ∧
      product.depth + 2 ≤ Limits.standard.maxDepth ∧
      (ofTokens .standard (tokens ++ [e])).faults = [] ∧
      (ofTokens .standard (tokens ++ [e])).root.kind = .program ∧
      ∃ n, (ofTokens .standard (tokens ++ [e])).root.children = [n] ∧ product.Shows n := by
  intro token number product tokens e
  have hpower : (Operation.power (number "1") (number "2")).Canonical :=
    .power rfl rfl (.integer _) (.integer _)
  have hsum : (Operation.binary ⟨.plus, .sum, rfl⟩ (number "3") (number "4")).Canonical := by
    refine .binary _ ?_ ?_ (.integer _) (.integer _)
    · simp [number, Operation.level?]
    · simp [number, Operation.level?]
  have hproduct : product.Canonical := by
    refine .binary _ ?_ ?_ (.signed .minus rfl hpower) (.paren hsum)
    · simp [Operation.level?]
    · simp [Operation.level?]
  have hwritten : tokens.map Token.lexeme = product.lexemes := rfl
  have hdepth : product.depth + 2 ≤ Limits.standard.maxDepth := by decide
  have hend : e.kind = .eof := rfl
  exact ⟨hproduct, hwritten, hdepth, ofTokens_operation hproduct hwritten hend hdepth⟩

end SyntaxTree

end RubyCheck
