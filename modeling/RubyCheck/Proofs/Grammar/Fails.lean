import RubyCheck.Proofs.Grammar.Limits

/-!
# Failures on their way to a list of statements

A production fails if one that it begins with does, and whatever it put around that is put back: only
where reading came to and what was reported up to there outlive a failure (`Fails`).  So the failure
of an operand comes through to the statement that begins with it (`Fails.statement`), and there the
list of statements takes it up.  A statement that is cut short behind an operator, at the `end` of
the construct around it, fails at that `end` (`Fails.statement_cut`).
-/

namespace RubyCheck

namespace TokenKind

/-- Whether a token of a kind, at the head of an expression, is left to the operand there. -/
def leads : TokenKind → Bool
  | .punct .bang | .punct .minus | .punct .plus | .punct .tilde | .punct .dotDot | .punct .dotDotDot
  | .keyword .not_ => false
  | _ => true

/-- Whether a token of a kind is an integer. -/
def isInteger : TokenKind → Bool
  | .integer | .legacyOctal => true
  | _ => false

variable {k k' : TokenKind}

/-- A kind that leads is not one that does not. -/
lemma ne_of_leads (h : k.leads = true) (h' : k'.leads = false) : k ≠ k' := by
  rintro rfl
  rw [h] at h'
  cases h'

/-- An integer is written in one of two kinds. -/
lemma eq_of_isInteger (h : k.isInteger = true) : k = .integer ∨ k = .legacyOctal := by
  unfold isInteger at h
  split at h
  · exact .inl rfl
  · exact .inr rfl
  · cases h

/-- An integer is left to the operand. -/
lemma leads_of_isInteger (h : k.isInteger = true) : k.leads = true := by
  obtain rfl | rfl := eq_of_isInteger h
  · rfl
  · rfl

end TokenKind

namespace Grammar

variable {α β σ : Type} {f : Fault} {tape : Tape} {faults : Array Fault} {s s' : State}
  {g : Grammar} {consumed : Option Token} {t u v : Token} {us : List Token} {k : TokenKind} {n : Node}
  {word : Keyword}

/-- Whether a token of a kind stands between the two operands of a binary operation. -/
def isBinaryOperator (k : TokenKind) : Bool :=
  (Level.ofToken? k).isSome || k == .punct .pow || (junctionKind? k).isSome

/-! ### Steps over tokens -/

/-- Behind a token that is not the last one stands the next. -/
lemma tape_advance (htape : s.tape = ⟨consumed, t, u :: us⟩) (hkind : t.kind ≠ .eof) :
    s.tape.advance = ⟨some t, u, us⟩ := by
  have hnotEnd : t.isEof = false := beq_eq_false_iff_ne.mpr hkind
  simp [htape, Tape.advance, Tape.atEnd, hnotEnd]

/-- Taking such a token gives it and moves to the next. -/
lemma advance_eq (htape : s.tape = ⟨consumed, t, u :: us⟩) (hkind : t.kind ≠ .eof) :
    advance s = .ok t { s with tape := ⟨some t, u, us⟩ } := by
  change EStateM.Result.ok s.tape.advance.previous s.advanced = _
  rw [State.advanced, tape_advance htape hkind]
  rfl

/-- Dropping it moves there as well. -/
lemma drop_eq (htape : s.tape = ⟨consumed, t, u :: us⟩) (hkind : t.kind ≠ .eof) :
    drop s = .ok () { s with tape := ⟨some t, u, us⟩ } := by
  change EStateM.Result.ok () s.advanced = _
  rw [State.advanced, tape_advance htape hkind]

/-- A token of another kind is not accepted, and nothing moves. -/
lemma accept_of_ne {mark : TokenKind} (h : s.tape.kind ≠ mark) : accept mark s = .ok false s := by
  have hnot : (s.tape.kind == mark) = false := beq_eq_false_iff_ne.mpr h
  rw [accept, check, view_bind_eq, hnot]
  rfl

/-- A token of the kind is accepted and passed. -/
lemma accept_of_eq {mark : TokenKind} (htape : s.tape = ⟨consumed, t, u :: us⟩)
    (hmark : t.kind = mark) (hkind : mark ≠ .eof) :
    accept mark s = .ok true { s with tape := ⟨some t, u, us⟩ } := by
  have hsame : (s.tape.kind == mark) = true := by simp [htape, Tape.kind, hmark]
  rw [accept, check, view_bind_eq, hsame, if_pos rfl, bind_eq_of_ok (drop_eq htape (hmark ▸ hkind))]
  rfl

/-! ### Operands that lead -/

/-- A token that leads begins no unary operation. -/
lemma unary_eq (hkind : s.tape.kind.leads = true) : g.unary s = g.power s := by
  rw [unary, here, view_bind_eq, kind, view_bind_eq]
  generalize s.tape.kind = k at hkind ⊢
  split
  all_goals first | rfl | cases hkind

/-- It begins no range. -/
lemma not_isRangeOperator (hkind : k.leads = true) : isRangeOperator k = false := by
  have htwo : k ≠ .punct .dotDot := TokenKind.ne_of_leads hkind rfl
  have hthree : k ≠ .punct .dotDotDot := TokenKind.ne_of_leads hkind rfl
  simp [isRangeOperator, htwo, hthree]

/-- A token that leads is no `not`. -/
lemma notExpression_eq (hkind : s.tape.kind.leads = true) : g.notExpression s = g.expression s := by
  have hnot : (s.tape.kind == .keyword .not_) = false :=
    beq_eq_false_iff_ne.mpr (TokenKind.ne_of_leads hkind rfl)
  rw [notExpression, check, view_bind_eq, hnot]
  rfl

/-! ### Failures -/

/-- A production fails with a fault at a tape, up to which some faults were reported. -/
def Fails (f : Fault) (tape : Tape) (faults : Array Fault) (p : Parser α) (s : State) : Prop :=
  ∃ s', p s = .error (.fault f) s' ∧ s'.tape = tape ∧ s'.faults = faults ∧ s'.limits = s.limits

namespace Fails

/-- Refusing a token fails where it stands, with nothing reported. -/
lemma refuse (expected : String) :
    Fails (s.unexpected expected) s.tape s.faults (Grammar.refuse expected : Parser α) s :=
  ⟨s, rfl, rfl, rfl, rfl⟩

/-- Failing with a fault fails where it stands, with nothing reported. -/
lemma fail : Fails f s.tape s.faults (Grammar.fail f : Parser α) s := ⟨s, rfl, rfl, rfl, rfl⟩

/-- A production fails as another one does that comes to the same here. -/
lemma congr {p q : Parser α} (h : p s = q s) (hq : Fails f tape faults q s) :
    Fails f tape faults p s := by
  unfold Fails
  rwa [h]

/-- A production in two parts fails with its first part. -/
lemma bind {p : Parser α} {k : α → Parser β} (h : Fails f tape faults p s) :
    Fails f tape faults (p >>= k) s := by
  obtain ⟨s', hrun, hs'⟩ := h
  refine ⟨s', ?_, hs'⟩
  rw [bind_eq, hrun]
  rfl

/-- What fails behind a result. -/
lemma behind {p : Parser α} {k : α → Parser β} {a : α} {s' : State} (hrun : p s = .ok a s')
    (hlimits : s'.limits = s.limits) (h : Fails f tape faults (k a) s') :
    Fails f tape faults (p >>= k) s := by
  obtain ⟨s'', hfails, htape, hfaults, hlimits'⟩ := h
  refine ⟨s'', ?_, htape, hfaults, hlimits'.trans hlimits⟩
  rw [bind_eq, hrun]
  exact hfails

/-- Rounds fail with the first of them. -/
lemma iterate {body : σ → Parser (Round σ α)} {a : σ} {rounds : ℕ} (hrounds : 0 < rounds)
    (h : Fails f tape faults (body a) s) : Fails f tape faults (iterate body rounds a) s := by
  obtain ⟨rounds, rfl⟩ := Nat.exists_eq_add_one.mpr hrounds
  exact h.bind

/-- A production one level deeper fails with what is inside it, under the limit. -/
lemma nested {p : Parser α} (hdepth : s.depth < s.limits.maxDepth)
    (h : Fails f tape faults p { s with depth := s.depth + 1 }) :
    Fails f tape faults (nested p) s := by
  obtain ⟨s', hrun, htape, hfaults, hlimits⟩ := h
  refine ⟨{ s' with depth := s'.depth - 1 }, ?_, htape, hfaults, hlimits⟩
  rw [Grammar.nested, if_pos hdepth, around_eq, hrun]
  rfl

/-- What is read with `do` allowed fails alike. -/
lemma allowingDo {p : Parser α} (h : Fails f tape faults p { s with doWithheld := 0 }) :
    Fails f tape faults (allowingDo p) s := by
  obtain ⟨s', hrun, htape, hfaults, hlimits⟩ := h
  refine ⟨{ s' with doWithheld := s.doWithheld }, ?_, htape, hfaults, hlimits⟩
  rw [Grammar.allowingDo, around_eq, hrun]
  rfl

/-- A scope around a failure is left by it. -/
lemma inScope {closed : Bool} {p : Parser α} (h : Fails f tape faults p (s.enterScope closed)) :
    Fails f tape faults (inScope closed p) s := by
  obtain ⟨s', hrun, htape, hfaults, hlimits⟩ := h
  refine ⟨s'.leaveScope, ?_, htape, hfaults, hlimits⟩
  rw [Grammar.inScope, around_eq]
  change leaving _ (p (s.enterScope closed)) = _
  rw [hrun]
  rfl

/-- What is seen of the state leaves it as it is. -/
lemma view {φ : State → β} {k : β → Parser α} (h : Fails f tape faults (k (φ s)) s) :
    Fails f tape faults (Grammar.view φ >>= k) s := h

/-! #### From operands to statements -/

/-- A chain fails with its operand. -/
lemma chain (h : Fails f tape faults g.operand s) : Fails f tape faults g.chain s := h.bind

/-- A power fails with its base. -/
lemma power (h : Fails f tape faults g.chain s) : Fails f tape faults g.power s := h.bind

/-- A unary operation fails with its operand where no operator leads. -/
lemma unary (hkind : s.tape.kind.leads = true) (h : Fails f tape faults g.power s) :
    Fails f tape faults g.unary s := .congr (unary_eq hkind) h

/-- Operations of any level fail with their first operand. -/
lemma binary {least : Level} (h : Fails f tape faults g.unary s) :
    Fails f tape faults (g.binary least) s := h.bind

/-- A range fails with its start. -/
lemma range (hkind : s.tape.kind.leads = true)
    (h : Fails f tape faults (g.binary .disjunction) s) : Fails f tape faults g.range s := by
  unfold Grammar.range
  refine .view (.view ?_)
  rw [not_isRangeOperator hkind]
  exact h.bind

/-- An expression fails with the range it begins with, under the limit. -/
lemma expression (hdepth : s.depth < s.limits.maxDepth)
    (h : Fails f tape faults g.range { s with depth := s.depth + 1 }) :
    Fails f tape faults g.expression s := by
  have hternary : Fails f tape faults g.ternary { s with depth := s.depth + 1 } := h.bind
  exact .nested hdepth hternary.bind

/-- An expression that may be negated fails with the expression, if no `not` leads. -/
lemma notExpression (hkind : s.tape.kind.leads = true) (h : Fails f tape faults g.expression s) :
    Fails f tape faults g.notExpression s := .congr (notExpression_eq hkind) h

/-- Expressions that are joined fail with the first of them. -/
lemma junctions (h : Fails f tape faults g.notExpression s) :
    Fails f tape faults g.junctions s := h.bind

/-- A statement that does not assign to several targets fails with the expressions it begins with. -/
lemma statement (hdepth : s.depth < s.limits.maxDepth)
    (hsingle : assignsSeveral 0 false false (s.tape.current :: s.tape.ahead) = false)
    (h : Fails f tape faults g.junctions { s with depth := s.depth + 1 }) :
    Fails f tape faults g.statement s := by
  have hexpression : Fails f tape faults g.expressionStatement { s with depth := s.depth + 1 } := by
    unfold Grammar.expressionStatement
    refine .view ?_
    rw [if_neg (Bool.eq_false_iff.mp hsingle)]
    exact h
  exact .nested hdepth hexpression.bind

/-! #### At the end of a construct -/

/-- No operand begins with `end`. -/
lemma operand_end (hend : s.tape.kind = .keyword .end_) :
    Fails (s.unexpected "expression") s.tape s.faults g.operand s := by
  unfold Grammar.operand
  refine .view ?_
  rw [hend]
  exact .refuse "expression"

/-- An `end` is left to the operand. -/
lemma leads_end (hend : s.tape.kind = .keyword .end_) : s.tape.kind.leads = true := by
  rw [hend]
  rfl

/-- At an `end` there is no operand. -/
lemma unary_end (hend : s.tape.kind = .keyword .end_) :
    Fails (s.unexpected "expression") s.tape s.faults g.unary s :=
  .unary (leads_end hend) (operand_end hend).chain.power

/-- So there is no expression. -/
lemma notExpression_end (hend : s.tape.kind = .keyword .end_)
    (hdepth : s.depth < s.limits.maxDepth) :
    Fails (s.unexpected "expression") s.tape s.faults g.notExpression s := by
  have hdeeper : Fails (s.unexpected "expression") s.tape s.faults g.unary
      { s with depth := s.depth + 1 } := unary_end (s := { s with depth := s.depth + 1 }) hend
  exact .notExpression (leads_end hend) (.expression hdepth (.range (leads_end hend) hdeeper.binary))

/-- What stands to the right of an operator does not begin with `end`. -/
lemma rightGoal_end {levels : ℕ} (l : Level) (hend : s.tape.kind = .keyword .end_) :
    Fails (s.unexpected "expression") s.tape s.faults (production (levels + 1) (rightGoal l)) s := by
  unfold rightGoal
  split
  · exact (unary_end hend).binary
  · exact unary_end hend

end Fails

/-! ### Operands in front of operators -/

/-- A chain without a power behind it is the whole unary operation. -/
lemma unary_of_chain (hkind : s.tape.kind.leads = true) (hpow : s'.tape.kind ≠ .punct .pow)
    (h : g.chain s = .ok n s') : g.unary s = .ok n s' := by
  rw [unary_eq hkind, power, here, view_bind_eq, bind_eq_of_ok h, bind_eq_of_ok (accept_of_ne hpow)]
  rfl

/-- In front of a keyword, what is no operation is a whole expression. -/
lemma notExpression_of_unary (h : g.unary { s with depth := s.depth + 1 } = .ok n s')
    (hrounds : 0 < g.rounds) (hdepth : s.depth < s.limits.maxDepth)
    (hkind : s.tape.kind.leads = true) (hword : s'.tape.kind = .keyword word) :
    g.notExpression s = .ok n { s' with depth := s'.depth - 1 } := by
  let deeper : State := { s with depth := s.depth + 1 }
  have hbinary : g.binary .disjunction deeper = .ok n s' := by
    have hround (start : Position) : operatorRound g .disjunction start n s' = .ok (.done n) s' := by
      rw [operatorRound, kind, view_bind_eq, hword]
      rfl
    obtain ⟨rounds, hsucc⟩ := Nat.exists_eq_add_one.mpr hrounds
    rw [binary, here, view_bind_eq, bind_eq_of_ok h, hsucc, iterate, bind_eq_of_ok (hround _)]
    rfl
  have hrange : g.range deeper = .ok n s' := by
    have hlower : isRangeOperator deeper.tape.kind = false := not_isRangeOperator hkind
    rw [range, here, view_bind_eq, kind, view_bind_eq, hlower, if_neg Bool.false_ne_true,
      bind_eq_of_ok hbinary, view_bind_eq, hword]
    rfl
  have hternary : g.ternary deeper = .ok n s' := by
    have hquestion : s'.tape.kind ≠ .punct .question := by simp [hword]
    rw [ternary, here, view_bind_eq, bind_eq_of_ok hrange, bind_eq_of_ok (accept_of_ne hquestion)]
    rfl
  have hassignment : g.assignment deeper = .ok n s' := by
    rw [assignment, here, view_bind_eq, bind_eq_of_ok hternary, kind, view_bind_eq, hword]
    rfl
  rw [notExpression_eq hkind, expression, nested, if_pos hdepth, around_eq, hassignment]
  rfl

/-- A binary operator ends a chain that takes no block. -/
lemma link_eq_done {start : Position} (hn : takesBlock n = false)
    (hop : isBinaryOperator s.tape.kind = true) : link g start n s = .ok (.done n) s := by
  change isBinaryOperator s.tape.current.kind = true at hop
  rw [link, current, view_bind_eq]
  cases hkind : s.tape.current.kind with
  | punct mark =>
    rw [hkind] at hop
    cases mark
    all_goals first | rfl | (rw [hn]; rfl) | cases hop
  | keyword word =>
    rw [hkind] at hop
    cases word
    all_goals first | rfl | cases hop
  | _ =>
    rw [hkind] at hop
    cases hop

/-- An integer in front of a binary operator is a whole chain. -/
lemma chain_integer (htape : s.tape = ⟨consumed, t, u :: us⟩) (hint : t.kind.isInteger = true)
    (hop : isBinaryOperator u.kind = true) (hrounds : 0 < g.rounds) :
    g.chain s = .ok (.leaf .integer t.span t.text) { s with tape := ⟨some t, u, us⟩ } := by
  have hhere : s.tape.kind = t.kind := congrArg Tape.kind htape
  have hkind : t.kind ≠ .eof := by
    intro hkind
    rw [hkind] at hint
    cases hint
  have htake : takeLeaf .integer s =
      .ok (.leaf .integer t.span t.text) { s with tape := ⟨some t, u, us⟩ } := by
    rw [takeLeaf, bind_eq_of_ok (advance_eq htape hkind)]
    rfl
  have hoperand : g.operand s = takeLeaf .integer s := by
    rw [operand, Grammar.kind, view_bind_eq, hhere]
    obtain hinteger | hoctal := TokenKind.eq_of_isInteger hint
    · rw [hinteger]
    · rw [hoctal]
  have hdone : link g s.start (.leaf .integer t.span t.text) { s with tape := ⟨some t, u, us⟩ } =
      .ok (.done (.leaf .integer t.span t.text)) _ :=
    link_eq_done (s := { s with tape := ⟨some t, u, us⟩ }) rfl hop
  obtain ⟨rounds, hsucc⟩ := Nat.exists_eq_add_one.mpr hrounds
  rw [chain, here, view_bind_eq, bind_eq_of_ok (hoperand.trans htake), hsucc, iterate]
  exact bind_eq_of_ok hdone _

/-! ### Statements that are cut short -/

/-- What an operator makes of the operands around it. -/
lemma cases_of_isBinaryOperator (h : isBinaryOperator k = true) :
    (∃ l mark, Level.ofToken? k = some (l, mark)) ∨ k = .punct .pow ∨
      ∃ word kind, k = .keyword word ∧ junctionKind? k = some kind := by
  unfold isBinaryOperator at h
  rw [Bool.or_eq_true, Bool.or_eq_true] at h
  obtain (hlevel | hpow) | hjunction := h
  · obtain ⟨⟨l, mark⟩, hlevel⟩ := Option.isSome_iff_exists.mp hlevel
    exact .inl ⟨l, mark, hlevel⟩
  · exact .inr (.inl (eq_of_beq hpow))
  · obtain ⟨kind, hkind⟩ := Option.isSome_iff_exists.mp hjunction
    cases k with
    | keyword word => exact .inr (.inr ⟨word, kind, rfl, hkind⟩)
    | _ => cases hkind

/-- The fault of a token that stands where an operand should. -/
def noOperand (t : Token) : Fault := ⟨.unexpectedToken t.describe "expression", t.span⟩

/-- At an `end` the fault is that an operand is missing. -/
lemma unexpected_eq (htape : s.tape = ⟨consumed, v, us⟩) (hend : v.kind = .keyword .end_) :
    s.unexpected "expression" = noOperand v := by
  simp [State.unexpected, htape, Tape.atEnd, Token.isEof, hend, noOperand]

/-- An integer at the head is left to the operand. -/
lemma leads_of_tape (htape : s.tape = ⟨consumed, t, us⟩) (hint : t.kind.isInteger = true) :
    s.tape.kind.leads = true := by
  rw [htape]
  exact TokenKind.leads_of_isInteger hint

namespace Fails

section Cut

variable {levels rounds : ℕ} (htape : s.tape = ⟨consumed, t, u :: v :: us⟩)
  (hint : t.kind.isInteger = true) (hop : isBinaryOperator u.kind = true)
  (hend : v.kind = .keyword .end_)

include hend in
/-- Behind the operator nothing can be read. -/
lemma right_end {p : Parser Node} {beforeEnd : State} (hbehind : beforeEnd.tape = ⟨some u, v, us⟩)
    (h : ∀ s : State, s.tape.kind = .keyword .end_ →
      Fails (s.unexpected "expression") s.tape s.faults p s)
    (hdepth : beforeEnd.depth < beforeEnd.limits.maxDepth) :
    Fails (noOperand v) ⟨some u, v, us⟩ beforeEnd.faults (Grammar.nested p) beforeEnd := by
  rw [← unexpected_eq hbehind hend, ← hbehind]
  refine .nested hdepth (h { beforeEnd with depth := beforeEnd.depth + 1 } ?_)
  rw [hbehind]
  exact hend

include htape hint hop hend

/-- An operator that binds looser than a power. -/
lemma binary_cut {l : Level} {mark : Punct} (hlevel : Level.ofToken? u.kind = some (l, mark))
    (hdepth : s.depth < s.limits.maxDepth) :
    Fails (noOperand v) ⟨some u, v, us⟩ s.faults
      (Grammar.binary ⟨rounds + 1, production (levels + 1)⟩ .disjunction) s := by
  have hleads : s.tape.kind.leads = true := leads_of_tape htape hint
  have hpow : u.kind ≠ .punct .pow := by
    intro hpow
    rw [hpow] at hlevel
    cases hlevel
  have heof : u.kind ≠ .eof := by
    intro heof
    rw [heof] at hlevel
    cases hlevel
  let beforeOp : State := { s with tape := ⟨some t, u, v :: us⟩ }
  let beforeEnd : State := { s with tape := ⟨some u, v, us⟩ }
  have hdrop : drop beforeOp = .ok () beforeEnd := drop_eq rfl heof
  have hright : Fails (noOperand v) ⟨some u, v, us⟩ s.faults
      (Grammar.nested (production (levels + 1) (rightGoal l))) beforeEnd :=
    right_end hend rfl (fun _ => rightGoal_end l) hdepth
  have hround (start : Position) (n : Node) :
      Fails (noOperand v) ⟨some u, v, us⟩ s.faults
        (operatorRound ⟨rounds + 1, production (levels + 1)⟩ .disjunction start n) beforeOp := by
    have hrank : ¬ l.rank < Level.rank .disjunction := by cases l <;> decide
    unfold operatorRound
    refine .view ?_
    rw [show Level.ofToken? beforeOp.tape.kind = some (l, mark) from hlevel]
    change Fails _ _ _ (if l.rank < Level.rank .disjunction then _ else _) _
    rw [if_neg hrank]
    exact .behind hdrop rfl hright.bind
  have hleft : Grammar.unary ⟨rounds + 1, production (levels + 1)⟩ s =
      .ok (.leaf .integer t.span t.text) beforeOp :=
    unary_of_chain hleads hpow (chain_integer htape hint hop (Nat.succ_pos _))
  unfold Grammar.binary
  exact .view (.behind hleft rfl (.iterate (Nat.succ_pos _) (hround _ _)))

/-- A power whose exponent is missing at an `end` fails there. -/
lemma power_cut (hpow : u.kind = .punct .pow) (hdepth : s.depth < s.limits.maxDepth) :
    Fails (noOperand v) ⟨some u, v, us⟩ s.faults
      (Grammar.power ⟨rounds + 1, production (levels + 1)⟩) s := by
  let beforeOp : State := { s with tape := ⟨some t, u, v :: us⟩ }
  let beforeEnd : State := { s with tape := ⟨some u, v, us⟩ }
  have hleft : Grammar.chain ⟨rounds + 1, production (levels + 1)⟩ s =
      .ok (.leaf .integer t.span t.text) beforeOp := chain_integer htape hint hop (Nat.succ_pos _)
  have haccept : accept (.punct .pow) beforeOp = .ok true beforeEnd :=
    accept_of_eq rfl hpow (by decide)
  have hright : Fails (noOperand v) ⟨some u, v, us⟩ s.faults
      (Grammar.nested (production (levels + 1) .unary)) beforeEnd :=
    right_end hend rfl (fun _ => unary_end) hdepth
  unfold Grammar.power
  exact .view (.behind hleft rfl (.behind haccept rfl hright.bind))

/-- Joined expressions whose second operand is missing at an `end` fail there. -/
lemma junctions_cut {kind : NodeKind} (hword : u.kind = .keyword word)
    (hjunction : junctionKind? u.kind = some kind) (hdepth : s.depth < s.limits.maxDepth) :
    Fails (noOperand v) ⟨some u, v, us⟩ s.faults
      (Grammar.junctions ⟨rounds + 1, production (levels + 1)⟩) s := by
  have hleads : s.tape.kind.leads = true := leads_of_tape htape hint
  have hpow : u.kind ≠ .punct .pow := by simp [hword]
  have heof : u.kind ≠ .eof := by simp [hword]
  let beforeOp : State := { s with tape := ⟨some t, u, v :: us⟩ }
  let beforeEnd : State := { s with tape := ⟨some u, v, us⟩ }
  have hdrop : drop beforeOp = .ok () beforeEnd := drop_eq rfl heof
  have hunary : Grammar.unary ⟨rounds + 1, production (levels + 1)⟩
      { s with depth := s.depth + 1 } =
        .ok (.leaf .integer t.span t.text) { beforeOp with depth := s.depth + 1 } :=
    unary_of_chain hleads hpow (chain_integer htape hint hop (Nat.succ_pos _))
  have hleft : Grammar.notExpression ⟨rounds + 1, production (levels + 1)⟩ s =
      .ok (.leaf .integer t.span t.text) beforeOp :=
    notExpression_of_unary hunary (Nat.succ_pos _) hdepth hleads hword
  have hright : Fails (noOperand v) ⟨some u, v, us⟩ s.faults
      (Grammar.notExpression ⟨rounds + 1, production (levels + 1)⟩) beforeEnd := by
    rw [← unexpected_eq (s := beforeEnd) rfl hend]
    exact notExpression_end hend hdepth
  unfold Grammar.junctions
  refine .view (.behind hleft rfl (.iterate (Nat.succ_pos _) (.view ?_)))
  rw [show junctionKind? beforeOp.tape.kind = some kind from hjunction]
  exact .behind hdrop rfl hright.bind

/-- A statement that is cut short behind an operator fails at the `end` there. -/
lemma statement_cut (hdepth : s.depth + 3 ≤ s.limits.maxDepth) :
    Fails (noOperand v) ⟨some u, v, us⟩ s.faults
      (Grammar.statement ⟨rounds + 1, production (levels + 1)⟩) s := by
  have hleads : s.tape.kind.leads = true := leads_of_tape htape hint
  have hsingle : assignsSeveral 0 false false (s.tape.current :: s.tape.ahead) = false := by
    rw [htape]
    obtain hinteger | hoctal := TokenKind.eq_of_isInteger hint
    · simp [assignsSeveral, hinteger]
    · simp [assignsSeveral, hoctal]
  let deeper : State := { s with depth := s.depth + 1 }
  let deepest : State := { s with depth := s.depth + 2 }
  have hroom : deeper.depth < deeper.limits.maxDepth := Nat.lt_of_succ_lt hdepth
  have hmoreRoom : deepest.depth < deepest.limits.maxDepth := hdepth
  have hbinary (h : Fails (noOperand v) ⟨some u, v, us⟩ s.faults
      (Grammar.binary ⟨rounds + 1, production (levels + 1)⟩ .disjunction) deepest) :
      Fails (noOperand v) ⟨some u, v, us⟩ s.faults
        (Grammar.junctions ⟨rounds + 1, production (levels + 1)⟩) deeper :=
    .junctions (.notExpression hleads (.expression hroom (.range hleads h)))
  refine .statement (Nat.lt_of_succ_lt (Nat.lt_of_succ_lt hdepth)) hsingle ?_
  obtain ⟨l, mark, hlevel⟩ | hpow | ⟨word, kind, hword, hjunction⟩ := cases_of_isBinaryOperator hop
  · exact hbinary (binary_cut (s := deepest) htape hint hop hend hlevel hmoreRoom)
  · have hpower : Fails (noOperand v) ⟨some u, v, us⟩ s.faults
        (Grammar.power ⟨rounds + 1, production (levels + 1)⟩) deepest :=
      power_cut (s := deepest) htape hint hop hend hpow hmoreRoom
    exact hbinary (.binary (.unary hleads hpower))
  · exact junctions_cut (s := deeper) htape hint hop hend hword hjunction hroom

end Cut

end Fails

end Grammar

end RubyCheck
