import RubyCheck.Proofs.Grammar.Definition

/-!
# Reading operands and expressions

What an operand is follows from its first token.  Behind an operand a chain holds on to one node
(`Held`), to which every link adds.  In operations by their levels, in assignments and in arguments,
what is read first becomes the first child of what is read around it.
-/

namespace RubyCheck.Grammar

/-! ### Operands -/

section Operands

variable {F : State → Prop} {s s' s₀ : State} {n b : ℕ} {c : NodeClass} {ns : List Node}
variable {g : Grammar}

/-- A constant behind a leading `::` is an expression. -/
lemma Ready.outermostConstant (r : Ready F n s) (hkind : s.tape.kind ≠ .eof) :
    Gives F (Yields .expression s.tape.left s) outermostConstant s := by
  refine .view (r.drop hkind fun course => course.silent (.expect _) fun _ _ course => ?_)
  exact course.finishNamed rfl .none (fun _ => rfl) fun _ => rfl

namespace Inner

/-- A negation is an expression. -/
lemma negation (h : Inner g n) (r : Ready F n s) (hkind : s.tape.kind ≠ .eof) :
    Gives F (Yields .expression s.tape.left s) g.negation s := by
  refine .view (r.drop hkind fun course => ?_)
  refine course.node (h.parse .expression) fun m _ hm course => ?_
  exact course.finish rfl (.one hm .nil) (fun _ => rfl) fun _ => rfl

/-- Every operand that a keyword begins is an expression. -/
lemma keywordOperand (h : Inner g n) (r : Ready F n s) {word : Keyword}
    (hword : s.tape.kind = .keyword word) :
    Gives F (Yields .expression s.tape.left s) (g.keywordOperand word) s := by
  have hkind : s.tape.kind ≠ .eof := by simp [hword]
  have hwritten := congrArg TokenKind.isWritten hword
  cases word with
  | nil_ | true_ | false_ | self_ | redo_ | retry_ =>
    exact r.takeAs hkind .nil (fun _ => rfl) (fun _ => rfl) fun _ => hwritten
  | def_ => exact h.method r hkind
  | class_ => exact h.classDefinition r hkind
  | module_ => exact h.moduleDefinition r hkind
  | alias_ => exact r.alias_ hkind
  | undef_ => exact h.undef r hkind
  | beginHook => exact h.hook r hkind hwritten (.inl rfl)
  | endHook => exact h.hook r hkind hwritten (.inr rfl)
  | if_ => exact h.conditional r hkind
  | unless_ => exact h.negatedConditional r hkind
  | while_ => exact h.conditionLoop r hkind (.inl rfl)
  | until_ => exact h.conditionLoop r hkind (.inr rfl)
  | for_ => exact h.iteration r hkind
  | case_ => exact h.choice r hkind
  | begin_ => exact h.protectedBody r hkind
  | return_ => exact h.jump r hkind (.inl rfl)
  | break_ => exact h.jump r hkind (.inr (.inl rfl))
  | next_ => exact h.jump r hkind (.inr (.inr rfl))
  | yield_ => exact h.keywordCall r hkind (.inl rfl)
  | super_ => exact h.keywordCall r hkind (.inr rfl)
  | defined_ => exact h.definedTest r hkind
  | not_ => exact h.negation r hkind
  | and_ | do_ | else_ | elsif_ | end_ | ensure_ | in_ | or_ | rescue_ | then_ | when_ =>
    exact r.refuse

/-- Every operand that a mark begins is an expression, or the mark is refused. -/
lemma markOperand (h : Inner g n) (r : Ready F n s) (hkind : s.tape.kind ≠ .eof) (mark : Punct) :
    Gives F (Yields .expression s.tape.left s) (g.markOperand mark) s := by
  unfold Grammar.markOperand
  split
  · exact r.outermostConstant hkind
  · exact h.array r hkind
  · exact h.hash r hkind
  · exact h.paren r hkind
  · exact h.lambda r hkind
  · exact r.refuse

/-- Operands are expressions, whatever token begins them. -/
lemma operand (h : Inner g n) : Reader 1 (n + 1) .expression g.operand := by
  refine .of fun s r => .view ?_
  generalize hk : s.tape.kind = k
  have hkind (hne : k ≠ .eof) : s.tape.kind ≠ .eof := hk ▸ hne
  have hwritten := congrArg TokenKind.isWritten hk
  cases k with
  | integer | legacyOctal | float | character | instanceVariable | classVariable | globalVariable =>
    exact r.takeLeaf (hkind (by simp)) .nil (fun _ _ => rfl) (fun _ _ => rfl) fun _ => hwritten
  | percentLiteral => exact r.percentLiteral hk
  | stringBegin => exact h.quoted r (hkind (by simp)) hwritten (.inl rfl)
  | regexBegin => exact h.quoted r (hkind (by simp)) hwritten (.inr rfl)
  | symbol => exact r.symbol hk fun _ _ => rfl
  | identifier => exact h.bareName r hk
  | constant => exact h.constant r (hkind (by simp))
  | keyword word => exact h.keywordOperand r hk
  | punct mark => exact h.markOperand r (hkind (by simp)) mark
  | stringContent | stringEnd | interpolationBegin | interpolationEnd | label | opAssign
  | newline | eof => exact r.refuse

end Inner

/-! ### Chains -/

/-- The name behind a dot makes no node. -/
lemma Skipper.calledName : Skipper n calledName := by
  refine .of fun s course => .view (.ite (fun _ => course.reads) fun _ => .ite (fun _ => ?_) ?_)
  · exact course.silent .advance fun _ _ course => course.reads
  · exact fun _ => course.refuse

namespace Inner

variable {m : Node}

/-- A call behind an expression takes it up as its receiver. -/
lemma methodCall (h : Inner g n) (course : Course F n b s₀ [m] s)
    (hm : NodeClass.has .expression m = true) :
    Gives F (Yields .expression b s₀) (g.methodCall m s₀.start) s := by
  refine course.silent .calledName fun _ _ course => ?_
  refine course.nodes h.callArguments fun _ _ hms course => ?_
  exact course.finishNamed rfl (.present hm hms.append_none) (fun _ => rfl) fun _ => rfl

/-- A name behind `::` takes up its scope. -/
lemma scopedName (h : Inner g n) (course : Course F n b s₀ [m] s)
    (hm : NodeClass.has .expression m = true) :
    Gives F (Yields .expression b s₀) (g.scopedName m s₀.start) s := by
  refine .view (.view (.ite (fun _ => ?_) fun _ => .ite (fun _ => ?_) fun _ => ?_))
  · refine course.silent .advance fun _ _ course => ?_
    exact course.finishNamed rfl (.some hm) (fun _ => rfl) fun _ => rfl
  · exact h.methodCall course hm
  · exact course.refuse

/-- Brackets behind an expression take it up as what is read from. -/
lemma element (h : Inner g n) (course : Course F n b s₀ [m] s)
    (hm : NodeClass.has .expression m = true) (hkind : s.tape.kind ≠ .eof) :
    Gives F (Yields .expression s.tape.left s₀) (g.element m s₀.start) s := by
  refine course.take hkind fun _ => ?_
  have hle := Nat.le_of_lt course.left_lt
  have course' := course.fresh.advanced' hkind
  have hitems : ListReader n [.many .argument]
      (Grammar.items g s.tape.current (.punct .rBracket) (g.parse .argument)) :=
    h.items (h.parse .argument) (by decide)
  refine course'.nodes hitems.allowingDo fun _ _ hms course' => ?_
  refine course.wrap rfl course' hms (fun _ => rfl) fun arguments harguments course => ?_
  have hclass : NodeClass.has (.of .arguments) arguments = true := by
    simp [NodeClass.has, harguments]
  exact (course.bounded course'.left hle).finish rfl
    (.one hm (.one hclass .nil)) (fun _ => rfl) fun _ => rfl

/-- A block whose opener is missing begins at its bar, unless the report ends reading. -/
lemma openerlessBlock (h : Inner g n) (course : Course F n b s₀ ns s)
    (hkind : s.tape.kind = .punct .pipe) :
    Gives F (Yields (.of .block) s.tape.left s) g.openerlessBlock s := by
  set f : Fault := ⟨.missingBlockOpener, s.tape.current.span⟩
  refine .view (.report ?_)
  refine h.doBlockBehind (course.fresh.skip (.report s f)) rfl (Nat.le_of_lt course.left_lt) ?_
  rcases s.tape_report f with htape | htape
  · rw [htape]
    exact .inr ⟨Nat.le_refl _, hkind⟩
  · have hahead := (course.ends.consumable (by simp [hkind])).ahead
    rw [htape, Tape.left, Tape.left, Tape.ahead_toLast]
    exact .inl (List.length_pos_iff.mpr hahead)

end Inner

/-- A node that was read from a state on, behind which more of it may follow. -/
structure Held (n b : ℕ) (s₀ : State) (c : NodeClass) (m : Node) (s : State) : Prop where
  ends : s₀.tape.Ends
  has : c.has m = true
  course : Course (Passes s₀) n b s₀ [m] s

/-- The end of a round of a repetition that adds to a node. -/
abbrev Held.Post (n b : ℕ) (s₀ : State) (c : NodeClass) (s : State) :
    Round Node Node → State → Prop :=
  Round.Post (Held n b s₀ c) (Yields c b s₀) s

namespace Held

variable {m : Node}

/-- A chain may end with what it holds. -/
lemma done (h : Held n b s₀ c m s') :
    Gives (Passes s₀) (Held.Post n b s₀ c s) (pure (.done m)) s' :=
  ⟨h.has, h.course.reads, h.course.left⟩

/-- A node that takes the place of the one before leaves fewer tokens. -/
lemma again {p : Parser Node} (h : Held n b s₀ c m s)
    (hp : Gives (Passes s₀) (Yields c s.tape.left s₀) p s') :
    Gives (Passes s₀) (Held.Post n b s₀ c s) (do return .again (← p)) s' := by
  refine hp.bind fun m' s'' hm => ?_
  have hpasses := hm.2.1.passes
  have hleft := Nat.lt_trans hm.2.2 h.course.left
  have course : Course (Passes s₀) n b s₀ [m'] s'' :=
    ⟨hm.2.1, hpasses.ends h.ends, hleft, h.course.le, fun _ hs => hpasses.trans hs⟩
  exact ⟨⟨h.ends, hm.1, course⟩, hm.2.2⟩

/-- A block behind a call. -/
lemma attach {p : Parser Node} (h : Held n b s₀ .expression m s) (htakes : takesBlock m = true)
    (hp : Gives (Passes s₀) (Yields (.of .block) s.tape.left s) p s) :
    Gives (Passes s₀) (Held.Post n b s₀ .expression s)
      (do return .again (withBlock m (← p))) s := by
  refine Gives.bind hp fun block s' hblock => ?_
  have hreads := Reads.attach h.course.reads hblock.2.1 htakes (eq_of_beq hblock.1)
  have hcall : NodeClass.has .expression (withBlock m block) = true := h.has
  exact h.again (p := pure (withBlock m block)) ⟨hcall, hreads, hblock.2.2⟩

/-- A repetition that adds to a node. -/
lemma iterate {body : Node → Parser (Round Node Node)} {rounds : ℕ} (h : Held n b s₀ c m s)
    (hrounds : n < rounds)
    (hbody : ∀ m s, Held n b s₀ c m s → Gives (Passes s₀) (Held.Post n b s₀ c s) (body m) s) :
    Gives (Passes s₀) (Yields c b s₀) (Grammar.iterate body rounds m) s :=
  Gives.iterate hbody (Nat.lt_trans h.course.left_lt hrounds) h

end Held

namespace Inner

variable {m : Node}

/-- Every link gives an expression again that is held, or ends the chain. -/
lemma link (h : Inner g n) (held : Held n b s₀ .expression m s) :
    Gives (Passes s₀) (Held.Post n b s₀ .expression s) (g.link s₀.start m) s := by
  have hcall (hkind : s.tape.kind ≠ .eof) :
      Gives (Passes s₀) (Held.Post n b s₀ .expression s) (do
        drop
        return .again (← g.methodCall m s₀.start)) s :=
    held.course.drop' hkind fun course => held.again (h.methodCall course held.has)
  refine .view ?_
  split
  case h_1 hkind => exact hcall (by simp [Tape.kind, hkind])
  case h_2 hkind => exact hcall (by simp [Tape.kind, hkind])
  case h_3 hkind =>
    refine .ite (fun _ => held.done) fun _ => ?_
    exact held.course.drop' (by simp [Tape.kind, hkind]) fun course =>
      held.again (h.scopedName course held.has)
  case h_4 hkind =>
    refine .ite (fun _ => held.done) fun _ => ?_
    exact held.again (h.element held.course held.has (by simp [Tape.kind, hkind]))
  case h_5 hkind =>
    refine .ite (fun htakes => ?_) fun _ => held.done
    exact held.attach htakes (h.braceBlock held.course.ready (by simp [Tape.kind, hkind]))
  case h_6 hkind =>
    refine .view (.ite (fun htakes => ?_) fun _ => held.done)
    exact held.attach (Bool.and_eq_true_iff.mp htakes).1
      (h.doBlock held.course.ready (by simp [Tape.kind, hkind]))
  case h_7 hkind =>
    refine .view (.ite (fun htakes => ?_) fun _ => held.done)
    exact held.attach (Bool.and_eq_true_iff.mp htakes).1 (h.openerlessBlock held.course hkind)
  case h_8 => exact held.done

/-- A chain is an expression. -/
lemma chain (h : Inner g n) : Reader 1 (n + 1) .expression g.chain := by
  refine .of fun s r => .view (r.node h.operand fun m s' hm course => ?_)
  exact Held.iterate ⟨r.ends, hm, course⟩ h.rounds fun _ _ held => h.link held

end Inner

end Operands

section Expressions

variable {F : State → Prop} {s s' s₀ s₁ : State} {n b : ℕ} {g : Grammar}

namespace Inner

/-! ### Operations -/

/-- A power is an expression. -/
lemma power (h : Inner g n) : Reader 1 (n + 1) .expression g.power := by
  refine .of fun s r => .view (r.node h.chain fun base s' hbase course => ?_)
  refine course.accept (by decide) (fun _ course => ?_) (course.yield hbase)
  refine course.node (Reader.nested (h.parse .unary)) fun exponent _ hexponent course => ?_
  exact course.finishNamed rfl (.one hbase (.one hexponent .nil)) (fun _ => rfl) fun _ => rfl

/-- A unary operation is an expression. -/
lemma unary (h : Inner g n) : Reader 1 (n + 1) .expression g.unary := by
  refine .of fun s r => .view (.view ?_)
  have hoperand : Reader 1 n .expression (nested (g.parse .unary)) := Reader.nested (h.parse .unary)
  have hsign {mark : Punct} (hmark : s.tape.kind = .punct mark) :
      Gives (Passes s) (Yields .expression s.tape.left s) (do
        let operator := (← advance).text
        finishNamed .unary s.tape.current.span.start operator [← nested (g.parse .unary)]) s := by
    have hkind : s.tape.kind ≠ .eof := by simp [hmark]
    have hwritten := congrArg TokenKind.isWritten hmark
    refine r.take hkind fun course => course.fresh.node hoperand fun m _ hm course => ?_
    exact course.markedNamed (r.ends.consumable hkind) hwritten (.one hm .nil) (fun _ => rfl)
      fun _ => rfl
  split
  case h_1 hkind =>
    refine r.drop (by simp [hkind]) fun course => course.node hoperand fun m _ hm course => ?_
    exact course.finish rfl (.one hm .nil) (fun _ => rfl) fun _ => rfl
  case h_2 hkind => exact hsign hkind
  case h_3 hkind => exact hsign hkind
  case h_4 hkind => exact hsign hkind
  case h_5 => exact r.tail h.power

/-- The right operand of an operator of any level is an expression. -/
lemma rightGoal (h : Inner g n) (l : Level) : Reader 1 n .expression (g.parse (rightGoal l)) := by
  unfold Grammar.rightGoal
  split
  · exact h.parse (.binary _)
  · exact h.parse .unary

/-- Two expressions with an operator between them are one. -/
lemma joined {left right : Node} (course : Course F n b s₀ [left, right] s)
    (hleft : NodeClass.has .expression left = true)
    (hright : NodeClass.has .expression right = true) (operator : Punct) :
    Gives F (Yields .expression b s₀) (joined s₀.start operator left right) s := by
  have hfits : Fits [.one .expression, .one .expression] [left, right] :=
    .one hleft (.one hright .nil)
  unfold Grammar.joined
  split
  · exact course.finish rfl hfits (fun _ => rfl) fun _ => rfl
  · exact course.finish rfl hfits (fun _ => rfl) fun _ => rfl
  · exact course.finishNamed rfl hfits (fun _ => rfl) fun _ => rfl

/-- A round of operators holds an expression again, or ends. -/
lemma operatorRound (h : Inner g n) {least : Level} (held : Held n b s₀ .expression m s) :
    Gives (Passes s₀) (Held.Post n b s₀ .expression s) (g.operatorRound least s₀.start m) s := by
  refine .view ?_
  split
  · rename_i l operator hoperator
    refine .ite (fun _ => held.done) fun _ => ?_
    have hkind : s.tape.kind ≠ .eof := by
      rintro hkind
      simp [hkind, Level.ofToken?] at hoperator
    refine held.course.drop' hkind fun course => ?_
    refine course.node (h.rightGoal l).nested fun right _ hright course => ?_
    exact held.again (joined course held.has hright operator)
  · exact held.done

/-- Operations of one level and above are an expression. -/
lemma binary (h : Inner g n) (least : Level) : Reader 1 (n + 1) .expression (g.binary least) := by
  refine .of fun s r => .view (r.node h.unary fun m s' hm course => ?_)
  exact Held.iterate ⟨r.ends, hm, course⟩ h.rounds fun _ _ held => h.operatorRound held

/-- The end of the text is no operator. -/
lemma ne_eof_of_isRangeOperator {k : TokenKind} (hk : isRangeOperator k = true) : k ≠ .eof := by
  rintro rfl
  simp [isRangeOperator] at hk

/-- A range is an expression. -/
lemma range (h : Inner g n) : Reader 1 (n + 1) .expression g.range := by
  have hside := (h.binary .disjunction).lower (Nat.le_succ n)
  refine .of fun s r => .view (.view (.ite (fun hoperator => ?_) fun _ => ?_))
  · refine r.take (ne_eof_of_isRangeOperator hoperator) fun course => ?_
    refine course.node hside fun m _ hm course => ?_
    exact course.finishNamed rfl (.one hm .none) (fun _ => rfl) fun _ => rfl
  · refine r.node (h.binary .disjunction) fun lower s₁ hlower course => .view ?_
    refine .ite (fun hoperator => ?_) fun _ => course.yield hlower
    refine course.take (ne_eof_of_isRangeOperator hoperator) fun course => .view ?_
    have hfinish {upper : List Node} {s₂ : State} (hupper : Fits [.maybe .expression] upper)
        (course : Course (Passes s) n s.tape.left s ([lower] ++ upper) s₂) :
        Gives (Passes s) (Yields .expression s.tape.left s)
          (finishNamed .range s.tape.current.span.start s₁.tape.current.text (lower :: upper)) s₂ :=
      course.finishNamed rfl (.one hlower hupper) (fun _ => rfl) fun _ => rfl
    refine .ite (fun _ => ?_) fun _ => hfinish .none course
    exact course.nodes (.one hside) fun _ _ hupper course => hfinish hupper course

/-- A choice by a question mark is an expression. -/
lemma ternary (h : Inner g n) : Reader 1 (n + 1) .expression g.ternary := by
  have hvalue : Reader 1 n .expression (nested (g.parse .ternary)) :=
    Reader.nested (h.parse .ternary)
  refine .of fun s r => .view (r.node h.range fun test s' htest course => ?_)
  refine course.accept (by decide) (fun _ course => ?_) (course.yield htest)
  refine course.silent .skipBreaks fun _ _ course => ?_
  refine course.node hvalue fun yes _ hyes course => ?_
  refine course.silent .skipBreaks fun _ _ course => ?_
  refine course.silent (.discard (.expect _)) fun _ _ course => ?_
  refine course.silent .skipBreaks fun _ _ course => ?_
  refine course.node hvalue fun no _ hno course => ?_
  exact course.finish rfl (.one htest (.one hyes (.one hno .nil))) (fun _ => rfl) fun _ => rfl

/-! ### Expressions and arguments -/

/-- What is assigned is an expression, or an array of several values without brackets. -/
lemma assignedValue (h : Inner g n) : Reader 1 n .assigned g.assignedValue := by
  intro s hends hleft
  have course := Course.begin hends hleft
  refine .view (.ite (fun hstar => .view ?_) fun _ => ?_)
  · have hkind : s.tape.kind ≠ .eof := by
      rw [eq_of_beq hstar]
      simp
    refine course.ready.drop hkind fun course => ?_
    refine course.node (h.parse .ternary) fun m _ hm course => ?_
    exact course.finish rfl (.some (NodeClass.within_left _ _ m hm)) (fun _ => rfl) fun _ => rfl
  · exact Reader.mono (h.parse .expression) NodeClass.expression_within_assigned hends hleft

/-- The left side of an assignment becomes a target before the right side is read. -/
lemma assignment (h : Inner g n) : Reader 1 (n + 1) .expression g.assignment := by
  refine .of fun s r => .view (r.node h.ternary fun left s' hleft course => .view ?_)
  split
  · refine course.assign.bind fun target _ htarget => ?_
    obtain ⟨htarget, course⟩ := htarget
    refine course.drop fun course => course.node h.assignedValue fun value _ hvalue course => ?_
    exact course.finish rfl (.one htarget (.one hvalue .nil)) (fun _ => rfl) fun _ => rfl
  · refine course.assign.bind fun target _ htarget => ?_
    obtain ⟨htarget, course⟩ := htarget
    refine course.silent .advance fun _ _ course => ?_
    refine course.node h.assignedValue fun value _ hvalue course => ?_
    exact course.finishNamed rfl (.one htarget (.one hvalue .nil)) (fun _ => rfl) fun _ => rfl
  · exact course.yield hleft

/-- An expression is read one level deeper. -/
lemma expression (h : Inner g n) : Reader 1 (n + 1) .expression g.expression := h.assignment.nested

/-- An argument behind a star or an ampersand is one node. -/
lemma spreadArgument (h : Inner g n) (r : Ready F n s) {k : NodeKind}
    (hk : spreadKind? s.tape.kind = some k) :
    Gives F (Yields .argument s.tape.left s) (g.spreadArgument k) s := by
  obtain ⟨hkind, hspread⟩ :
      s.tape.kind ≠ .eof ∧ (k = .splat ∨ k = .doubleSplat ∨ k = .blockPass) := by
    unfold spreadKind? at hk
    split at hk <;> simp_all
  have hfinish {ms : List Node} {s₁ : State} (hms : Fits [.maybe .expression] ms)
      (course : Course F n s.tape.left s ms s₁) :
      Gives F (Yields .argument s.tape.left s) (finish k s.tape.current.span.start ms) s₁ := by
    have hsplat : Fits NodeKind.splat.layout ms := by
      rcases hms.eq_nil_or_singleton with rfl | ⟨m, rfl, hm⟩
      · exact .none
      · exact .some (NodeClass.within_left _ _ m hm)
    rcases hspread with rfl | rfl | rfl
    · exact course.finish rfl hsplat (fun _ => rfl) fun _ => rfl
    · exact course.finish rfl hms (fun _ => rfl) fun _ => rfl
    · exact course.finish rfl hms (fun _ => rfl) fun _ => rfl
  refine .view (r.drop hkind fun course => .view (.ite (fun _ => ?_) fun _ => hfinish .none course))
  exact course.node (h.parse .ternary) fun m _ hm course => hfinish (.some hm) course

/-- An argument with nothing in front of it is one node. -/
lemma plainArgument (h : Inner g n) : Reader 1 (n + 1) .argument g.plainArgument := by
  refine .of fun s r => .view (r.node h.expression fun value s' hvalue course => ?_)
  refine course.accept (by decide) (fun _ course => ?_)
    (course.yield (NodeClass.expression_within_argument value hvalue))
  refine course.silent .skipBreaks fun _ _ course => ?_
  refine course.node (h.parse .expression) fun behind _ hbehind course => ?_
  exact course.finish rfl (.one hvalue (.one hbehind .nil)) (fun _ => rfl) fun _ => rfl

/-- An argument of either form is one node. -/
lemma argument (h : Inner g n) : Reader 1 (n + 1) .argument g.argument := by
  refine .of fun s r => .view ?_
  split
  · rename_i k hk
    exact h.spreadArgument r hk
  · refine .ite (fun hlabel => ?_) fun _ => r.tail h.plainArgument
    refine (h.labelPair r (eq_of_beq hlabel)).mono (fun _ hs => hs) fun m _ hm => ⟨?_, hm.2⟩
    simp [NodeClass.has, eq_of_beq hm.1, NodeKind.isArgument]

end Inner

end Expressions

end RubyCheck.Grammar
