import RubyCheck.Proofs.Grammar.Phrase

/-!
# Reading control flow

Branches, loops, cases, protected bodies and jumps.  A construct is closed by its own token, and what
stands in front of that is read by the phrases for conditions, clauses and bodies.
-/

namespace RubyCheck.Grammar

variable {α : Type} {F : State → Prop} {Q : α → State → Prop} {s s' s₀ s₁ : State} {n b : ℕ}
variable {c : NodeClass} {ns seen : List Node} {g : Grammar}

/-- The token that closes a construct. -/
lemma Course.closer {opener : Token} {mark : TokenKind} {f : Unit → Parser α}
    (course : Course F n b s₀ ns s) (hmark : mark ≠ .eof)
    (hf : s.tape.Consumable → Course F n b s₀ ns s.advanced → Gives F Q (f ()) s.advanced) :
    Gives F Q (expectCloser opener mark >>= f) s := by
  have hcloser : Gives F (fun _ s' => s' = s.advanced ∧ s.tape.Consumable)
      (expectCloser opener mark) s := by
    refine .view (.ite (fun _ => course.fail) fun _ => ?_)
    exact course.ready.expect hmark fun hkind _ => ⟨rfl, course.ends.consumable (hkind ▸ hmark)⟩
  refine hcloser.bind fun _ s' hs' => ?_
  obtain ⟨rfl, hmore⟩ := hs'
  exact hf hmore (course.advanced hmore.kind)

namespace Inner

/-- Another branch, one level deeper than the keyword that was just consumed for it. -/
lemma nestedBranch (h : Inner g n) (course : Course F n b s₀ ns s) (hkind : s.tape.kind ≠ .eof) :
    Gives F (Yields (.of .if_) s.tape.left s) (nested (g.parse (.branch s.tape.current)))
      s.advanced := by
  by_cases hdepth : s.depth < s.limits.maxDepth
  · refine .congr (if_pos hdepth) ?_
    refine Gives.around (h.parse (.branch s.tape.current) (s := Context.deeper.enter s) course.ends
      course.left_lt hkind rfl) (fun _ hs => course.fails _ (.within .deeper hs)) fun m s' hm => ?_
    exact ⟨hm.1, .within .deeper hm.2.1, hm.2.2⟩
  · have hmore := course.ends.consumable hkind
    exact .congr (if_neg hdepth) (.fail (course.fails _ (.steps hmore.steps)))

/-- What stands behind `if` begins with the keyword that was just consumed. -/
lemma branch (h : Inner g n) (course : Course F n b s [] s.advanced) {keyword : Token}
    (hkeyword : s.tape.current = keyword) :
    Gives F (Yields (.of .if_) b s) (g.branch keyword) s.advanced := by
  subst hkeyword
  refine course.node (h.condition _ _) fun test _ htest course => ?_
  refine course.node (h.statements _) fun body s₁ hbody course => ?_
  have hfinish {rest : List Node} {s₂ : State}
      (hrest : Fits [.maybe (.either (.of .if_) (.of .else_))] rest)
      (course : Course F n b s ([test] ++ [body] ++ rest) s₂) :
      Gives F (Yields (.of .if_) b s)
        (finish .if_ s.tape.current.span.start (test :: body :: rest)) s₂ :=
    course.finish rfl (.one htest (.one hbody hrest)) (fun _ => rfl) fun _ => rfl
  refine .view (.ite (fun helsif => ?_) fun _ => ?_)
  · have hkind : s₁.tape.kind ≠ .eof := by
      rw [eq_of_beq helsif]
      simp
    refine course.take hkind fun _ => ?_
    refine (h.nestedBranch course hkind).one fun m _ hm => ?_
    exact hfinish (.some (NodeClass.within_left _ _ m hm.1)) (course.on hm.2.1)
  · refine course.nodes h.elseBranch fun rest _ hrest course => hfinish ?_ course
    rcases hrest.eq_nil_or_singleton with rfl | ⟨m, rfl, hm⟩
    · exact .none
    · exact .some (NodeClass.within_right _ _ m hm)

/-- The `end` of a conditional is consumed behind it, and closes it. -/
lemma conditional (h : Inner g n) (r : Ready F n s) (hkind : s.tape.kind ≠ .eof) :
    Gives F (Yields .expression s.tape.left s) g.conditional s := by
  refine r.take hkind fun course => ?_
  refine (h.branch course rfl).bind fun m s₁ hm => ?_
  obtain ⟨hclass, hreads, hleft⟩ := hm
  have hpasses := hreads.passes
  have hm : m.kind = .if_ := eq_of_beq hclass
  have course : Course F n s.tape.left s [m] s₁ :=
    ⟨hreads, hpasses.ends r.ends, hleft, r.left, fun _ hs => r.fails _ (hpasses.trans hs)⟩
  refine course.closer (by decide) fun hmore course => .view ?_
  rw [State.advanced, hmore.previous_advance]
  refine ⟨?_, .close hreads hmore hm, course.left⟩
  simp [NodeClass.has, hm, NodeKind.isExpression]

/-- An `unless` is an expression. -/
lemma negatedConditional (h : Inner g n) (r : Ready F n s) (hkind : s.tape.kind ≠ .eof) :
    Gives F (Yields .expression s.tape.left s) g.negatedConditional s := by
  refine r.take hkind fun course => ?_
  refine course.node (h.condition _ _) fun test _ htest course => ?_
  refine course.node (h.statements _) fun body _ hbody course => ?_
  refine course.nodes h.elseBranch fun rest _ hrest course => ?_
  refine course.silent (.expectEnd _) fun _ _ course => ?_
  exact course.finish rfl (.one htest (.one hbody hrest)) (fun _ => rfl) fun _ => rfl

/-- The body of a loop is one node of statements. -/
lemma loopBody (h : Inner g n) (opener : Token) :
    Reader 0 n (.of .statements) (g.loopBody opener) := by
  refine .ofCourse fun s course => course.node (h.statements _) fun m _ hm course => ?_
  exact course.silent (.expectEnd opener) fun _ _ course => course.yield hm

/-- A `while` or an `until` is an expression. -/
lemma conditionLoop (h : Inner g n) (r : Ready F n s) (hkind : s.tape.kind ≠ .eof) {k : NodeKind}
    (hk : k = .while_ ∨ k = .until_) :
    Gives F (Yields .expression s.tape.left s) (g.conditionLoop k) s := by
  refine r.take hkind fun course => ?_
  refine course.node (h.condition _ _) fun test _ htest course => ?_
  refine course.node (h.loopBody _) fun body _ hbody course => ?_
  rcases hk with rfl | rfl
  · exact course.finish rfl (.one htest (.one hbody .nil)) (fun _ => rfl) fun _ => rfl
  · exact course.finish rfl (.one htest (.one hbody .nil)) (fun _ => rfl) fun _ => rfl

/-- What a `for` assigns to is one target, or several under one node. -/
lemma loopTarget (h : Inner g n) :
    Reader 1 n (.either .target .targets) g.loopTarget := by
  intro s hends hleft
  refine .view (.ite (fun _ => ?_) fun _ => ?_)
  · exact Reader.mono (h.parse (.targets none)) (NodeClass.within_right _ _) hends hleft
  · exact Reader.mono (Reader.assignable (h.parse .chain)) (NodeClass.within_left _ _) hends hleft

/-- A `for` is an expression. -/
lemma iteration (h : Inner g n) (r : Ready F n s) (hkind : s.tape.kind ≠ .eof) :
    Gives F (Yields .expression s.tape.left s) g.iteration s := by
  refine r.take hkind fun course => ?_
  refine course.node h.loopTarget fun target _ htarget course => ?_
  refine course.silent (.discard (.expect _)) fun _ _ course => ?_
  refine course.node (h.condition _ _) fun source _ hsource course => ?_
  refine course.node (h.loopBody _) fun body _ hbody course => ?_
  obtain ⟨hlayout, hplain⟩ : NodeClass.has (.either .target (.of .multiTargets)) target = true ∧
      target.holdsParameter = false := by
    rcases Bool.or_eq_true_iff.mp htarget with hone | hseveral
    · exact ⟨NodeClass.within_left _ _ target hone, NodeClass.holdsParameter_eq_false hone rfl rfl⟩
    · have hkind := NodeClass.targets_within_multiTargets target hseveral
      exact ⟨NodeClass.within_right _ _ target hkind, NodeClass.not_of_targets hseveral⟩
  refine course.finish rfl (.one hlayout (.one hsource (.one hbody .nil))) (fun _ => ?_) fun _ => rfl
  refine Node.isInert_of_forall (.inr rfl) ?_
  change ∀ c ∈ [target, source, body], c.holdsParameter = false
  rw [List.forall_mem_cons, List.forall_mem_cons, List.forall_mem_singleton]
  exact ⟨hplain, NodeClass.holdsParameter_eq_false hsource rfl rfl,
    NodeClass.holdsParameter_eq_false hbody rfl rfl⟩

/-- The statements of a clause are one node. -/
lemma clauseBody (h : Inner g n) (keyword : Token) :
    Reader 0 n (.of .statements) (g.clauseBody keyword) := by
  refine .ofCourse fun s course => course.silent (.separator keyword false) fun _ _ course => ?_
  exact course.last (h.statements _)

/-- A `when` is one node. -/
lemma valueClause (h : Inner g n) (r : Ready F n s) (hkind : s.tape.kind ≠ .eof) :
    Gives F (Yields (.of .when_) s.tape.left s) g.valueClause s := by
  refine r.take hkind fun course => .view ?_
  refine course.fresh.nodes (h.separated .skipBreaks (h.parse .argument)) fun ms _ hms course' => ?_
  refine course.wrap rfl course' hms (fun _ => rfl) fun values hvalues course => ?_
  refine course.node (h.clauseBody _) fun body _ hbody course => ?_
  refine course.finish rfl (.one ?_ (.one hbody .nil)) (fun _ => rfl) fun _ => rfl
  simp [NodeClass.has, hvalues]

end Inner

/-- Several values close to an array. -/
lemma Course.arrayOf {f : Node → Parser α} (course : Course F n b s₀ ns s) (hns : Fits [.many c] ns)
    (hc : c.Within .argument) (harray : NodeClass.expression.Within c)
    (hf : ∀ m, c.has m = true → Course F n b s₀ [m] s → Gives F Q (f m) s) :
    Gives F Q (arrayOf s₀.start ns >>= f) s := by
  unfold Grammar.arrayOf
  split
  · exact hf _ (hns.forall_mem _ (by simp)) course
  · have hreads : Reads s₀ [⟨.array, s.spanFrom s₀.start, none, ns⟩] s :=
      .unmarked course.reads (hns.mono hc) rfl rfl
    exact .view (hf _ (harray _ rfl) (course.retold hreads))

namespace Inner

/-- A pattern with a guard behind it is one node, around the pattern. -/
lemma guarded (h : Inner g n) {pattern : Node} (course : Course F n b s₀ [pattern] s)
    (hpattern : NodeClass.has .argument pattern = true) :
    Gives F (Yields (.either .argument (.either (.of .ifModifier) (.of .unlessModifier))) b s₀)
      (g.guarded s₀.start pattern) s := by
  have hguard {k : NodeKind} (hk : k = .ifModifier ∨ k = .unlessModifier) :
      Gives F
        (Yields (.either .argument (.either (.of .ifModifier) (.of .unlessModifier))) b s₀) (do
        drop
        finish k s₀.start [pattern, ← g.parse .expression]) s := by
    refine course.drop fun course => course.node (h.parse .expression) fun m _ hm course => ?_
    have hleft := NodeClass.within_right .statement .argument pattern hpattern
    have hright := NodeClass.expression_within_statement m hm
    rcases hk with rfl | rfl
    · exact course.finish rfl (.one hleft (.one hright .nil)) (fun _ => rfl) fun _ => rfl
    · exact course.finish rfl (.one hleft (.one hright .nil)) (fun _ => rfl) fun _ => rfl
  refine .view ?_
  unfold guardKind?
  split
  · rename_i k hk
    refine hguard ?_
    split at hk <;> simp_all
  · exact course.yield (NodeClass.within_left _ _ pattern hpattern)

/-- An `in` is one node. -/
lemma patternClause (h : Inner g n) (r : Ready F n s) (hkind : s.tape.kind ≠ .eof) :
    Gives F (Yields (.of .in_) s.tape.left s) g.patternClause s := by
  refine r.take hkind fun course => .view ?_
  refine course.fresh.nodes (h.separated (.pure ()) (h.parse .argument)) fun ms _ hms course' => ?_
  refine course'.arrayOf hms (.refl _) NodeClass.expression_within_argument fun m hm course' => ?_
  refine (h.guarded course' hm).bind fun pattern _ hpattern => ?_
  refine (course.on hpattern.2.1).node (h.clauseBody _) fun body _ hbody course => ?_
  exact course.finish rfl (.one hpattern.1 (.one hbody .nil)) (fun _ => rfl) fun _ => rfl

/-- A `case` has any number of clauses of either kind. -/
lemma clauses (h : Inner g n) :
    ListReader n [.many (.either (.of .when_) (.of .in_))] g.clauses := by
  refine .iterate (Nat.le_of_lt h.rounds) fun s₀ seen s hseen => .view ?_
  split
  case h_1 hkind =>
    have hclause := h.valueClause hseen.course.ready (by simp [hkind])
    refine hseen.course.own' hclause fun m _ hm course => ?_
    exact (hseen.cons (NodeClass.within_left _ _ m hm) course).again (Nat.le_refl _)
  case h_2 hkind =>
    have hclause := h.patternClause hseen.course.ready (by simp [hkind])
    refine hseen.course.own' hclause fun m _ hm course => ?_
    exact (hseen.cons (NodeClass.within_right _ _ m hm) course).again (Nat.le_refl _)
  case h_3 => exact hseen.done

/-- A `case` is an expression. -/
lemma choice (h : Inner g n) (r : Ready F n s) (hkind : s.tape.kind ≠ .eof) :
    Gives F (Yields .expression s.tape.left s) g.choice s := by
  refine r.take hkind fun course => .view ?_
  have hbehind {subject : List Node} {s₁ : State} (hsubject : Fits [.maybe .statement] subject)
      (course : Course F n s.tape.left s ([] ++ subject) s₁) :
      Gives F (Yields .expression s.tape.left s) (do
        skipTerminators
        let clauses ← g.clauses
        let otherwise ← g.elseBranch
        expectEnd s.tape.current
        finish .case_ s.tape.current.span.start (subject ++ clauses ++ otherwise)) s₁ := by
    refine course.silent .skipTerminators fun _ _ course => ?_
    refine course.nodes h.clauses fun _ _ hclauses course => ?_
    refine course.nodes h.elseBranch fun _ _ hotherwise course => ?_
    refine course.silent (.expectEnd _) fun _ _ course => ?_
    exact course.finish rfl ((hsubject.append hclauses).append hotherwise) (fun _ => rfl) fun _ => rfl
  refine .ite (fun _ => hbehind .none course) fun _ => ?_
  exact course.nodes (.one (h.parse .expressionStatement)) fun _ _ hsubject course =>
    hbehind hsubject course

/-- A `begin` is an expression. -/
lemma protectedBody (h : Inner g n) (r : Ready F n s) (hkind : s.tape.kind ≠ .eof) :
    Gives F (Yields .expression s.tape.left s) g.protectedBody s := by
  refine r.take hkind fun course => ?_
  refine course.nodes (h.body _) fun body _ hbody course => ?_
  exact course.finish rfl hbody (fun _ => rfl) fun _ => rfl

/-- A jump is an expression. -/
lemma jump (h : Inner g n) (r : Ready F n s) (hkind : s.tape.kind ≠ .eof) {k : NodeKind}
    (hk : k = .return_ ∨ k = .break_ ∨ k = .next_) :
    Gives F (Yields .expression s.tape.left s) (g.jump k) s := by
  have hfinish {ms : List Node} {s₁ : State} (hms : Fits [.maybe .argument] ms)
      (course : Course F n s.tape.left s ms s₁) :
      Gives F (Yields .expression s.tape.left s) (finish k s.tape.current.span.start ms) s₁ := by
    rcases hk with rfl | rfl | rfl
    · exact course.finish rfl hms (fun _ => rfl) fun _ => rfl
    · exact course.finish rfl hms (fun _ => rfl) fun _ => rfl
    · exact course.finish rfl hms (fun _ => rfl) fun _ => rfl
  refine .view (r.drop hkind fun course => .view (.ite (fun _ => .view ?_) fun _ => ?_))
  · have hitems := h.separated .skipBreaks (h.parse .argument)
    refine course.fresh.nodes hitems fun ms _ hms course' => ?_
    refine course'.arrayOf hms (.refl _) NodeClass.expression_within_argument fun m hm course' => ?_
    exact hfinish (.some hm) (course.join course')
  · exact hfinish .none course

/-- The operand of `defined?` may be a whole statement in parentheses. -/
lemma definedOperand (h : Inner g n) (course : Course F n b s₀ [] s) (hkind : s.tape.kind ≠ .eof) :
    Gives F (Yields .statement b s₀) g.definedOperand s := by
  refine course.take hkind fun course => ?_
  refine course.node (Reader.allowingDo (h.parse .expressionStatement)) fun m _ hm course => ?_
  refine course.silent .skipBreaks fun _ _ course => ?_
  exact course.silent (.expectCloser _ _) fun _ _ course => course.yield hm

/-- A `defined?` is an expression. -/
lemma definedTest (h : Inner g n) (r : Ready F n s) (hkind : s.tape.kind ≠ .eof) :
    Gives F (Yields .expression s.tape.left s) g.definedTest s := by
  have hfinish {m : Node} {s₁ : State} (hm : NodeClass.has .statement m = true)
      (course : Course F n s.tape.left s [m] s₁) :
      Gives F (Yields .expression s.tape.left s)
        (finish .defined s.tape.current.span.start [m]) s₁ :=
    course.finish rfl (.one hm .nil) (fun _ => rfl) fun _ => rfl
  refine .view (r.drop hkind fun course => .view (.ite (fun hparen => ?_) fun _ => ?_))
  · have hkind : s.advanced.tape.kind ≠ .eof := by
      rw [eq_of_beq hparen]
      simp
    exact (h.definedOperand course.fresh hkind).bind fun m _ hm => hfinish hm.1 (course.on hm.2.1)
  · exact course.node (h.parse .unary) fun m _ hm course =>
      hfinish (NodeClass.expression_within_statement m hm) course

end Inner

end RubyCheck.Grammar
