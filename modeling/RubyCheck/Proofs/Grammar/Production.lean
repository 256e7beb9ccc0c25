import RubyCheck.Proofs.Grammar.Expression

/-!
# What every production reads

Statements and lists of statements, which take up whatever fails inside them, and with them every
production: each reads nodes by the rules of `Reads`, consumes a token before it asks for a goal
further in, and so never runs out of rounds.  One induction on the levels of the grammar ties the
lemmas about single productions (`production_spec`).
-/

namespace RubyCheck.Grammar

variable {F : State → Prop} {s s' s₀ s₁ : State} {n : ℕ} {c : NodeClass} {seen : List Node}
variable {g : Grammar}

namespace Inner

lemma target (h : Inner g n) :
    Reader 1 (n + 1) .assignedTarget g.target := by
  refine .of fun s r => .view (.view ?_)
  split
  case h_1 hkind =>
    refine r.drop (by simp [hkind]) fun course => .view (.ite (fun _ => ?_) fun _ => ?_)
    · exact course.finish rfl .none (fun _ => rfl) fun _ => rfl
    · refine course.target (h.chain.lower (Nat.le_succ n)) fun m _ hm course => ?_
      exact course.finish rfl (.some (NodeClass.within_right _ _ m hm)) (fun _ => rfl) fun _ => rfl
  case h_2 hkind =>
    refine r.drop (by simp [hkind]) fun course => ?_
    refine course.node (h.parse (.targets _)) fun m _ hm course => ?_
    refine course.silent (.discard (.expect _)) fun _ _ course => course.yield ?_
    exact NodeClass.within_right _ _ m hm
  case h_3 =>
    refine (r.tail (Reader.assignable h.chain)).mono (fun _ hs => hs) fun m _ hm => ⟨?_, hm.2⟩
    exact NodeClass.within_left _ _ m (NodeClass.within_left _ _ m hm.1)

end Inner

/-- Nodes seen so far by a repetition that has a node to read in every round. -/
structure Pending (F : State → Prop) (n : ℕ) (s₀ : State) (c : NodeClass) (seen : List Node)
    (s : State) : Prop where
  ready : Ready F n s
  reads : Reads s₀ seen.reverse s
  each : ∀ m ∈ seen, c.has m = true
  le : s₀.tape.left ≤ n

/-- The end of a round of such a repetition; behind the first node fewer tokens are left. -/
abbrev Pending.Post (F : State → Prop) (n : ℕ) (s₀ : State) (c : NodeClass) (s : State) :
    Round (List Node) (List Node) → State → Prop :=
  Round.Post (Pending F n s₀ c)
    (fun ms s' => Fits [.many c] ms ∧ Course F n s₀.tape.left s₀ ms s') s

/-- A node that is read leaves fewer tokens, whether the repetition goes on or not. -/
lemma Pending.node {m : Node} (h : Pending F n s₀ c seen s) (hm : c.has m = true)
    (course : Course F n s.tape.left s [m] s') :
    Pending F n s₀ c (m :: seen) s' ∧ s'.tape.left < s.tape.left ∧
      Fits [.many c] (m :: seen).reverse ∧ Course F n s₀.tape.left s₀ (m :: seen).reverse s' := by
  have hreads : Reads s₀ (m :: seen).reverse s' := by
    rw [List.reverse_cons]
    exact h.reads.append course.reads
  have heach : ∀ m' ∈ m :: seen, c.has m' = true := List.forall_mem_cons.mpr ⟨hm, h.each⟩
  have hleft := Nat.lt_of_lt_of_le course.left h.reads.passes.left_le
  have hfits : Fits [.many c] (m :: seen).reverse :=
    .many fun m hm => heach m (List.mem_reverse.mp hm)
  exact ⟨⟨course.ready, hreads, heach, h.le⟩, course.left, hfits, hreads, course.ends, hleft, h.le,
    course.fails⟩

namespace Inner

lemma targetRound (h : Inner g n) {closer : Option TokenKind}
    (hpending : Pending F n s₀ .assignedTarget seen s) :
    Gives F (Pending.Post F n s₀ .assignedTarget s) (do
      let seen := (← g.target) :: seen
      if ← accept (.punct .comma) then
        let k ← kind
        if k == .punct .eq || closer == some k then return .done seen.reverse
        else return .again seen
      else return .done seen.reverse) s := by
  refine hpending.ready.node h.target fun m s₁ hm course => ?_
  refine course.accept (by decide) (fun _ course => .view ?_) (hpending.node hm course).2.2
  obtain ⟨hagain, hless, hdone⟩ := hpending.node hm course
  exact .ite (fun _ => hdone) fun _ => ⟨hagain, hless⟩

lemma targets (h : Inner g n) (closer : Option TokenKind) :
    Reader 1 (n + 1) .targets (g.targets closer) := by
  refine .of fun s r => .view ?_
  have hpending : Pending (Passes s) n s .assignedTarget [] s := ⟨r, .refl s, by simp, r.left⟩
  refine (Gives.iterate (fun _ _ hpending => h.targetRound hpending)
    (Nat.lt_of_le_of_lt r.left h.rounds) hpending).bind fun ms _ hms => ?_
  have hplain : ms.any Node.holdsParameter = false :=
    List.any_eq_false.mpr fun m hm => by
      simpa using NodeClass.not_of_assignedTarget (hms.1.forall_mem m hm)
  have hlayout := hms.1.mono NodeClass.assignedTarget_within_eachTarget
  refine hms.2.finish rfl hlayout (fun _ => rfl) fun _ => ?_
  simp [NodeClass.has, Node.holdsParameter_eq, hplain]

lemma multipleAssignment (h : Inner g n) : Reader 1 (n + 1) .statement g.multipleAssignment := by
  refine .of fun s r => .view (r.node (h.targets none) fun left s₁ hleft course => ?_)
  refine course.silent (.discard (.expect _)) fun _ _ course => .view ?_
  have hvalues := h.separated (.pure ()) h.assignedValue
  refine course.fresh.nodes hvalues fun ms _ hms course' => ?_
  refine course'.arrayOf hms NodeClass.assigned_within_argument NodeClass.expression_within_assigned
    fun m hm course' => ?_
  have hlayout := NodeClass.targets_within_multiTargets left hleft
  refine (course.join course').finish rfl (.one hlayout (.one hm .nil)) (fun _ => ?_) fun _ => rfl
  refine Node.isInert_of_forall (.inl rfl) ?_
  rw [List.singleton_append, List.forall_mem_cons, List.forall_mem_singleton]
  exact ⟨NodeClass.not_of_targets hleft, NodeClass.holdsParameter_eq_false hm rfl rfl⟩

lemma notExpression (h : Inner g n) : Reader 1 (n + 1) .expression g.notExpression := by
  refine .of fun s r => .view (.ite (fun hnot => .view ?_) fun _ => r.tail h.expression)
  have hkind : s.tape.kind ≠ .eof := by
    rw [eq_of_beq hnot]
    simp
  refine r.drop hkind fun course => ?_
  refine course.node (Reader.nested (h.parse .notExpression)) fun m _ hm course => ?_
  exact course.finish rfl (.one hm .nil) (fun _ => rfl) fun _ => rfl

lemma junctions (h : Inner g n) : Reader 1 (n + 1) .expression g.junctions := by
  refine .of fun s r => .view (r.node h.notExpression fun m s' hm course => ?_)
  refine Held.iterate ⟨r.ends, hm, course⟩ h.rounds fun left s' held => .view ?_
  split
  · rename_i k hk
    obtain ⟨hkind, hjunction⟩ : s'.tape.kind ≠ .eof ∧ (k = .and_ ∨ k = .or_) := by
      unfold junctionKind? at hk
      split at hk <;> simp_all
    refine held.course.drop' hkind fun course => ?_
    refine course.node (h.notExpression.lower (Nat.le_succ n)) fun right _ hright course => ?_
    refine held.again ?_
    rcases hjunction with rfl | rfl
    · exact course.finish rfl (.one held.has (.one hright .nil)) (fun _ => rfl) fun _ => rfl
    · exact course.finish rfl (.one held.has (.one hright .nil)) (fun _ => rfl) fun _ => rfl
  · exact held.done

lemma expressionStatement (h : Inner g n) : Reader 1 (n + 1) .statement g.expressionStatement := by
  refine .of fun s r => .view (.ite (fun _ => r.tail h.multipleAssignment) fun _ => ?_)
  exact r.tail (h.junctions.mono NodeClass.expression_within_statement)

lemma statement (h : Inner g n) : Reader 1 (n + 1) .statement g.statement := by
  refine .nested (.of fun s r => .view (r.node h.expressionStatement fun m s' hm course => ?_))
  refine Held.iterate ⟨r.ends, hm, course⟩ h.rounds fun inner s' held => .view ?_
  split
  · rename_i k hk
    obtain ⟨hkind, hmodifier⟩ : s'.tape.kind ≠ .eof ∧ (k = .ifModifier ∨ k = .unlessModifier ∨
        k = .whileModifier ∨ k = .untilModifier ∨ k = .rescueModifier) := by
      unfold modifierKind? at hk
      split at hk <;> simp_all
    refine held.course.drop' hkind fun course => ?_
    have hinner := h.expressionStatement.lower (Nat.le_succ n)
    refine course.node hinner fun operand _ hoperand course => ?_
    have hinner := NodeClass.within_left _ .argument inner held.has
    refine held.again ?_
    rcases hmodifier with rfl | rfl | rfl | rfl | rfl
    · exact course.finish rfl (.one hinner (.one hoperand .nil)) (fun _ => rfl) fun _ => rfl
    · exact course.finish rfl (.one hinner (.one hoperand .nil)) (fun _ => rfl) fun _ => rfl
    · exact course.finish rfl (.one held.has (.one hoperand .nil)) (fun _ => rfl) fun _ => rfl
    · exact course.finish rfl (.one held.has (.one hoperand .nil)) (fun _ => rfl) fun _ => rfl
    · exact course.finish rfl (.one held.has (.one hoperand .nil)) (fun _ => rfl) fun _ => rfl
  · exact held.done

end Inner

/-! ### Lists of statements -/

/-- What was read so far of a list of statements. -/
structure Listing (n : ℕ) (s₀ : State) (seen : List Node) (s : State) : Prop where
  reads : Reads s₀ seen.reverse s
  ends : s.tape.Ends
  left : s.tape.left ≤ n
  each : ∀ m ∈ seen, NodeClass.has (.either .statement (.of .error)) m = true

/-- The end of a round of a list of statements: another round follows only if it has fewer tokens
left. -/
abbrev Listing.Post (n : ℕ) (s₀ : State) (stops : List TokenKind) (s : State) :
    Round (List Node) (List Node) → State → Prop :=
  Round.Post (Listing n s₀) (fun ms s' => Fits NodeKind.statements.layout ms ∧ Reads s₀ ms s' ∧
    (s'.tape.kind = .eof ∨ stops.contains s'.tape.kind = true)) s

namespace Listing

variable {stops : List TokenKind} {m : Node}

lemma skip (h : Listing n s₀ seen s) (hreads : Reads s [] s') : Listing n s₀ seen s' where
  reads := by simpa using h.reads.append hreads
  ends := hreads.passes.ends h.ends
  left := Nat.le_trans hreads.passes.left_le h.left
  each := h.each

lemma cons (h : Listing n s₀ seen s) (hreads : Reads s [m] s')
    (hm : NodeClass.has (.either .statement (.of .error)) m = true) :
    Listing n s₀ (m :: seen) s' where
  reads := by simpa using h.reads.append hreads
  ends := hreads.passes.ends h.ends
  left := Nat.le_trans hreads.passes.left_le h.left
  each := List.forall_mem_cons.mpr ⟨hm, h.each⟩

/-- The rest of a statement is given up, and there is a node for that. -/
lemma giveUp (h : Listing n s₀ seen s₁) (hreads : Reads s₁ [] s')
    (hless : s'.tape.synchronize.left < s.tape.left)
    (hconsumed : s₁.tape.current.isEof = true ∨ s'.tape.synchronize.consumed.isSome = true) :
    Gives F (Listing.Post n s₀ stops s)
      (do return .again ((← giveUp s₁.tape.current) :: seen)) s' := by
  have hskip : Reads s₁ [] { s' with tape := s'.tape.synchronize } :=
    hreads.append (.steps s'.tape.steps_synchronize)
  exact ⟨h.cons (.error hskip hconsumed) rfl, hless⟩

/-- What stands behind a statement. -/
lemma behindStatement (h : Listing n s₀ seen s₁) (hless : s₁.tape.left < s.tape.left) :
    Gives F (Listing.Post n s₀ stops s) (behindStatement stops seen) s₁ := by
  refine .view (.ite (fun _ => ⟨h, hless⟩) fun _ => ?_)
  refine .reportUnexpected (.view ?_)
  have hreported := h.skip (.report s₁ (s₁.unexpected "newline or `;`"))
  refine hreported.giveUp (.refl _) (Nat.lt_of_le_of_lt ?_ hless) ?_
  · exact Passes.left_le (.trans (.report s₁ _) (.steps (Tape.steps_synchronize _)))
  · exact Tape.consumed_synchronize hreported.ends

end Listing

/-- What a production does leaves the tape as it was, or leaves fewer tokens. -/
lemma Passes.tape_eq_or_less (h : Passes s s') : s'.tape = s.tape ∨ s'.tape.left < s.tape.left := by
  refine h.onward (P := fun tape => tape = s.tape ∨ tape.left < s.tape.left) ?_ (.inl rfl)
  intro consumed t u us htape
  refine .inr ?_
  rcases htape with htape | hless
  · rw [← htape]
    exact Nat.lt_succ_self _
  · exact Nat.lt_of_succ_lt hless

namespace Inner

variable {stops : List TokenKind}

/-- A statement that fails is given up, and whether it fails or not fewer tokens are left. -/
lemma listedStatement (h : Inner g n) (hlisting : Listing n s₀ seen s₁)
    (hkind : s₁.tape.kind ≠ .eof)
    (hle : s₁.tape.left ≤ s.tape.left) :
    Gives F (Listing.Post n s₀ stops s) (g.listedStatement stops seen) s₁ := by
  have hattempt : Gives F
      (fun r s₂ => (∃ m, r = .ok m ∧ NodeClass.has .statement m = true ∧ Reads s₁ [m] s₂ ∧
        s₂.tape.left + 1 ≤ s₁.tape.left) ∨ ∃ f, r = .error f ∧ Passes s₁ s₂)
      (attempt g.statement) s₁ :=
    Gives.attempt (h.statement hlisting.ends (Nat.lt_succ_of_le hlisting.left))
      (fun m _ hm => .inl ⟨m, rfl, hm⟩) fun f _ hs => .inr ⟨f, rfl, hs⟩
  refine .view (hattempt.bind fun r s₂ hr => ?_)
  rcases hr with ⟨m, rfl, hm, hreads, hless⟩ | ⟨f, rfl, hpasses⟩
  · exact (hlisting.cons hreads (NodeClass.within_left _ _ m hm)).behindStatement
      (Nat.lt_of_lt_of_le hless hle)
  · have hmore := hlisting.ends.consumable hkind
    have hall := hpasses.trans (.report s₂ f)
    refine .report (hlisting.giveUp (.abandon f hpasses) (Nat.lt_of_lt_of_le ?_ hle) (.inr ?_))
    · rcases hall.tape_eq_or_less with htape | hless
      · rw [htape]
        exact Tape.left_synchronize hmore
      · exact Nat.lt_of_le_of_lt
          ((Tape.onward_left_le _).steps (Tape.steps_synchronize _) (Nat.le_refl _)) hless
    · rcases hall.onward (Tape.onward_consumed s₁.tape) (.inl rfl) with htape | hsome
      · rw [htape]
        refine (Tape.consumed_synchronize hlisting.ends).resolve_left fun hend => hkind ?_
        exact beq_iff_eq.mp hend
      · rcases (Tape.onward_consumed _).steps (Tape.steps_synchronize (s₂.report f).tape)
          (.inl rfl) with htape | hsome'
        · rwa [htape]
        · exact hsome'

/-- Every round of a list of statements ends the list or leaves fewer tokens. -/
lemma statementRound (h : Inner g n) (hlisting : Listing n s₀ seen s) :
    Gives F (Listing.Post n s₀ stops s) (g.statementRound stops seen) s := by
  have hskip : Reads s [] { s with tape := s.tape.passOver Tape.endsStatement } :=
    .steps (Tape.steps_passOver rfl _)
  replace hlisting := hlisting.skip hskip
  have hle := hskip.passes.left_le
  set s₁ : State := { s with tape := s.tape.passOver Tape.endsStatement }
  change Gives F (Listing.Post n s₀ stops s) (do
    let k ← kind
    if k == .eof || stops.contains k then return .done seen.reverse
    else if closesConstruct k then
      reportUnexpected "statement"
      drop
      return .again seen
    else g.listedStatement stops seen) s₁
  refine .view (.ite (fun hend => ?_) fun hend => ?_)
  · refine ⟨.many fun m hm => hlisting.each m (List.mem_reverse.mp hm), hlisting.reads, ?_⟩
    simpa using hend
  · have hkind : s₁.tape.kind ≠ .eof := by
      rintro hkind
      simp [hkind] at hend
    refine .ite (fun _ => .reportUnexpected ?_) fun _ => h.listedStatement hlisting hkind hle
    have hdropped : Reads s₁ [] (s₁.report (s₁.unexpected "statement")).advanced :=
      (Reads.report s₁ _).append (.steps (Tape.steps_advance _))
    refine ⟨hlisting.skip hdropped, Nat.lt_of_lt_of_le ?_ hle⟩
    have hmore := hlisting.ends.consumable hkind
    rcases (Passes.report s₁ (s₁.unexpected "statement")).tape_eq_or_less with htape | hless
    · change (s₁.report (s₁.unexpected "statement")).tape.advance.left < s₁.tape.left
      rw [htape]
      exact hmore.left_advance
    · exact Nat.lt_of_le_of_lt
        ((Tape.onward_left_le _).steps (Tape.steps_advance _) (Nat.le_refl _)) hless

/-- A list of statements never fails. -/
lemma statements_listed (h : Inner g n) (stops : List TokenKind) (hends : s.tape.Ends)
    (hleft : s.tape.left ≤ n) : Gives F (Listed stops s) (g.statements stops) s := by
  refine .view ?_
  have hlisting : Listing n s [] s := ⟨.refl s, hends, hleft, by simp⟩
  refine (Gives.iterate (fun _ _ hlisting => h.statementRound hlisting)
    (Nat.lt_of_le_of_lt hleft h.rounds) hlisting).bind fun ms s' hms => ?_
  exact ⟨⟨ms, rfl, hms.1, hms.2.1⟩, hms.2.2⟩

/-! ### All goals -/

/-- Every production comes to what it should if the goals inside it do. -/
theorem step (h : Inner g n) (goal : Goal) : goal.Spec (n + 1) (g.step goal) := by
  cases goal with
  | statements stops =>
    exact fun _ hends hleft => h.statements_listed stops hends (Nat.le_of_lt_succ hleft)
  | statement => exact h.statement
  | expressionStatement => exact h.expressionStatement
  | notExpression => exact h.notExpression
  | expression => exact h.expression
  | ternary => exact h.ternary
  | binary level => exact h.binary level
  | unary => exact h.unary
  | chain => exact h.chain
  | targets closer => exact h.targets closer
  | argument => exact h.argument
  | parameter inBlock => exact h.parameter inBlock
  | branch keyword =>
    intro s hends hleft hkind hkeyword
    have r : Ready (Passes s) n s := ⟨hends, Nat.le_of_lt_succ hleft, fun _ hs => hs⟩
    exact h.branch (r.advanced hkind) hkeyword

end Inner

/-- However many levels the grammar goes in, every goal comes to what it should where fewer tokens
are left than there are levels. -/
theorem production_spec (levels : ℕ) (goal : Goal) : goal.Spec levels (production levels goal) := by
  induction levels generalizing goal with
  | zero =>
    cases goal with
    | _ => exact fun _ _ hleft => absurd hleft (Nat.not_lt_zero _)
  | succ levels ih => exact Inner.step ⟨Nat.lt_succ_self levels, ih⟩ goal

end RubyCheck.Grammar
