import RubyCheck.Proofs.Arena.Expression
import RubyCheck.Proofs.Grammar.Program

/-!
# Programs over an arena

By induction on the levels, every production over an arena comes to what the grammar does.  So nothing is
looked up that does not exist, whatever the tokens and however wide ids are, and where ids have no width
the arena shows the tree of the grammar.
-/

namespace RubyCheck.Arena

variable {greatest : Option ℕ} {g : Productions} {g' : Grammar} {limits : Limits}
  {tokens : List Token}

/-! ### Productions -/

lemma Matched.step (h : Matched greatest g g') (goal : Grammar.Goal) :
    Makes greatest (Arena.step g goal) (Grammar.step g' goal) := by
  cases goal with
  | statements stops => exact .statements h.rounds h.statement
  | statement => exact h.statement
  | expressionStatement => exact h.expressionStatement
  | notExpression => exact h.notExpression
  | expression => exact h.expression
  | ternary => exact h.ternary
  | binary level => exact h.binary level
  | unary => exact h.unary
  | chain => exact h.chain
  | targets closer => exact h.targets closer
  | argument => exact h.argument
  | parameter inBlock => exact h.parameter inBlock
  | branch keyword => exact h.branch

theorem Makes.production (levels : ℕ) (goal : Grammar.Goal) :
    Makes greatest (Arena.production levels goal) (Grammar.production levels goal) := by
  induction levels generalizing goal with
  | zero => exact fun _ _ m _ _ => .exhausted fun _ => ⟨m.state, rfl⟩
  | succ levels ih => exact Matched.step ⟨rfl, ih⟩ goal

/-! ### The first machine -/

/-- The tokens of the first machine are those on the first tape. -/
lemma Machine.tokens_ofTokens (greatest : Option ℕ) (limits : Limits) (tokens : List Token) :
    (Machine.ofTokens greatest limits tokens).tokens = Tape.supplied tokens := by
  cases tokens with
  | nil => rfl
  | cons t ts =>
    have hlast : (t :: ts).getLast? = some (ts.getLastD t) := by
      rw [List.getLast?_cons, List.getLastD_eq_getLast?]
    change (Machine.ofTokens greatest limits (t :: ts)).tokens =
      t :: (ts ++ Tape.ending (ts.getLastD t))
    rw [Machine.ofTokens, hlast, Tape.ending]
    simp only
    split <;> simp

lemma Machine.state_ofTokens (greatest : Option ℕ) (limits : Limits) (tokens : List Token) :
    (Machine.ofTokens greatest limits tokens).state = .ofTokens limits tokens := by
  have hconsumed : (Tape.ofTokens tokens).consumed = none := by cases tokens <;> rfl
  have htape : (Machine.ofTokens greatest limits tokens).state.tape = .ofTokens tokens := by
    change Tape.mk none ((Machine.ofTokens greatest limits tokens).tokens.getD 0 default)
      ((Machine.ofTokens greatest limits tokens).tokens.drop 1) = _
    rw [Machine.tokens_ofTokens, ← hconsumed]
    rfl
  rw [Grammar.State.ofTokens, ← htape]
  rfl

lemma Machine.sane_ofTokens (greatest : Option ℕ) (limits : Limits) (tokens : List Token) :
    (Machine.ofTokens greatest limits tokens).Sane greatest where
  greatestId := rfl
  ends := by
    have hends := Tape.ends_ofTokens tokens
    rw [Machine.tokens_ofTokens, Tape.supplied]
    refine ⟨((Tape.ofTokens tokens).current :: (Tape.ofTokens tokens).ahead).dropLast, _,
      (List.dropLast_append_getLast (List.cons_ne_nil _ _)).symm, ?_⟩
    rw [Tape.Ends] at hends
    generalize (Tape.ofTokens tokens).ahead = ahead at hends ⊢
    cases ahead <;> exact beq_iff_eq.mpr hends
  current_lt := by
    rw [Machine.tokens_ofTokens]
    exact Nat.succ_pos _
  closed := fun i _ hi _ => absurd hi (Nat.not_lt_zero i)
  gaveUp := (decide_eq_false (Nat.not_le.mpr limits.faults_pos)).symm

/-! ### Whole programs -/

/-- The children of a tree where the tree itself is. -/
lemma Own.children {w : Array Cell} {base id : ℕ} {t : Node} {c : Cell}
    (h : Own none w base id t) (hc : w[id]? = some c) : Owns none w base c.children t.children := by
  obtain ⟨-, -, ids, hcell, hchildren⟩ := shows_iff.mp (h.shows rfl)
  rw [hc] at hcell
  obtain rfl := Option.some.inj hcell
  refine hchildren.imp fun child u hchild => ?_
  obtain ⟨a, b, ha, hb, -, hshows⟩ := hchild
  obtain ⟨hle, hlt, -⟩ := shows_iff.mp hshows
  exact ⟨⟨child, ha.trans hle, hlt.trans_le hb, rfl⟩, fun _ => hshows.mono ha hb⟩

lemma Makes.program (levels : ℕ) :
    Makes greatest (Arena.program levels) (Grammar.program levels) := by
  refine fun w => Exact.here.runs fun start => (Makes.production levels _).inScope.bind
    fun w' id t _ hid => Exact.current.runs fun last => ?_
  refine .sight (q := fun t => Pure.pure (Node.inner .program
    ⟨start, last.span.stop.later start⟩ t.children)) hid fun c t' hpeek hid' _ => ?_
  refine .known (fun m hnodes => node_eq (hnodes ▸ hpeek.cell)) ?_
  refine (Runs.adding ?_ (?_ : greatest = none → Owns greatest w' _ c.children t'.children) _ _ _).imp
    fun _ _ _ _ hid => hid.2
  · exact hpeek.lt
  · rintro rfl
    exact hid'.children hpeek.cell

/-- What a machine has to show for the tokens it was given. -/
structure Machine.Finished (m : Machine) (root : ℕ) : Prop where
  /-- The current token exists. -/
  current_lt : m.current < m.tokens.length
  /-- The root exists. -/
  root_lt : root < m.nodes.size
  /-- Every node names only nodes that exist. -/
  closed : Closed m.nodes m.nodes.size

/-- Whatever the tokens, however wide ids are and however deep reading may go, nothing is looked up that
does not exist. -/
theorem read_inRange (greatest : Option ℕ) (limits : Limits) (tokens : List Token) (levels : ℕ) :
    match read greatest limits tokens levels with
    | .ok root m => m.Finished root
    | .error e _ => e ≠ .outOfRange := by
  have hread := Makes.program levels _ le_rfl _ (Machine.sane_ofTokens greatest limits tokens) rfl
  change Outcome greatest _ _ _ (read greatest limits tokens levels) _ at hread
  generalize read greatest limits tokens levels = r at hread ⊢
  cases hread with
  | ok hreaches hid _ => exact ⟨hreaches.sane.current_lt, hid.lt, hreaches.sane.closed⟩
  | fault _ _ => exact nofun
  | exhausted _ => exact nofun

/-- Where ids have no width, the arena shows the tree of the grammar, and the faults are the same. -/
theorem read_shows (limits : Limits) (tokens : List Token) :
    ∃ root m, read none limits tokens (Grammar.levelsFor tokens) = .ok root m ∧
      Shows m.nodes 0 m.nodes.size root (SyntaxTree.ofTokens limits tokens).root ∧
      m.faults.toList = (SyntaxTree.ofTokens limits tokens).faults := by
  have hleft : (Grammar.State.ofTokens limits tokens).tape.left < Grammar.levelsFor tokens :=
    Nat.lt_of_le_of_lt (Tape.left_ofTokens_le tokens) (Nat.lt_add_of_pos_right (by decide))
  obtain ⟨ns, s, hrun, -⟩ :=
    Grammar.program_reads (s := .ofTokens limits tokens) (Tape.ends_ofTokens tokens) hleft
  have hread := Makes.program (Grammar.levelsFor tokens) _ le_rfl _
    (Machine.sane_ofTokens none limits tokens) rfl
  rw [Machine.state_ofTokens, hrun] at hread
  change Outcome none _ _ _ (read none limits tokens (Grammar.levelsFor tokens)) _ at hread
  generalize read none limits tokens (Grammar.levelsFor tokens) = r at hread ⊢
  rw [SyntaxTree.ofTokens, hrun]
  cases hread with
  | @ok root _ m _ _ hid hr =>
    have hsame := hr rfl
    injection hsame with htree hstate
    refine ⟨root, m, rfl, ?_, ?_⟩
    · rw [htree]
      exact hid.shows rfl
    · change m.faults.toList = s.leaveScope.faults.toList
      rw [hstate]
      rfl
  | fault _ hr => cases hr rfl
  | exhausted hr =>
    obtain ⟨s, hs⟩ := hr rfl
    cases hs

end RubyCheck.Arena
