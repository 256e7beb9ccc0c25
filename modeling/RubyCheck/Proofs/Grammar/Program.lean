import RubyCheck.Proofs.Grammar.Production

/-!
# Reading programs to their end

The tokens of a program are read by its list of statements, which never fails: what a program comes
to is what its statements come to, up to an end of the text.  While reading stands on a tape, either
every token that it left behind is none but an end of the text, or reading was given up and stands
on the last token (`State.Reached`).
-/

namespace RubyCheck

namespace Grammar

variable {α : Type} {Q : α → State → Prop} {s s' : State} {levels : ℕ} {tokens : List Token}

/-! ### Where reading stands -/

/-- Where reading stands on some tokens: no end of the text was left behind, unless reading was
given up and every token was passed over. -/
def State.Reached (tokens : List Token) (s : State) : Prop :=
  ∃ before, tokens = before ++ s.tape.current :: s.tape.ahead ∧
    (s.gaveUp = true → s.tape.ahead = []) ∧ (s.gaveUp = false → ∀ t ∈ before, t.kind ≠ .eof)

namespace State.Reached

/-- A state with the same tape and as many faults. -/
lemma congr (h : s.Reached tokens) (htape : s'.tape = s.tape) (hgaveUp : s'.gaveUp = s.gaveUp) :
    s'.Reached tokens := by
  unfold Reached
  rwa [htape, hgaveUp]

lemma steps {tape : Tape} (h : s.Reached tokens) (hsteps : s.tape.Steps tape) :
    State.Reached tokens { s with tape := tape } := by
  obtain ⟨before, htokens, hover, hbefore⟩ := h
  change ∃ before, tokens = before ++ tape.current :: tape.ahead ∧
    (s.gaveUp = true → tape.ahead = []) ∧ (s.gaveUp = false → ∀ t ∈ before, t.kind ≠ .eof)
  generalize s.tape = tape₀ at hsteps htokens hover
  induction hsteps generalizing before with
  | refl => exact ⟨before, htokens, hover, hbefore⟩
  | @next _ t _ _ _ hkind _ ih =>
    refine ih (before ++ [t]) (fun hgoesOn => ?_) (by simpa using htokens) fun hgaveUp => ?_
    · exact List.forall_mem_append.mpr ⟨hbefore hgoesOn, List.forall_mem_singleton.mpr hkind⟩
    · exact absurd (hover hgaveUp) (List.cons_ne_nil _ _)

lemma report (h : s.Reached tokens) (f : Fault) : (s.report f).Reached tokens := by
  unfold State.report
  split
  · exact h
  · rename_i hgaveUp
    obtain ⟨before, htokens, -, hbefore⟩ := h
    simp only
    split
    · rename_i hgivesUp
      have honward : Tape.Onward fun tape => ∃ before,
          tokens = before ++ tape.current :: tape.ahead := by
        rintro consumed t u us ⟨before, htokens⟩
        exact ⟨before ++ [t], by simpa using htokens⟩
      obtain ⟨before', htokens'⟩ := honward.toLast ⟨before, htokens⟩
      refine ⟨before', htokens', fun _ => s.tape.ahead_toLast, fun hgoesOn => ?_⟩
      exact absurd hgivesUp (Bool.eq_false_iff.mp hgoesOn)
    · rename_i hgoesOn
      refine ⟨before, htokens, fun hgivesUp => absurd hgivesUp hgoesOn, fun _ => ?_⟩
      exact hbefore (Bool.eq_false_iff.mpr hgaveUp)

end State.Reached

/-- No production leaves an end of the text behind while reading is not given up. -/
theorem Passes.reached (h : Passes s s') (hs : s.Reached tokens) : s'.Reached tokens := by
  induction h with
  | steps hsteps => exact hs.steps hsteps
  | report s f => exact hs.report f
  | declare s name =>
    refine hs.congr (s.tape_declare name) ?_
    rw [State.gaveUp, State.gaveUp, s.faults_declare, s.limits_declare]
  | within c _ ih =>
    refine (ih (hs.congr (c.tape_enter _) ?_)).congr (c.tape_leave _ _) ?_
    · rw [State.gaveUp, State.gaveUp, c.faults_enter, c.limits_enter]
    · rw [State.gaveUp, State.gaveUp, c.faults_leave, c.limits_leave]
  | inScope closed _ ih => exact (ih (hs.congr rfl rfl)).congr rfl rfl
  | trans _ _ ih ih' => exact ih' (ih hs)

lemma reached_ofTokens (limits : Limits) (tokens : List Token) :
    (State.ofTokens limits tokens).Reached (Tape.supplied tokens) := by
  refine ⟨[], rfl, fun hgaveUp => ?_, fun _ => by simp⟩
  have hfaults : limits.maxFaults ≤ 0 := of_decide_eq_true hgaveUp
  exact absurd limits.faults_pos (Nat.not_lt_of_le hfaults)

/-! ### Whole programs -/

/-- A production that cannot fail gives a result. -/
lemma Gives.exists_ok {p : Parser α} (h : Gives (fun _ => False) Q p s) :
    ∃ a s', p s = .ok a s' ∧ Q a s' := by
  unfold Gives at h
  split at h
  · rename_i a s' hrun
    exact ⟨a, s', hrun, h⟩
  · exact h.elim
  · exact h.elim

/-- A round of a list of statements that began in some state ends the list at the end of the text or
where it stops, or leaves fewer tokens to the next round. -/
def Round.Progresses {σ β : Type} (stops : List TokenKind) (s s' : State) : Round σ β → Prop
  | .again _ => s'.tape.left < s.tape.left
  | .done _ => s'.tape.kind = .eof ∨ stops.contains s'.tape.kind = true

/-- A round with more nodes seen before it. -/
def Round.behind (seen : List Node) : Round (List Node) (List Node) → Round (List Node) (List Node)
  | .again ms => .again (ms ++ seen)
  | .done ms => .done (seen.reverse ++ ms)

lemma statementRound_eq (g : Grammar) (stops : List TokenKind) (seen : List Node) :
    statementRound g stops seen = Round.behind seen <$> statementRound g stops [] := by
  unfold statementRound
  simp only [map_bind]
  refine bind_congr fun _ => bind_congr fun k => ?_
  split
  · simp [Round.behind]
  · split
    · simp [Round.behind]
    · unfold listedStatement
      simp only [map_bind]
      refine bind_congr fun first => bind_congr fun r => ?_
      cases r with
      | ok m =>
        unfold behindStatement
        simp only [map_bind]
        refine bind_congr fun next => ?_
        split
        · simp [Round.behind]
        · simp [Round.behind]
      | error f => simp [Round.behind]

/-- Whatever a statement comes to, reading goes on behind it. -/
theorem statementRound_progresses (levels : ℕ) (stops : List TokenKind) (seen : List Node)
    (hends : s.tape.Ends) (hleft : s.tape.left ≤ levels) :
    ∃ round s', statementRound ⟨levels + 1, production levels⟩ stops seen s = .ok round s' ∧
      round.Progresses stops s s' := by
  have hinner : Inner ⟨levels + 1, production levels⟩ levels :=
    ⟨Nat.lt_succ_self levels, production_spec levels⟩
  have hfirst : Gives (fun _ => False) (Listing.Post levels s stops s)
      (statementRound ⟨levels + 1, production levels⟩ stops []) s :=
    hinner.statementRound ⟨.refl s, hends, hleft, by simp⟩
  obtain ⟨round, s', hrun, hround⟩ := hfirst.exists_ok
  refine ⟨round.behind seen, s', ?_, ?_⟩
  · rw [statementRound_eq]
    change EStateM.map _ _ _ = _
    simp [EStateM.map, hrun]
  · cases round with
    | again ms => exact hround.2
    | done ms => exact hround.2.2

/-- Reading a program reads statements, up to an end of the text. -/
theorem program_reads (hends : s.tape.Ends) (hleft : s.tape.left < levels) :
    ∃ ns s', program levels s = .ok
        (.inner .program ⟨s.start, s'.tape.current.span.stop.later s.start⟩ ns) s'.leaveScope ∧
      Fits NodeKind.program.layout ns ∧ Reads (s.enterScope true) ns s' ∧ s'.tape.kind = .eof := by
  have hinside : Gives (fun _ => False) (Listed [] (s.enterScope true))
      (production levels (.statements [])) (s.enterScope true) :=
    production_spec levels (.statements []) hends hleft
  have hscope : Gives (fun _ => False)
      (fun m s' => ∃ s₁, Listed [] (s.enterScope true) m s₁ ∧ s' = s₁.leaveScope)
      (inScope true (production levels (.statements []))) s :=
    hinside.around (fun _ hs => hs) fun m s' hm => ⟨s', hm, rfl⟩
  have hprogram : Gives (fun _ => False) (fun root s' => ∃ ns s₁,
        root = .inner .program ⟨s.start, s₁.tape.current.span.stop.later s.start⟩ ns ∧
        s' = s₁.leaveScope ∧ Fits NodeKind.program.layout ns ∧ Reads (s.enterScope true) ns s₁ ∧
        s₁.tape.kind = .eof) (program levels) s := by
    refine .view (hscope.bind fun list s' hlist => ?_)
    obtain ⟨s₁, ⟨⟨ns, rfl, hfits, hreads⟩, hstops⟩, rfl⟩ := hlist
    refine .view (.pure ⟨ns, s₁, rfl, rfl, hfits, hreads, ?_⟩)
    simpa using hstops
  obtain ⟨root, s', hrun, ns, s₁, rfl, rfl, hrest⟩ := hprogram.exists_ok
  exact ⟨ns, s₁, hrun, hrest⟩

end Grammar

namespace SyntaxTree

open Grammar

/-- The tree of some tokens is made of the statements that are read from the first of them up to an
end of the text. -/
theorem exists_reads (limits : Limits) (tokens : List Token) :
    ∃ ns s', Reads ((State.ofTokens limits tokens).enterScope true) ns s' ∧
      Fits NodeKind.program.layout ns ∧ s'.tape.kind = .eof ∧
      ofTokens limits tokens = ⟨.inner .program ⟨(State.ofTokens limits tokens).start,
        s'.tape.current.span.stop.later (State.ofTokens limits tokens).start⟩ ns,
        s'.faults.toList⟩ := by
  have hleft : (State.ofTokens limits tokens).tape.left < levelsFor tokens :=
    Nat.lt_of_le_of_lt (Tape.left_ofTokens_le tokens) (Nat.lt_add_of_pos_right (by decide))
  obtain ⟨ns, s', hrun, hfits, hreads, hkind⟩ :=
    program_reads (s := .ofTokens limits tokens) (Tape.ends_ofTokens tokens) hleft
  refine ⟨ns, s', hreads, hfits, hkind, ?_⟩
  rw [ofTokens, hrun]
  rfl

end SyntaxTree

end RubyCheck
