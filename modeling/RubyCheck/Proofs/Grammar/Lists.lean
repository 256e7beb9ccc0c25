import RubyCheck.Proofs.Grammar.Carrying
import RubyCheck.Proofs.Grammar.Program

/-!
# Lists of statements in front of other tokens

A list of statements that ends in a line break and is read without a fault up to the end of its text
is read in the same way in front of other tokens, in whatever list it stands: the rounds that read
it are the first ones there (`Carrying.iterate_inside`).  Behind it, the other tokens are read as the
rest of the list, and the nodes seen before stay in front (`prefix_of_iterate`).
-/

namespace RubyCheck.Grammar

variable {g g' : Grammar} {stops : List TokenKind} {rounds : ℕ} {seen nodes : List Node}
  {s s' outer : State}

/-! ### Rounds -/

lemma skipTerminators_eq (s : State) :
    skipTerminators s = .ok () { s with tape := s.tape.passOver Tape.endsStatement } := rfl

/-- Nothing but what stands behind line breaks and semicolons matters to a round. -/
lemma statementRound_congr (h : { s with tape := s.tape.passOver Tape.endsStatement } =
    { s' with tape := s'.tape.passOver Tape.endsStatement }) :
    g.statementRound stops seen s = g.statementRound stops seen s' := by
  unfold statementRound
  rw [bind_eq, bind_eq, skipTerminators_eq, skipTerminators_eq, h]

/-- At the end of the text a list is over. -/
lemma statementRound_of_eof (hkind : s.tape.kind = .eof) :
    g.statementRound stops seen s = .ok (.done seen.reverse) s := by
  have hstay : s.tape.passOver Tape.endsStatement = s.tape :=
    Tape.passOver_of_not (by rw [hkind]; rfl)
  unfold statementRound
  rw [bind_eq, skipTerminators_eq, hstay, continuing, Grammar.kind, view_bind_eq, hkind,
    if_pos (by simp)]
  rfl

/-- Behind a statement, or what was given up for one, another round follows. -/
lemma listedStatement_ne_done : g.listedStatement stops seen s ≠ .ok (.done nodes) s' := by
  intro h
  rw [listedStatement, current, view_bind_eq] at h
  obtain ⟨r, s₁, -, hbehind⟩ := exists_of_bind h
  cases r with
  | ok node =>
    change behindStatement stops (node :: seen) s₁ = _ at hbehind
    rw [behindStatement, Grammar.kind, view_bind_eq] at hbehind
    split at hbehind
    · cases hbehind
    · obtain ⟨_, s₂, -, hbehind⟩ := exists_of_bind hbehind
      rw [current, view_bind_eq] at hbehind
      obtain ⟨n, s₃, -, hbehind⟩ := exists_of_bind hbehind
      cases hbehind
  | error f =>
    obtain ⟨_, s₂, -, hbehind⟩ := exists_of_bind hbehind
    obtain ⟨n, s₃, -, hbehind⟩ := exists_of_bind hbehind
    cases hbehind

/-- A list that stops at no tokens is over only at the end of the text. -/
lemma eq_of_statementRound_done (h : g.statementRound [] seen s = .ok (.done nodes) s') :
    nodes = seen.reverse ∧ s' = { s with tape := s.tape.passOver Tape.endsStatement } ∧
      s'.tape.kind = .eof := by
  obtain ⟨_, s₁, hskip, hbehind⟩ := exists_of_bind h
  cases hskip
  rw [Grammar.kind, view_bind_eq] at hbehind
  split at hbehind
  · rename_i hkind
    cases hbehind
    exact ⟨rfl, rfl, by simpa using hkind⟩
  · split at hbehind
    · obtain ⟨_, s₂, -, hbehind⟩ := exists_of_bind hbehind
      obtain ⟨_, s₃, -, hbehind⟩ := exists_of_bind hbehind
      cases hbehind
    · exact absurd hbehind listedStatement_ne_done

lemma eof_of_iterate (h : iterate (g.statementRound []) rounds seen s = .ok nodes s') :
    s'.tape.kind = .eof := by
  induction rounds generalizing seen s with
  | zero => cases h
  | succ rounds ih =>
    obtain ⟨round, s₁, hround, hbehind⟩ := exists_of_bind h
    cases round with
    | again _ => exact ih hbehind
    | done _ =>
      cases hbehind
      exact (eq_of_statementRound_done hround).2.2

/-! ### What was seen before -/

/-- The nodes seen before a round stay in front of those that it adds. -/
lemma behind_of_statementRound {round : Round (List Node) (List Node)}
    (h : g.statementRound stops seen s = .ok round s') :
    ∃ fresh : Round (List Node) (List Node), round = fresh.behind seen := by
  rw [statementRound_eq] at h
  change EStateM.map _ _ _ = _ at h
  unfold EStateM.map at h
  split at h
  · rename_i fresh s₁ _
    cases h
    exact ⟨fresh, rfl⟩
  · cases h

/-- The nodes seen before a list stay in front of it. -/
lemma prefix_of_iterate (h : iterate (g.statementRound stops) rounds seen s = .ok nodes s') :
    seen.reverse <+: nodes := by
  induction rounds generalizing seen s with
  | zero => cases h
  | succ rounds ih =>
    obtain ⟨round, s₁, hround, hbehind⟩ := exists_of_bind h
    obtain ⟨fresh, rfl⟩ := behind_of_statementRound hround
    cases fresh with
    | again ms =>
      refine .trans ?_ (ih hbehind)
      rw [List.reverse_append]
      exact List.prefix_append _ _
    | done ms =>
      cases hbehind
      exact List.prefix_append _ _

/-! ### Inside other texts -/

namespace Carrying

variable (h : Carrying g g')
include h

/-- A round of a list within no brackets. -/
lemma carries_round (hstops : ∀ k ∈ stops, closesConstruct k = true) (seen : List Node) :
    Carries ⟨Anything, .anywhere, 0⟩ (Round.stage ⟨Anything, .solid, 0⟩ (reach .anywhere 0))
      (g.statementRound [] seen) (g'.statementRound stops seen) :=
  h.statementRound (List.nil_subset _) (fun k hk => .inr (hstops k hk)) seen

lemma carries_list (rounds : ℕ) (seen : List Node) :
    Carries ⟨Anything, .anywhere, 0⟩ (reach .anywhere 0)
      (iterate (g.statementRound []) rounds seen) (iterate (g'.statementRound []) rounds seen) := by
  refine .iterate (fun seen => (h.carries_round (by simp) seen).mono (fun round s hs => ?_)
    fun round => ?_) (Nat.le_refl _) seen
  · cases round with
    | again _ => exact ⟨trivial, trivial⟩
    | done _ => exact hs
  · cases round with
    | again _ => rfl
    | done _ => rfl

/-- What a list opens, it also closes. -/
lemma closes_of_iterate (hends : s.tape.Ends)
    (hrun : iterate (g.statementRound []) rounds seen s = .ok nodes s') (hclean : s'.faults = #[])
    (hahead : s'.tape.ahead = []) : s.tape.Closes := by
  obtain ⟨-, C, hover, hopen⟩ :=
    (h.carries_list rounds seen).arrives hends ⟨trivial, trivial⟩ hrun hclean
  rw [Tape.Closes, hover.pending, Tape.pending_eq_nil.mpr hahead, List.append_nil]
  exact hopen 0

/-- A statement does not end in a line break, so the tokens do not end behind it. -/
lemma ahead_of_again {round : List Node}
    (hrun : g.statementRound [] seen s = .ok (.again round) s') (hclean : s'.faults = #[])
    (hhosts : Hosts outer s) : s'.tape.ahead ≠ [] := by
  intro hnone
  obtain ⟨hstage, C, hover, -⟩ := (h.carries_round (List.forall_mem_nil _) seen).arrives
    hhosts.ends ⟨trivial, trivial⟩ hrun hclean
  obtain ⟨t, ht, hkind⟩ := hstage.footing
  have hpending : s.tape.pending = C := by
    rw [hover.pending, Tape.pending_eq_nil.mpr hnone, List.append_nil]
  rw [hover.consumed] at ht
  cases hlast : C.getLast? with
  | none =>
    rw [List.getLast?_eq_none_iff.mp hlast, Tape.pending_eq_nil] at hpending
    have heof : s.tape.kind = .eof := by
      have hends := hhosts.ends
      rwa [Tape.Ends, hpending] at hends
    rw [statementRound_of_eof heof] at hrun
    cases hrun
  | some u =>
    rw [hlast] at ht
    cases ht
    exact hkind (hhosts.endsInBreak t (hpending ▸ hlast))

/-- The rounds that read a list are the first ones that are gone inside another text. -/
theorem iterate_inside (hstops : ∀ k ∈ stops, closesConstruct k = true)
    (hrun : iterate (g.statementRound []) rounds seen s = .ok nodes s') (hclean : s'.faults = #[])
    (hhosts : Hosts outer s) :
    ∃ n < rounds, ∀ m, iterate (g'.statementRound stops) (n + (m + 1)) seen (s.inside outer) =
      iterate (g'.statementRound stops) (m + 1) nodes.reverse (s'.inside outer) := by
  induction rounds generalizing seen s with
  | zero => cases hrun
  | succ rounds ih =>
    obtain ⟨round, s₁, hround, hbehind⟩ := exists_of_bind hrun
    cases round with
    | done _ =>
      cases hbehind
      -- What follows the last statement goes on with the tokens behind.
      obtain ⟨rfl, rfl, -⟩ := eq_of_statementRound_done hround
      refine ⟨0, Nat.succ_pos rounds, fun m => ?_⟩
      have hsame : g'.statementRound stops seen (s.inside outer) =
          g'.statementRound stops seen
            (({ s with tape := s.tape.passOver Tape.endsStatement } : State).inside outer) :=
        statementRound_congr (congrArg (fun tape => { s.inside outer with tape := tape })
          (Tape.passOver_before Tape.endsStatement outer.tape s.tape))
      rw [Nat.zero_add, List.reverse_reverse, iterate, bind_eq, bind_eq, hsame]
    | again seen₁ =>
      have hcarries := h.carries_round hstops seen
      have hclean₁ := ((h.carries_list rounds seen₁).passes_ok hbehind).clean hclean
      have hinside := hcarries.inside ⟨trivial, trivial⟩ hround hclean₁
        (h.ahead_of_again hround hclean₁ hhosts) hhosts
      obtain ⟨n, hn, hrest⟩ := ih hbehind (hhosts.passes (hcarries.passes_ok hround))
      refine ⟨n + 1, Nat.succ_lt_succ hn, fun m => ?_⟩
      rw [Nat.add_right_comm, iterate, bind_eq, hinside]
      exact hrest m

end Carrying

end RubyCheck.Grammar
