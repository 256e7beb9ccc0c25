import RubyCheck.Proofs.Grammar.Lists
import RubyCheck.Proofs.Nesting

/-!
# Whole lines in front of other tokens

Lines that are read without a fault on their own are read in the same way wherever a list of
statements begins with them (`SyntaxTree.exists_rounds`).  In particular they stay the first ones of
a program when tokens are written behind them, and whatever is wrong with those is found at those
(`SyntaxTree.ofTokens_append`).
-/

namespace RubyCheck

open Grammar

/-- Tokens that make whole lines: none of them ends the text, and the last one breaks a line. -/
structure WholeLines (tokens : List Token) : Prop where
  noEnd : ∀ t ∈ tokens, t.kind ≠ .eof
  breaks : ∀ t ∈ tokens.getLast?, t.kind = .newline

instance (tokens : List Token) : Decidable (WholeLines tokens) :=
  decidable_of_iff ((∀ t ∈ tokens, t.kind ≠ .eof) ∧ ∀ t ∈ tokens.getLast?, t.kind = .newline)
    ⟨fun h => ⟨h.1, h.2⟩, fun h => ⟨h.noEnd, h.breaks⟩⟩

namespace Tape

/-- In front of the end that is supplied to whole lines stand their tokens. -/
lemma pending_ofTokens {tokens : List Token} (h : WholeLines tokens) :
    (ofTokens tokens).pending = tokens := by
  cases tokens with
  | nil => rfl
  | cons t ts =>
    have hlast : ending (ts.getLastD t) = [.empty .eof (ts.getLastD t).span.stop] := by
      have hbreak := h.breaks (ts.getLastD t) (by simp [List.getLast?_cons])
      rw [ending, Token.isEof, hbreak]
      rfl
    rw [pending, ofTokens, hlast, ← List.cons_append, List.dropLast_concat]

/-- Tokens behind others are followed by the same end. -/
lemma supplied_append (tokens : List Token) {ts : List Token} (hts : ts ≠ []) :
    supplied (tokens ++ ts) = tokens ++ supplied ts := by
  obtain ⟨u, us, rfl⟩ := List.exists_cons_of_ne_nil hts
  cases tokens with
  | nil => rfl
  | cons t ts' => simp [supplied, ofTokens, List.getLast?_cons]

/-- A tape at whole lines is theirs in front of another one. -/
lemma eq_before {tokens ts : List Token} {t : Token} {tape : Tape} (h : WholeLines tokens)
    (htokens : tape.current :: tape.ahead = tokens ++ t :: ts) :
    tape = (ofTokens tokens).before ⟨tape.consumed, t, ts⟩ := by
  have hconsumed : (ofTokens tokens).consumed = none := by
    cases tokens with
    | nil => rfl
    | cons u us => rfl
  have hsame := tokens_before (ofTokens tokens) ⟨tape.consumed, t, ts⟩
  rw [pending_ofTokens h, ← htokens, List.cons.injEq] at hsame
  have hbehind := consumed_before (ofTokens tokens) ⟨tape.consumed, t, ts⟩
  rw [hconsumed, Option.none_or] at hbehind
  generalize (ofTokens tokens).before ⟨tape.consumed, t, ts⟩ = tape' at hsame hbehind
  cases tape'
  cases hsame.1
  cases hsame.2
  cases hbehind
  rfl

end Tape

/-- A state that goes on behind another one, with some tokens in the same context. -/
structure Grammar.Resumes (t : Token) (ts : List Token) (s s' : State) : Prop where
  current : s'.tape.current = t
  ahead : s'.tape.ahead = ts
  faults : s'.faults = s.faults
  limits : s'.limits = s.limits
  depth : s'.depth = s.depth

namespace SyntaxTree

variable {limits inner : Limits} {tokens : List Token}

/-- The statements of a tree are those of a list that is read up to the end of the text. -/
lemma exists_list (limits : Limits) (tokens : List Token) :
    ∃ s, iterate
        (statementRound ⟨levelsFor tokens, production (tokens.length + 2)⟩ []) (tokens.length + 3)
        [] ((State.ofTokens limits tokens).enterScope true) =
      .ok (ofTokens limits tokens).root.children s ∧
      (ofTokens limits tokens).faults = s.faults.toList := by
  obtain ⟨root, s, hrun, htree⟩ := exists_run limits tokens
  obtain ⟨start, s₁, hhere, hbehind⟩ := exists_of_bind hrun
  cases hhere
  obtain ⟨list, s₂, hscope, hbehind⟩ := exists_of_bind hbehind
  obtain ⟨last, s₃, hcurrent, hroot⟩ := exists_of_bind hbehind
  cases hcurrent
  cases hroot
  rw [inScope, around_eq] at hscope
  obtain ⟨s₄, hlist, hleave⟩ := Carries.exists_of_leaving hscope
  obtain ⟨start', s₅, hhere, hbehind⟩ := exists_of_bind hlist
  cases hhere
  obtain ⟨nodes, s₆, hnodes, hlist⟩ := exists_of_bind hbehind
  cases hlist
  rw [htree, hleave]
  exact ⟨s₄, hnodes, rfl⟩

/-- At the beginning of a list, lines that are read without a fault on their own are read in front
of other tokens, and the list goes on behind them. -/
theorem exists_rounds {t : Token} {ts : List Token} {s : State} {scopes : List LocalScope}
    {stops : List TokenKind} {levels : ℕ} (hlines : WholeLines tokens)
    (hclean : (ofTokens inner tokens).faults = [])
    (htokens : s.tape.current :: s.tape.ahead = tokens ++ t :: ts) (hdo : s.doWithheld = 0)
    (hscopes : s.scopes = ⟨[], true⟩ :: scopes)
    (hdepth : inner.maxDepth + s.depth ≤ s.limits.maxDepth)
    (hlevels : tokens.length + 2 ≤ levels) (hstops : ∀ k ∈ stops, closesConstruct k = true) :
    ∃ n < tokens.length + 3, ∃ s', Resumes t ts s s' ∧ ∀ m,
      iterate (statementRound ⟨levels + 1, production levels⟩ stops) (n + (m + 1)) [] s =
        iterate (statementRound ⟨levels + 1, production levels⟩ stops) (m + 1)
          (ofTokens inner tokens).root.children.reverse s' := by
  obtain ⟨s₀, hrun, hfaults⟩ := exists_list inner tokens
  have hclean₀ : s₀.faults = #[] := by
    rw [hclean] at hfaults
    exact Array.toList_inj.mp hfaults.symm
  have h : Carrying ⟨levelsFor tokens, production (tokens.length + 2)⟩
      ⟨levels + 1, production levels⟩ :=
    carrying_production hlevels (Nat.succ_le_succ hlevels)
  have hpending := Tape.pending_ofTokens hlines
  have hends := Tape.ends_ofTokens tokens
  have hpasses := (h.carries_list _ _).passes_ok hrun
  have hnone : s₀.tape.ahead = [] := by
    by_contra hsome
    have hnoEnd := hpasses.onward (Tape.onward_pending (·.kind ≠ .eof))
      (fun t ht => hlines.noEnd t (hpending ▸ ht))
    exact hnoEnd _ (Tape.current_mem_pending hsome) (eof_of_iterate hrun)
  let outer : State := { s with tape := ⟨s.tape.consumed, t, ts⟩, scopes := scopes }
  have hs : s = ((State.ofTokens inner tokens).enterScope true).inside outer := by
    have htape := Tape.eq_before hlines htokens
    obtain ⟨tape, faults, limits, depth, doWithheld, scopes'⟩ := s
    cases hdo
    cases hscopes
    rw [State.inside, State.enterScope]
    simp only at htape ⊢
    rw [htape]
    simp [State.ofTokens, outer]
  have hhosts : Hosts outer ((State.ofTokens inner tokens).enterScope true) := {
    ends := hends
    endsInBreak := fun t ht => hlines.breaks t (hpending ▸ ht)
    closes := h.closes_of_iterate hends hrun hclean₀ hnone
    depth := hdepth
    closed := by simp [State.enterScope] }
  obtain ⟨n, hn, hrest⟩ := h.iterate_inside hstops hrun hclean₀ hhosts
  refine ⟨n, hn, s₀.inside outer, ?_, fun m => ?_⟩
  · obtain ⟨tape, faults, limits, depth, doWithheld, scopes'⟩ := s₀
    obtain ⟨consumed, u, ahead⟩ := tape
    cases hnone
    cases hpasses.depth
    exact ⟨rfl, rfl, rfl, rfl, Nat.zero_add _⟩
  · rw [← hrest m, ← hs]

/-- A program that begins with lines that are read without a fault goes on behind them. -/
lemma exists_list_behind (hlines : WholeLines tokens) (hclean : (ofTokens limits tokens).faults = [])
    {ts : List Token} (hts : ts ≠ []) :
    ∃ m s' s, Resumes (Tape.ofTokens ts).current (Tape.ofTokens ts).ahead
        (.ofTokens limits (tokens ++ ts)) s' ∧
      iterate (statementRound
          ⟨levelsFor (tokens ++ ts), production ((tokens ++ ts).length + 2)⟩ []) (m + 1)
          (ofTokens limits tokens).root.children.reverse s' =
        .ok (ofTokens limits (tokens ++ ts)).root.children s ∧
      (ofTokens limits (tokens ++ ts)).faults = s.faults.toList := by
  obtain ⟨s, hrun, hfaults⟩ := exists_list limits (tokens ++ ts)
  let start : State := (State.ofTokens limits (tokens ++ ts)).enterScope true
  have htokens : start.tape.current :: start.tape.ahead = tokens ++ Tape.supplied ts :=
    Tape.supplied_append tokens hts
  have hlevels : tokens.length + 2 ≤ (tokens ++ ts).length + 2 := by simp
  have hdepth : limits.maxDepth + start.depth ≤ start.limits.maxDepth := Nat.le_refl limits.maxDepth
  obtain ⟨n, hn, s', hresumes, hrest⟩ :=
    exists_rounds hlines hclean htokens rfl rfl hdepth hlevels (List.forall_mem_nil _)
  obtain ⟨m, hm⟩ : ∃ m, (tokens ++ ts).length + 3 = n + (m + 1) :=
    ⟨(tokens ++ ts).length + 2 - n, by rw [List.length_append] at *; omega⟩
  rw [hm] at hrun
  refine ⟨m, s', s, ?_, (hrest m).symm.trans hrun, hfaults⟩
  exact ⟨hresumes.current, hresumes.ahead, hresumes.faults, hresumes.limits, hresumes.depth⟩

/-- Behind whole lines, reading stands at the place of the tokens behind them. -/
lemma stands_of_resumes {us ts : List Token} {s : State}
    (h : Resumes (Tape.ofTokens ts).current (Tape.ofTokens ts).ahead (.ofTokens limits us) s)
    (hkind : s.tape.kind ≠ .eof) : Stands (place limits ts) false s where
  limits := h.limits
  depth := h.depth
  le := Nat.zero_le _
  tape := by
    refine ⟨?_, ?_, fun hbegun => ?_⟩
    · rw [Tape.Ends, h.ahead, h.current]
      exact Tape.ends_ofTokens ts
    · rw [h.ahead, h.current]
      exact List.suffix_refl _
    · exact absurd hbegun (by simp [hkind])
  faults := by simp [h.faults, State.ofTokens]

/-- Whatever was read before, the faults of a list are raised at its tokens. -/
lemma raisedAt_of_iterate {g : Grammar} (h : Keeping g) {e : Place} {stops : List TokenKind}
    {rounds : ℕ} {seen nodes : List Node} {s s' : State} (hs : Stands e false s)
    (hrun : iterate (g.statementRound stops) rounds seen s = .ok nodes s') :
    ∀ f ∈ s'.faults, f.RaisedAt e.tokens := by
  have hround (seen : List Node) : Keeps e false false
      (Round.Holds (fun _ => True) (fun _ => True)) (g.statementRound stops seen) := by
    rw [statementRound_eq, map_eq_pure_bind]
    refine (h.statementRound stops (by simp)).bind fun round _ => .pure ?_
    cases round with
    | again _ => trivial
    | done _ => trivial
  have hlist : Keeps e false false (fun _ => True) (iterate (g.statementRound stops) rounds seen) :=
    .iterate (fun seen _ => hround seen) (fun seen _ => hround seen) rounds trivial
  have hmeets := hlist.run hs
  rw [hrun] at hmeets
  exact fun f hf => (hmeets.2.faults f hf).raisedAt

/-- What is written behind lines that are read without a fault leaves their statements as they are,
and every fault is raised behind those lines. -/
theorem ofTokens_append (hlines : WholeLines tokens) (hclean : (ofTokens limits tokens).faults = [])
    (ts : List Token) :
    (ofTokens limits tokens).root.children <+: (ofTokens limits (tokens ++ ts)).root.children ∧
      ∀ f ∈ (ofTokens limits (tokens ++ ts)).faults, f.RaisedAt (Tape.supplied ts) := by
  by_cases hts : ts = []
  · rw [hts, List.append_nil, hclean]
    exact ⟨List.prefix_rfl, fun f hf => absurd hf List.not_mem_nil⟩
  · obtain ⟨m, s', s, hresumes, hrun, hfaults⟩ := exists_list_behind hlines hclean hts
    refine ⟨?_, ?_⟩
    · simpa using prefix_of_iterate hrun
    · rw [hfaults]
      intro f hf
      rw [Array.mem_toList_iff] at hf
      by_cases hkind : s'.tape.kind = .eof
      · -- Nothing but an end of the text stands behind the lines.
        rw [iterate, bind_eq, statementRound_of_eof hkind] at hrun
        rw [← (EStateM.Result.ok.inj hrun).2, hresumes.faults] at hf
        simp [State.ofTokens] at hf
      · exact raisedAt_of_iterate (keeping_production _ _) (stands_of_resumes hresumes hkind) hrun f hf

/-- A method in front of a faulty line. -/
theorem ofTokens_append_method :
    let tokens := (TokenStream.ofText "def f(x)\n  [x,\n  1]\nend\n".toList).tokens.dropLast
    let ts := (TokenStream.ofText "x + ) y\n".toList).tokens
    WholeLines tokens ∧ (ofTokens .standard tokens).faults = [] ∧
      (ofTokens .standard (tokens ++ ts)).faults ≠ [] ∧
      (ofTokens .standard tokens).root.children <+:
        (ofTokens .standard (tokens ++ ts)).root.children ∧
      ∀ f ∈ (ofTokens .standard (tokens ++ ts)).faults, f.RaisedAt (Tape.supplied ts) := by
  intro tokens ts
  have hlines : WholeLines tokens := by decide +kernel
  have hclean : (ofTokens .standard tokens).faults = [] := by decide +kernel
  exact ⟨hlines, hclean, by decide +kernel, ofTokens_append hlines hclean ts⟩

end SyntaxTree

end RubyCheck
