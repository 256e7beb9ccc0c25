import RubyCheck.Proofs.Grammar.Unclosed
import RubyCheck.Proofs.Lines

/-!
# Recovery inside definitions

A definition whose `end` never comes is reported once, where the text ends, and so is every other one
around it; nothing else is reported (`SyntaxTree.ofTokens_unclosed`).  The whole lines that stand in
them may be anything that is read without a fault on its own.

An `end` where an operand should stand is skipped with the statement that it cuts short, so the
definition that it would have closed is reported as well (`SyntaxTree.ofTokens_cut`).
-/

namespace RubyCheck

open Grammar

/-- The first line of a definition, and whole lines behind it that are read without a fault. -/
structure Opening (inner : Limits) where
  keyword : Token
  name : Token
  lineBreak : Token
  lines : List Token
  opens : opensDefinition keyword.kind name.kind = true
  breaks : lineBreak.kind = .newline
  wholeLines : WholeLines lines
  clean : (SyntaxTree.ofTokens inner lines).faults = []

namespace Grammar

/-- A state at the end of the text, up to which some more faults were reported. -/
structure Ended (fs : List Fault) (s s' : State) : Prop where
  kind : s'.tape.kind = .eof
  ahead : s'.tape.ahead = []
  limits : s'.limits = s.limits
  faults : s'.faults.toList = s.faults.toList ++ fs

/-- Behind a round that comes to the end of the text the list is over. -/
lemma Ended.iterate {g : Grammar} {stops : List TokenKind} {seen seen' : List Node}
    {s s' s'' : State} {fs : List Fault} (h : Ended fs s s'')
    (hround : g.statementRound stops seen s' = .ok (.again seen') s'') (rounds : ℕ) :
    Grammar.iterate (g.statementRound stops) (rounds + 2) seen s' = .ok seen'.reverse s'' := by
  change (g.statementRound stops seen >>= _) s' = _
  rw [bind_eq_of_ok hround]
  change (g.statementRound stops seen' >>= _) s'' = _
  rw [bind_eq_of_ok (statementRound_of_eof h.kind)]
  rfl

end Grammar

namespace Opening

variable {inner : Limits} {s : State} {t e : Token} {ts : List Token} {stops : List TokenKind}
  {levels rounds : ℕ} {seen : List Node}

/-- The tokens of the first line and of the lines behind it. -/
def tokens (d : Opening inner) : List Token := d.keyword :: d.name :: d.lineBreak :: d.lines

/-- The fault of a definition that is still open at the end of the text. -/
def unclosed (d : Opening inner) : Fault := ⟨.unclosed d.keyword.text "end" true, d.keyword.span⟩

/-- Inside a definition its lines are read, and if what follows them comes to the end of the text,
so does the definition, which is reported there. -/
theorem exists_inside (d : Opening inner)
    (htokens : s.tape.current :: s.tape.ahead = d.tokens ++ t :: ts)
    (hdepth : inner.maxDepth + (s.depth + 2) ≤ s.limits.maxDepth)
    (hlevels : d.lines.length + 4 ≤ levels) (hstops : ∀ k ∈ stops, closesConstruct k = true) :
    ∃ m s₁, Resumes t ts { s with depth := s.depth + 2 } s₁ ∧ ∀ fs nodes s',
      iterate (statementRound ⟨levels + 1, production levels⟩ bodyStops) (m + 2)
          (SyntaxTree.ofTokens inner d.lines).root.children.reverse s₁ = .ok nodes s' →
        Ended fs s₁ s' → s.faults.size + fs.length < s.limits.maxFaults →
        ∀ seen, ∃ n s'', statementRound ⟨levels + 1 + 1, production (levels + 1)⟩ stops seen s =
            .ok (.again (n :: seen)) s'' ∧
          Ended (fs ++ [d.unclosed]) s s'' := by
  obtain ⟨u, us, hbehind⟩ := List.exists_cons_of_ne_nil (l := d.lines ++ t :: ts) (by simp)
  have htape : s.tape = ⟨s.tape.consumed, d.keyword, d.name :: d.lineBreak :: u :: us⟩ := by
    rw [tokens, List.cons_append, List.cons_append, List.cons_append, hbehind] at htokens
    obtain ⟨hcurrent, hahead⟩ := List.cons.inj htokens
    rw [← hcurrent, ← hahead]
  let before : State :=
    State.inBody ⟨some d.name, d.lineBreak, u :: us⟩ { s with depth := s.depth + 2 }
  let behind : State := State.inBody ⟨some d.lineBreak, u, us⟩ { s with depth := s.depth + 2 }
  -- The line break behind the name is passed over with the first round.
  have hbreak : before.tape.passOver Tape.endsStatement =
      behind.tape.passOver Tape.endsStatement := by
    simp [before, behind, State.inBody, Tape.passOver, Tape.passOver.go, d.breaks,
      Tape.endsStatement]
  have hfirst (rounds : ℕ) :
      iterate (statementRound ⟨levels + 1, production levels⟩ bodyStops) (rounds + 1) [] before =
        iterate (statementRound ⟨levels + 1, production levels⟩ bodyStops) (rounds + 1) [] behind := by
    have hround : statementRound ⟨levels + 1, production levels⟩ bodyStops [] before =
        statementRound ⟨levels + 1, production levels⟩ bodyStops [] behind :=
      statementRound_congr (congrArg (fun tape => { before with tape := tape }) hbreak)
    rw [iterate, bind_eq, bind_eq, hround]
  have henough : d.lines.length + 2 ≤ levels := by omega
  have hbodyStops : ∀ k ∈ bodyStops, closesConstruct k = true := by decide
  obtain ⟨n, hn, s₁, hresumes, hrest⟩ := SyntaxTree.exists_rounds (s := behind) d.wholeLines d.clean
    hbehind.symm rfl rfl hdepth henough hbodyStops
  obtain ⟨m, hm⟩ : ∃ m, levels + 1 = n + (m + 1 + 1) := ⟨levels - n - 1, by omega⟩
  refine ⟨m, s₁, ⟨hresumes.current, hresumes.ahead, hresumes.faults, hresumes.limits,
    hresumes.depth⟩, fun fs nodes s' hrun hended hroom seen => ?_⟩
  have hlist : iterate (statementRound ⟨levels + 1, production levels⟩ bodyStops) (levels + 1) []
      before = .ok nodes s' :=
    calc iterate (statementRound ⟨levels + 1, production levels⟩ bodyStops) (levels + 1) [] before
        = iterate (statementRound ⟨levels + 1, production levels⟩ bodyStops) (levels + 1) [] behind :=
          hfirst levels
      _ = iterate (statementRound ⟨levels + 1, production levels⟩ bodyStops) (n + (m + 1 + 1)) []
          behind := congrArg (iterate _ · [] behind) hm
      _ = .ok nodes s' := (hrest (m + 1)).trans hrun
  have hlimits : s'.limits = s.limits := hended.limits.trans hresumes.limits
  have hfaults : s'.faults.toList = s.faults.toList ++ fs := by
    rw [hended.faults, hresumes.faults]
    rfl
  have hsize : s'.faults.size < s.limits.maxFaults := by
    rw [← Array.length_toList, hfaults, List.length_append, Array.length_toList]
    exact hroom
  obtain ⟨k, s'', hround, htape', hfaults', hlimits'⟩ := exists_round_definition htape d.opens
    d.breaks (by omega) hlist hended.kind hended.ahead hlimits hsize hstops
  refine ⟨k, s'', hround, ⟨?_, ?_, hlimits', ?_⟩⟩
  · rw [htape', hended.kind]
  · rw [htape', hended.ahead]
  · rw [hfaults', Array.toList_push, hfaults, List.append_assoc]
    rfl

/-- Definitions one in another that come to the end of the text are reported there, the innermost
one first. -/
theorem exists_unclosed (hend : e.kind = .eof) (parts : List (Opening inner))
    (htokens : s.tape.current :: s.tape.ahead = parts.flatMap tokens ++ [e])
    (hdepth : inner.maxDepth + s.depth + 2 * parts.length ≤ s.limits.maxDepth)
    (hlevels : (parts.flatMap tokens).length + 2 ≤ levels)
    (hroom : s.faults.size + parts.length ≤ s.limits.maxFaults)
    (hstops : ∀ k ∈ stops, closesConstruct k = true) (rounds : ℕ) (seen : List Node) :
    ∃ nodes s', iterate (statementRound ⟨levels + 1, production levels⟩ stops) (rounds + 2) seen s =
      .ok nodes s' ∧ Ended (parts.map unclosed).reverse s s' := by
  induction parts generalizing s levels rounds seen stops with
  | nil =>
    obtain ⟨hcurrent, hahead⟩ := List.cons.inj htokens
    have hkind : s.tape.kind = .eof := by
      rw [Tape.kind, hcurrent, hend]
    refine ⟨seen.reverse, s, ?_, ⟨hkind, hahead, rfl, by simp⟩⟩
    rw [iterate, bind_eq_of_ok (statementRound_of_eof hkind)]
    rfl
  | cons d parts ih =>
    obtain ⟨levels, rfl⟩ := Nat.exists_eq_add_one.mpr (Nat.lt_of_lt_of_le (Nat.succ_pos _) hlevels)
    obtain ⟨t, ts, hbehind⟩ :=
      List.exists_cons_of_ne_nil (l := parts.flatMap tokens ++ [e]) (by simp)
    simp only [List.flatMap_cons, List.append_assoc, hbehind] at htokens
    simp only [List.flatMap_cons, List.length_append, List.length_cons, tokens] at hlevels
    simp only [List.length_cons] at hdepth hroom
    have hdepth₁ : inner.maxDepth + (s.depth + 2) ≤ s.limits.maxDepth := by omega
    have hlevels₁ : d.lines.length + 4 ≤ levels := by omega
    obtain ⟨m, s₁, hresumes, hinside⟩ := d.exists_inside htokens hdepth₁ hlevels₁ hstops
    have htokens₁ : s₁.tape.current :: s₁.tape.ahead = parts.flatMap tokens ++ [e] := by
      rw [hresumes.current, hresumes.ahead, hbehind]
    have hdepth₂ : inner.maxDepth + s₁.depth + 2 * parts.length ≤ s₁.limits.maxDepth := by
      rw [hresumes.depth, hresumes.limits]
      simp only
      omega
    have hroom₁ : s₁.faults.size + parts.length ≤ s₁.limits.maxFaults := by
      rw [hresumes.faults, hresumes.limits]
      simp only
      omega
    have hlevels₂ : (parts.flatMap tokens).length + 2 ≤ levels := by omega
    have hbodyStops : ∀ k ∈ bodyStops, closesConstruct k = true := by decide
    obtain ⟨nodes, s', hrun, hended⟩ := ih htokens₁ hdepth₂ hlevels₂ hroom₁ hbodyStops m
      (SyntaxTree.ofTokens inner d.lines).root.children.reverse
    have hmore : s.faults.size + (parts.map unclosed).reverse.length < s.limits.maxFaults := by
      rw [List.length_reverse, List.length_map]
      omega
    obtain ⟨n, s'', hround, hended'⟩ := hinside _ nodes s' hrun hended hmore seen
    rw [List.map_cons, List.reverse_cons]
    exact ⟨_, s'', hended'.iterate hround rounds, hended'⟩

/-- Skipping a statement that failed at an `end` goes over that `end`. -/
lemma synchronize_cut {operator closer lineBreak : Token} (hcloser : closer.kind = .keyword .end_)
    (hbreak : lineBreak.kind = .newline) :
    (⟨some operator, closer, [lineBreak, e]⟩ : Tape).synchronize = ⟨some lineBreak, e, []⟩ := by
  simp [Tape.synchronize, Tape.synchronize.go, Token.isEof, hcloser, hbreak, Tape.endsStatement,
    Tape.bracketDepth, Tape.beginsDefinition]

/-- A statement that is cut short behind an operator, at the `end` of the definition around it, is
reported there, and with it the `end` is skipped: the definition is reported as well. -/
theorem exists_cut (d : Opening inner) {i operator closer lineBreak : Token}
    (htokens : s.tape.current :: s.tape.ahead = d.tokens ++ [i, operator, closer, lineBreak, e])
    (hint : i.kind.isInteger = true) (hoperator : isBinaryOperator operator.kind = true)
    (hcloser : closer.kind = .keyword .end_) (hbreak : lineBreak.kind = .newline)
    (hend : e.kind = .eof) (hdepth : inner.maxDepth + 3 + s.depth ≤ s.limits.maxDepth)
    (hlevels : d.lines.length + 4 ≤ levels) (hroom : s.faults.size + 2 ≤ s.limits.maxFaults)
    (hstops : ∀ k ∈ stops, closesConstruct k = true) (rounds : ℕ) (seen : List Node) :
    ∃ nodes s', iterate (statementRound ⟨levels + 1 + 1, production (levels + 1)⟩ stops)
        (rounds + 2) seen s = .ok nodes s' ∧
      Ended [noOperand closer, d.unclosed] s s' := by
  have hdepth₁ : inner.maxDepth + (s.depth + 2) ≤ s.limits.maxDepth := by omega
  obtain ⟨m, s₁, hresumes, hinside⟩ := d.exists_inside htokens hdepth₁ hlevels hstops
  have htape : s₁.tape = ⟨s₁.tape.consumed, i, [operator, closer, lineBreak, e]⟩ := by
    rw [← hresumes.current, ← hresumes.ahead]
  have hdepth₂ : s₁.depth + 3 ≤ s₁.limits.maxDepth := by
    have hleast := inner.two_le_depth
    rw [hresumes.depth, hresumes.limits]
    simp only
    omega
  have hroom₁ : s₁.faults.size + 1 < s₁.limits.maxFaults := by
    rw [hresumes.faults, hresumes.limits]
    exact hroom
  obtain ⟨levels', rfl⟩ : ∃ levels', levels = levels' + 1 := ⟨levels - 1, by omega⟩
  have hfails : Fails (noOperand closer) ⟨some operator, closer, [lineBreak, e]⟩ s₁.faults
      (statement ⟨levels' + 1 + 1, production (levels' + 1)⟩) s₁ :=
    .statement_cut htape hint hoperator hcloser hdepth₂
  have hbegins : beginsStatement s₁.tape.kind = true := by
    rw [htape, Tape.kind]
    obtain hinteger | hoctal := TokenKind.eq_of_isInteger hint
    · rw [hinteger]
      rfl
    · rw [hoctal]
      rfl
  have hbodyStops : ∀ k ∈ bodyStops, closesConstruct k = true := by decide
  obtain ⟨n, s₂, hround, htape₂, hfaults₂, hlimits₂⟩ :=
    exists_statementRound hfails hbegins (Nat.lt_of_succ_lt hroom₁)
      (fun hlast => absurd hlast (Nat.ne_of_lt hroom₁)) hbodyStops
      (SyntaxTree.ofTokens inner d.lines).root.children.reverse
  have hended : Ended [noOperand closer] s₁ s₂ := by
    rw [synchronize_cut hcloser hbreak] at htape₂
    refine ⟨?_, ?_, hlimits₂, ?_⟩
    · rw [htape₂, Tape.kind, hend]
    · rw [htape₂]
    · rw [hfaults₂, Array.toList_push]
  obtain ⟨k, s', houter, hended'⟩ :=
    hinside _ _ s₂ (hended.iterate hround m) hended hroom seen
  exact ⟨_, s', hended'.iterate houter rounds, hended'⟩

end Opening

namespace SyntaxTree

variable {limits inner : Limits}

/-- What a list comes to at the beginning of a program are the faults of the program. -/
lemma faults_of_list {tokens : List Token} {fs : List Fault} {nodes : List Node} {s : State}
    (hrun : iterate (statementRound ⟨levelsFor tokens, production (tokens.length + 2)⟩ [])
      (tokens.length + 3) [] ((State.ofTokens limits tokens).enterScope true) = .ok nodes s)
    (hended : Ended fs ((State.ofTokens limits tokens).enterScope true) s) :
    (ofTokens limits tokens).faults = fs := by
  obtain ⟨s', hlist, hfaults⟩ := exists_list limits tokens
  rw [hrun] at hlist
  rw [hfaults, ← (EStateM.Result.ok.inj hlist).2, hended.faults]
  rfl

/-- Definitions that are never closed, with whole lines in each of them that are read without a
fault, are reported once each where the text ends, the innermost one first, and nothing else is. -/
theorem ofTokens_unclosed {e : Token} (hend : e.kind = .eof) (parts : List (Opening inner))
    (hdepth : inner.maxDepth + 2 * parts.length ≤ limits.maxDepth)
    (hroom : parts.length ≤ limits.maxFaults) :
    (ofTokens limits (parts.flatMap Opening.tokens ++ [e])).faults =
      (parts.map Opening.unclosed).reverse := by
  let tokens : List Token := parts.flatMap Opening.tokens ++ [e]
  let start : State := (State.ofTokens limits tokens).enterScope true
  have htokens : start.tape.current :: start.tape.ahead = tokens := Tape.supplied_eq rfl hend
  have hlevels : (parts.flatMap Opening.tokens).length + 2 ≤ tokens.length + 2 := by simp [tokens]
  have hroom' : start.faults.size + parts.length ≤ start.limits.maxFaults :=
    (Nat.zero_add parts.length).trans_le hroom
  obtain ⟨nodes, s, hrun, hended⟩ := Opening.exists_unclosed hend parts htokens hdepth hlevels
    hroom' (List.forall_mem_nil _) (tokens.length + 1) []
  exact faults_of_list hrun hended

/-- A class in a method, with a line of its own in each of them. -/
theorem ofTokens_unclosed_class :
    let token (kind : TokenKind) (text : String) (i : ℕ) : Token :=
      ⟨kind, text, ⟨⟨i, 0, i⟩, ⟨i + 1, 0, i + 1⟩⟩, true, false⟩
    let def_ := [token (.keyword .def_) "def" 0, token .identifier "f" 1, token .newline "\n" 2,
      token .identifier "x" 3, token .newline "\n" 4]
    let class_ := [token (.keyword .class_) "class" 5, token .constant "A" 6,
      token .newline "\n" 7, token .integer "1" 8, token .newline "\n" 9]
    2 + 2 * 2 ≤ Limits.standard.maxDepth ∧ 2 ≤ Limits.standard.maxFaults ∧
      (ofTokens .standard (def_ ++ class_ ++ [token .eof "" 10])).faults =
        [⟨.unclosed "class" "end" true, ⟨⟨5, 0, 5⟩, ⟨6, 0, 6⟩⟩⟩,
          ⟨.unclosed "def" "end" true, ⟨⟨0, 0, 0⟩, ⟨1, 0, 1⟩⟩⟩] := by
  intro token _ _
  let method : Opening ⟨1, 2, by decide, by decide⟩ :=
    ⟨token (.keyword .def_) "def" 0, token .identifier "f" 1, token .newline "\n" 2,
      [token .identifier "x" 3, token .newline "\n" 4], rfl, rfl, by decide, by decide +kernel⟩
  let inner : Opening ⟨1, 2, by decide, by decide⟩ :=
    ⟨token (.keyword .class_) "class" 5, token .constant "A" 6, token .newline "\n" 7,
      [token .integer "1" 8, token .newline "\n" 9], rfl, rfl, by decide, by decide +kernel⟩
  have hdepth : 2 + 2 * 2 ≤ Limits.standard.maxDepth := by decide
  have hroom : 2 ≤ Limits.standard.maxFaults := by decide
  exact ⟨hdepth, hroom, ofTokens_unclosed rfl [method, inner] hdepth hroom⟩

/-- Where a statement of a definition is cut short behind an operator, right at the `end` of the
definition, two faults are reported: at the `end`, and at the definition, which is left without. -/
theorem ofTokens_cut (d : Opening inner) {i operator closer lineBreak : Token}
    (hint : i.kind.isInteger = true) (hoperator : isBinaryOperator operator.kind = true)
    (hcloser : closer.kind = .keyword .end_) (hbreak : lineBreak.kind = .newline)
    (hdepth : inner.maxDepth + 3 ≤ limits.maxDepth) (hroom : 2 ≤ limits.maxFaults) :
    (ofTokens limits (d.tokens ++ [i, operator, closer, lineBreak])).faults =
      [noOperand closer, d.unclosed] := by
  let tokens : List Token := d.tokens ++ [i, operator, closer, lineBreak]
  let start : State := (State.ofTokens limits tokens).enterScope true
  have htokens : start.tape.current :: start.tape.ahead =
      d.tokens ++ [i, operator, closer, lineBreak, .empty .eof lineBreak.span.stop] := by
    refine (Tape.supplied_append d.tokens (List.cons_ne_nil _ _)).trans ?_
    simp [Tape.supplied, Tape.ofTokens, Tape.ending, Token.isEof, hbreak]
  have hlevels : d.lines.length + 4 ≤ tokens.length + 1 := by
    simp [tokens, Opening.tokens]
  have hroom' : start.faults.size + 2 ≤ start.limits.maxFaults := hroom
  obtain ⟨nodes, s, hrun, hended⟩ := d.exists_cut htokens hint hoperator hcloser hbreak rfl hdepth
    hlevels hroom' (List.forall_mem_nil _) (tokens.length + 1) []
  exact faults_of_list hrun hended

/-- A sum without its right side, behind another line of a method. -/
theorem ofTokens_cut_sum :
    let token (kind : TokenKind) (text : String) (i : ℕ) : Token :=
      ⟨kind, text, ⟨⟨i, 0, i⟩, ⟨i + 1, 0, i + 1⟩⟩, true, false⟩
    let method := [token (.keyword .def_) "def" 0, token .identifier "f" 1, token .newline "\n" 2,
      token .identifier "x" 3, token .newline "\n" 4]
    TokenKind.integer.isInteger = true ∧ isBinaryOperator (.punct .plus) = true ∧
      2 + 3 ≤ Limits.standard.maxDepth ∧ 2 ≤ Limits.standard.maxFaults ∧
      (ofTokens .standard (method ++ [token .integer "1" 5, token (.punct .plus) "+" 6,
        token (.keyword .end_) "end" 7, token .newline "\n" 8])).faults =
        [⟨.unexpectedToken "end" "expression", ⟨⟨7, 0, 7⟩, ⟨8, 0, 8⟩⟩⟩,
          ⟨.unclosed "def" "end" true, ⟨⟨0, 0, 0⟩, ⟨1, 0, 1⟩⟩⟩] := by
  intro token _
  let method : Opening ⟨1, 2, by decide, by decide⟩ :=
    ⟨token (.keyword .def_) "def" 0, token .identifier "f" 1, token .newline "\n" 2,
      [token .identifier "x" 3, token .newline "\n" 4], rfl, rfl, by decide, by decide +kernel⟩
  have hint : TokenKind.integer.isInteger = true := rfl
  have hplus : isBinaryOperator (.punct .plus) = true := rfl
  have hdepth : 2 + 3 ≤ Limits.standard.maxDepth := by decide
  have hroom : 2 ≤ Limits.standard.maxFaults := by decide
  exact ⟨hint, hplus, hdepth, hroom, ofTokens_cut method hint hplus rfl rfl hdepth hroom⟩

/-- A method without other lines. -/
theorem ofText_cut_method :
    (ofText .standard "def m\n1 + end\n".toList).faults =
      [⟨.unexpectedToken "end" "expression", ⟨⟨10, 1, 4⟩, ⟨13, 1, 7⟩⟩⟩,
        ⟨.unclosed "def" "end" true, ⟨⟨0, 0, 0⟩, ⟨3, 0, 3⟩⟩⟩] := by
  decide +kernel

end SyntaxTree

end RubyCheck
