import RubyCheck.Proofs.Grammar.Fails
import RubyCheck.Proofs.Token.Splice

/-!
# Definitions that are never closed

If the statements in the body of a method, class or module come to the end of the text, the body fails
there, and the failure comes through to the statement that the definition is.  The list of statements
around the definition reports it at the keyword and stands at the end of the text itself
(`exists_round_definition`).
-/

namespace RubyCheck.Grammar

variable {α : Type} {f : Fault} {tape : Tape} {faults : Array Fault} {s s' : State} {g : Grammar}
  {consumed : Option Token} {t u v : Token} {us : List Token} {stops : List TokenKind}
  {seen : List Node}

/-! ### Bodies -/

lemma rescueClauses_eq (hrounds : 0 < g.rounds) (h : s.tape.kind ≠ .keyword .rescue_) :
    rescueClauses g s = .ok [] s := by
  have hnot : (s.tape.kind == .keyword .rescue_) = false := beq_eq_false_iff_ne.mpr h
  obtain ⟨rounds, hsucc⟩ := Nat.exists_eq_add_one.mpr hrounds
  have hround : (check (.keyword .rescue_) >>= fun found =>
      if found then (do return .again ((← rescueClause g) :: []))
      else return .done [] : Parser (Round (List Node) (List Node))) s = .ok (.done []) s := by
    rw [check, view_bind_eq, hnot]
    rfl
  rw [rescueClauses, hsucc, iterate]
  exact bind_eq_of_ok hround _

lemma clauseIf_eq {keyword : Keyword} {kind : NodeKind} (h : s.tape.kind ≠ .keyword keyword) :
    clauseIf g keyword kind stops s = .ok [] s := by
  have hnot : (s.tape.kind == .keyword keyword) = false := beq_eq_false_iff_ne.mpr h
  rw [clauseIf, check, view_bind_eq, hnot]
  rfl

/-- A body whose statements come to the end of the text is never closed. -/
lemma Fails.body {opener : Token} {list : Node}
    (hlist : g.parse (.statements bodyStops) s = .ok list s') (hlimits : s'.limits = s.limits)
    (hkind : s'.tape.kind = .eof) (hrounds : 0 < g.rounds) :
    Fails (unclosed opener (.keyword .end_) true) s'.tape s'.faults (g.body opener) s := by
  have hno (word : Keyword) : s'.tape.kind ≠ .keyword word := by simp [hkind]
  have hend : s'.tape.atEnd = true := by
    change (s'.tape.kind == .eof) = true
    rw [hkind]
    rfl
  have hexpect : Fails (unclosed opener (.keyword .end_) true) s'.tape s'.faults
      (expectEnd opener) s' := by
    unfold expectEnd expectCloser
    refine .view ?_
    rw [hend]
    exact Fails.fail.bind
  unfold Grammar.body
  exact .behind hlist hlimits (.behind (rescueClauses_eq hrounds (hno _)) rfl
    (.behind (clauseIf_eq (hno _)) rfl (.behind (clauseIf_eq (hno _)) rfl hexpect.bind)))

/-! ### Openings -/

/-- Whether a keyword and a name begin a definition. -/
def opensDefinition : TokenKind → TokenKind → Bool
  | .keyword .def_, name => namesMethod name
  | .keyword .class_, name | .keyword .module_, name => name == .constant
  | _, _ => false

/-- The state in the body of a definition. -/
def State.inBody (tape : Tape) (s : State) : State :=
  { s with tape := tape, doWithheld := 0, scopes := ⟨[], true⟩ :: s.scopes }

/-- The name of a method at the end of a line belongs to no object. -/
lemma methodName_eq (htape : s.tape = ⟨consumed, u, v :: us⟩) (hbreak : v.kind = .newline)
    (hname : namesMethod u.kind = true) :
    methodName s = .ok ("" ++ u.text) { s with tape := ⟨some u, v, us⟩ } := by
  have howner : owner s = .ok "" s := by
    have hnone : namesOwner s.tape.current s.tape.next = false := by
      simp [htape, namesOwner, Tape.next, hbreak]
    rw [owner, view_bind_eq, hnone]
    rfl
  have hkind : u.kind ≠ .eof := by
    intro hkind
    rw [hkind] at hname
    cases hname
  have hhere : s.tape.kind = u.kind := congrArg Tape.kind htape
  rw [methodName, bind_eq_of_ok howner, Grammar.kind, view_bind_eq, hhere, hname, if_pos rfl,
    bind_eq_of_ok (advance_eq htape hkind)]
  rfl

/-- A method whose name ends its line has no parameters. -/
lemma exists_methodParameters (hkind : s.tape.kind = .newline) :
    ∃ n, g.methodParameters s = .ok n s := by
  refine ⟨.inner .parameters (s.spanFrom s.start) [], ?_⟩
  rw [methodParameters, here, view_bind_eq, kind, view_bind_eq, hkind]
  rfl

lemma constantPath_eq (htape : s.tape = ⟨consumed, u, v :: us⟩) (hbreak : v.kind = .newline)
    (hname : u.kind = .constant) (hrounds : 0 < g.rounds) :
    g.constantPath s = .ok u.text { s with tape := ⟨some u, v, us⟩ } := by
  let behindName : State := { s with tape := ⟨some u, v, us⟩ }
  have hhere : s.tape.kind = .constant := (congrArg Tape.kind htape).trans hname
  have houtermost : accept (.punct .colonColon) s = .ok false s := accept_of_ne (by simp [hhere])
  have hexpect : expect .constant s = .ok u behindName := by
    have hfound : (s.tape.kind == .constant) = true := beq_iff_eq.mpr hhere
    rw [expect, check, view_bind_eq, hfound, if_pos rfl]
    exact advance_eq htape (by simp [hname])
  have hround : (view (fun s => s.tape.kind == .punct .colonColon && !s.tape.current.spaced) >>=
      fun further => if further then (do
        drop
        return .again (u.text ++ "::" ++ (← expect .constant).text))
      else return .done u.text : Parser (Round String String)) behindName =
        .ok (.done u.text) behindName := by
    have hkind : (behindName.tape.kind == .punct .colonColon) = false := by
      simp [behindName, Tape.kind, hbreak]
    rw [view_bind_eq, hkind]
    rfl
  obtain ⟨rounds, hsucc⟩ := Nat.exists_eq_add_one.mpr hrounds
  rw [constantPath, bind_eq_of_ok houtermost, bind_eq_of_ok hexpect, if_neg Bool.false_ne_true,
    constantPathRest, hsucc, iterate]
  exact bind_eq_of_ok hround _

section Openings

variable (htape : s.tape = ⟨consumed, t, u :: v :: us⟩) (hbreak : v.kind = .newline)
  (hbody : Fails f tape faults (g.body t) (s.inBody ⟨some u, v, us⟩))
include htape hbreak hbody

lemma Fails.method (hkeyword : t.kind = .keyword .def_) (hname : namesMethod u.kind = true) :
    Fails f tape faults g.method s := by
  let inner : State := s.inBody ⟨some u, v, us⟩
  have hadvance : advance s = .ok t { s with tape := ⟨some t, u, v :: us⟩ } :=
    advance_eq htape (by simp [hkeyword])
  obtain ⟨n, hparameters⟩ := exists_methodParameters (g := g) (s := inner) hbreak
  have hequals : accept (.punct .eq) inner = .ok false inner :=
    accept_of_ne (by simp [inner, State.inBody, Tape.kind, hbreak])
  have hmethodBody : Fails f tape faults (g.methodBody t) inner := .behind hequals rfl hbody
  unfold Grammar.method
  exact .behind hadvance rfl (.behind (methodName_eq rfl hbreak hname) rfl
    (.inScope (.allowingDo (.behind hparameters rfl hmethodBody.bind))))

lemma Fails.classDefinition (hrounds : 0 < g.rounds) (hkeyword : t.kind = .keyword .class_)
    (hname : u.kind = .constant) :
    Fails f tape faults g.classDefinition s := by
  let behindKeyword : State := { s with tape := ⟨some t, u, v :: us⟩ }
  let behindName : State := { s with tape := ⟨some u, v, us⟩ }
  have hadvance : advance s = .ok t behindKeyword := advance_eq htape (by simp [hkeyword])
  have hshift : accept (.punct .shl) behindKeyword = .ok false behindKeyword :=
    accept_of_ne (by simp [behindKeyword, Tape.kind, hname])
  have hpath : g.constantPath behindKeyword = .ok u.text behindName :=
    constantPath_eq rfl hbreak hname hrounds
  have hparent : accept (.punct .lt) behindName = .ok false behindName :=
    accept_of_ne (by simp [behindName, Tape.kind, hbreak])
  have hscoped : Fails f tape faults (scopedBody g t) behindName := .inScope (.allowingDo hbody)
  unfold Grammar.classDefinition
  exact .behind hadvance rfl (.behind hshift rfl (.behind hpath rfl (.behind hparent rfl
    hscoped.bind)))

lemma Fails.moduleDefinition (hrounds : 0 < g.rounds) (hkeyword : t.kind = .keyword .module_)
    (hname : u.kind = .constant) :
    Fails f tape faults g.moduleDefinition s := by
  have hadvance : advance s = .ok t { s with tape := ⟨some t, u, v :: us⟩ } :=
    advance_eq htape (by simp [hkeyword])
  have hscoped : Fails f tape faults (scopedBody g t) { s with tape := ⟨some u, v, us⟩ } :=
    .inScope (.allowingDo hbody)
  unfold Grammar.moduleDefinition
  exact .behind hadvance rfl (.behind (constantPath_eq rfl hbreak hname hrounds) rfl hscoped.bind)

/-- A definition fails as its body does. -/
lemma Fails.operand_definition (hrounds : 0 < g.rounds)
    (hopens : opensDefinition t.kind u.kind = true) : Fails f tape faults g.operand s := by
  have hhere : s.tape.kind = t.kind := congrArg Tape.kind htape
  unfold Grammar.operand
  refine .view ?_
  rw [hhere]
  unfold opensDefinition at hopens
  split at hopens
  · rename_i hkeyword
    rw [hkeyword]
    exact .method htape hbreak hbody hkeyword hopens
  · rename_i hkeyword
    rw [hkeyword]
    exact .classDefinition htape hbreak hbody hrounds hkeyword (eq_of_beq hopens)
  · rename_i hkeyword
    rw [hkeyword]
    exact .moduleDefinition htape hbreak hbody hrounds hkeyword (eq_of_beq hopens)
  · cases hopens

end Openings

/-! ### Lists around -/

/-- Whether a statement may begin with a token of a kind. -/
def beginsStatement (k : TokenKind) : Bool := !k.isTerminator && !closesConstruct k

lemma statementRound_of_begins (hbegins : beginsStatement s.tape.kind = true)
    (hstops : ∀ k ∈ stops, closesConstruct k = true) :
    g.statementRound stops seen s = g.listedStatement stops seen s := by
  obtain ⟨hterminator, hcloses⟩ : s.tape.kind.isTerminator = false ∧
      closesConstruct s.tape.kind = false := by
    simpa [beginsStatement] using hbegins
  have hstay : s.tape.passOver Tape.endsStatement = s.tape := by
    refine Tape.passOver_of_not ?_
    generalize s.tape.kind = k at hterminator ⊢
    unfold Tape.endsStatement
    split
    · cases hterminator
    · cases hterminator
    · rfl
  have hskip : skipTerminators s = .ok () s := by
    change EStateM.Result.ok () { s with tape := s.tape.passOver Tape.endsStatement } = _
    rw [hstay]
  have heof : s.tape.kind ≠ .eof := by
    intro heof
    rw [heof] at hterminator
    cases hterminator
  have hstop : s.tape.kind ∉ stops := by
    intro hmem
    rw [hstops _ hmem] at hcloses
    cases hcloses
  have hgoesOn : (s.tape.kind == .eof || stops.contains s.tape.kind) = false := by
    simp [heof, hstop]
  rw [statementRound, bind_eq_of_ok hskip, Grammar.kind, view_bind_eq, hgoesOn,
    if_neg Bool.false_ne_true, hcloses, if_neg Bool.false_ne_true]

/-- A statement that fails is reported, and the rest of it is skipped. -/
lemma exists_statementRound (h : Fails f tape faults g.statement s)
    (hbegins : beginsStatement s.tape.kind = true) (hroom : faults.size < s.limits.maxFaults)
    (hlast : faults.size + 1 = s.limits.maxFaults → tape.ahead = [])
    (hstops : ∀ k ∈ stops, closesConstruct k = true) (seen : List Node) :
    ∃ n s', g.statementRound stops seen s = .ok (.again (n :: seen)) s' ∧
      s'.tape = tape.synchronize ∧ s'.faults = faults.push f ∧ s'.limits = s.limits := by
  obtain ⟨s₁, hrun, rfl, rfl, hlimits⟩ := h
  have htape : (s₁.report f).tape = s₁.tape := by
    rw [← hlimits] at hroom hlast
    rcases Nat.lt_or_eq_of_le hroom with hmore | hfull
    · rw [State.report_more hmore]
    · rw [State.report_last hfull]
      exact Tape.toLast_eq (hlast hfull)
  have hgoesOn : s₁.gaveUp = false := by
    rw [State.gaveUp_eq_false_iff, hlimits]
    exact hroom
  let behind : State := { s₁.report f with tape := (s₁.report f).tape.synchronize }
  refine ⟨behind.errorNode s.tape.current, behind, ?_, congrArg Tape.synchronize htape,
    State.faults_report hgoesOn f, (s₁.limits_report f).trans hlimits⟩
  rw [statementRound_of_begins hbegins hstops, listedStatement, current, view_bind_eq,
    attempt_bind_eq, hrun]
  rfl

lemma eq_of_opensDefinition {k name : TokenKind} (h : opensDefinition k name = true) :
    k = .keyword .def_ ∨ k = .keyword .class_ ∨ k = .keyword .module_ := by
  unfold opensDefinition at h
  split at h
  · exact .inl rfl
  · exact .inr (.inl rfl)
  · exact .inr (.inr rfl)
  · cases h

/-- A definition whose body comes to the end of the text is reported at its keyword, once the body
was read. -/
theorem exists_round_definition {levels rounds : ℕ} {nodes : List Node}
    (htape : s.tape = ⟨consumed, t, u :: v :: us⟩) (hopens : opensDefinition t.kind u.kind = true)
    (hbreak : v.kind = .newline) (hdepth : s.depth + 2 ≤ s.limits.maxDepth)
    (hlist : iterate (statementRound ⟨levels + 1, production levels⟩ bodyStops) (levels + 1) []
      (State.inBody ⟨some u, v, us⟩ { s with depth := s.depth + 2 }) = .ok nodes s')
    (hkind : s'.tape.kind = .eof) (hahead : s'.tape.ahead = []) (hlimits : s'.limits = s.limits)
    (hroom : s'.faults.size < s.limits.maxFaults)
    (hstops : ∀ k ∈ stops, closesConstruct k = true) :
    ∃ n s'', statementRound ⟨rounds + 1, production (levels + 1)⟩ stops seen s =
        .ok (.again (n :: seen)) s'' ∧
      s''.tape = s'.tape ∧ s''.faults = s'.faults.push (unclosed t (.keyword .end_) true) ∧
      s''.limits = s.limits := by
  let deeper : State := { s with depth := s.depth + 1 }
  let deepest : State := { s with depth := s.depth + 2 }
  have hhere : s.tape.kind = t.kind := congrArg Tape.kind htape
  have hword := eq_of_opensDefinition hopens
  have hleads : s.tape.kind.leads = true := by
    rw [hhere]
    obtain h | h | h := hword <;> rw [h] <;> rfl
  have hsingle : assignsSeveral 0 false false (s.tape.current :: s.tape.ahead) = false := by
    rw [htape]
    obtain h | h | h := hword <;> simp [assignsSeveral, h]
  have hparse : production (levels + 1) (.statements bodyStops)
      (State.inBody ⟨some u, v, us⟩ deepest) =
        .ok (.inner .statements (spanOfEach v.span.start nodes) nodes) s' := by
    change statements ⟨levels + 1, production levels⟩ bodyStops _ = _
    rw [statements, here, view_bind_eq, bind_eq_of_ok hlist]
    rfl
  have hbody : Fails (unclosed t (.keyword .end_) true) s'.tape s'.faults
      (body ⟨rounds + 1, production (levels + 1)⟩ t) (State.inBody ⟨some u, v, us⟩ deepest) :=
    .body hparse hlimits hkind (Nat.succ_pos _)
  have hoperand : Fails (unclosed t (.keyword .end_) true) s'.tape s'.faults
      (operand ⟨rounds + 1, production (levels + 1)⟩) deepest :=
    .operand_definition htape hbreak hbody (Nat.succ_pos _) hopens
  have hexpression : Fails (unclosed t (.keyword .end_) true) s'.tape s'.faults
      (expression ⟨rounds + 1, production (levels + 1)⟩) deeper :=
    .expression (Nat.lt_of_succ_le hdepth)
      (.range hleads (.binary (.unary hleads (.power (.chain hoperand)))))
  have hstatement : Fails (unclosed t (.keyword .end_) true) s'.tape s'.faults
      (statement ⟨rounds + 1, production (levels + 1)⟩) s :=
    .statement (Nat.lt_of_succ_lt hdepth) hsingle (.junctions (.notExpression hleads hexpression))
  have hbegins : beginsStatement s.tape.kind = true := by
    rw [hhere]
    obtain h | h | h := hword <;> rw [h] <;> rfl
  obtain ⟨n, s'', hrun, htape', hrest⟩ :=
    exists_statementRound hstatement hbegins hroom (fun _ => hahead) hstops seen
  rw [Tape.synchronize_eq hahead] at htape'
  exact ⟨n, s'', hrun, htape', hrest⟩

end RubyCheck.Grammar
