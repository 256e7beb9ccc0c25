import RubyCheck.Proofs.Arena.Phrase

/-!
# Constructs over an arena

Bodies and blocks, control flow and definitions, production by production.
-/

namespace RubyCheck.Arena

open Grammar (Round)

variable {greatest : Option ℕ} {w : Array Cell} {base : ℕ} {g : Productions} {g' : Grammar}
  {opener keyword : Token}

/-- The separator of a keyword's head is read over both kinds of tree alike and makes no node. -/
lemma Exact.separator (doMayStand : Bool) :
    Exact greatest (Arena.separator keyword doMayStand) (Grammar.separator keyword doMayStand) := by
  refine Exact.kind.bind fun k => ?_
  have hother : Exact greatest
      (if doMayStand && k == .keyword .do_ then Arena.drop
        else do Arena.report ⟨.missingSeparator keyword.text, (← Arena.current).span⟩)
      (if doMayStand && k == .keyword .do_ then Grammar.drop
        else do Grammar.report ⟨.missingSeparator keyword.text, (← Grammar.current).span⟩) :=
    .ite .drop (Exact.current.bind fun _ => .report _)
  have hskip : Exact greatest
      (do Arena.skipTerminators; Functor.discard <| Arena.accept (.keyword .then_))
      (do Grammar.skipTerminators; Functor.discard <| Grammar.accept (.keyword .then_)) :=
    Exact.skipTerminators.bind fun _ => (Exact.accept _).discard
  cases k with
  | newline => exact hskip
  | eof => exact .pure ()
  | keyword word =>
    cases word with
    | then_ => exact .drop
    | _ => exact hother
  | punct mark =>
    cases mark with
    | semicolon => exact hskip
    | _ => exact hother
  | _ => exact hother

namespace Exact

/-- The `end` that closes a construct makes no node. -/
lemma expectEnd : Exact greatest (Arena.expectEnd opener) (Grammar.expectEnd opener) :=
  expectCloser _ _

/-- The bar that closes parameters makes no node. -/
lemma closingBar : Exact greatest (Arena.closingBar opener) (Grammar.closingBar opener) :=
  (check _).bind fun _ => .ite (report _) (expect _).discard

/-- Both machines see a comma behind the current token alike. -/
lemma atTargets : Exact greatest Arena.atTargets
    (Grammar.view fun s => s.tape.next.kind == .punct .comma) :=
  next.bind fun _ => pure _

/-- Both see the owner of a singleton method alike. -/
lemma atOwner : Exact greatest Arena.atOwner
    (Grammar.view fun s => Grammar.namesOwner s.tape.current s.tape.next) :=
  current.bind fun _ => next.bind fun _ => pure _

/-- The owner of a singleton method is a name and makes no node of its own. -/
lemma owner : Exact greatest Arena.owner Grammar.owner :=
  atOwner.bind fun _ => .ite (advance.bind fun _ => drop.bind fun _ => pure _) (pure _)

/-- A method's name is read alike. -/
lemma methodName : Exact greatest Arena.methodName Grammar.methodName :=
  owner.bind fun _ => kind.bind fun _ => .ite (advance.bind fun _ => pure _) fun _ _ => .refuse _

/-- Both see a further name of a constant path alike. -/
lemma atPath : Exact greatest Arena.atPath
    (Grammar.view fun s => s.tape.kind == .punct .colonColon && !s.tape.current.spaced) :=
  current.bind fun _ => pure _

/-- Repetitions that change no node. -/
lemma iterate {σ α : Type} {body : σ → Parser (Round σ α)} {body' : σ → Grammar.Parser (Round σ α)}
    (hbody : ∀ s, Exact greatest (body s) (body' s)) (rounds : ℕ) (s : σ) :
    Exact greatest (Arena.iterate body rounds s) (Grammar.iterate body' rounds s) := by
  induction rounds generalizing s with
  | zero => exact fun _ _ _ m _ _ => .exhausted fun _ => ⟨m.state, rfl⟩
  | succ rounds ih =>
    refine (hbody s).bind fun r => ?_
    cases r with
    | again s => exact ih s
    | done a => exact pure a

end Exact

namespace Matched

/-! ### Bodies -/

/-- A condition is one made node, with the separator behind it. -/
lemma condition (h : Matched greatest g g') (doMayStand : Bool) :
    Makes greatest (Arena.condition g keyword doMayStand)
      (Grammar.condition g' keyword doMayStand) := by
  intro w
  unfold Arena.condition Grammar.condition
  refine .ite ?_ ?_
  · exact (h.parse _).withholdingDo.bind fun _ _ _ _ hid =>
      (Exact.separator _).runs fun _ => .pure hid
  · exact (h.parse _).bind fun _ _ _ _ hid => (Exact.separator _).runs fun _ => .pure hid

/-- A clause is one made node over its statements. -/
lemma clause (h : Matched greatest g g') (k : NodeKind) (stops : List TokenKind) :
    Makes greatest (Arena.clause g k stops) (Grammar.clause g' k stops) := fun _ =>
  Exact.here.runs fun _ => Exact.drop.runs fun _ => (h.parse _).bind fun _ _ _ _ hid =>
    .finish (.cons hid .nil)

/-- A clause that may be missing is made in both trees or in neither. -/
lemma clauseIf (h : Matched greatest g g') (word : Keyword) (k : NodeKind) (stops : List TokenKind) :
    MakesAll greatest (Arena.clauseIf g word k stops) (Grammar.clauseIf g' word k stops) := fun w =>
  (Exact.check _).runs fun _ => .ite ((h.clause k stops).one w) (MakesAll.nil w)

/-- An `else` branch is made in both trees or in neither. -/
lemma elseBranch (h : Matched greatest g g') :
    MakesAll greatest (Arena.elseBranch g) (Grammar.elseBranch g') := h.clauseIf _ _ _

/-- A `rescue` clause is made with the same classes, variable and statements. -/
lemma rescueClause (h : Matched greatest g g') :
    Makes greatest (Arena.rescueClause g) (Grammar.rescueClause g') := by
  refine fun w => Exact.advance.runs fun keyword => Exact.here.runs fun start =>
    Exact.kind.runs fun _ => ?_
  have htarget : MakesAll greatest (do return [← assignable (← g.parse .chain)])
      (do return [← Grammar.assignable (← g'.parse .chain)]) := fun _ =>
    (h.parse .chain).bind fun _ _ _ _ hid => (Runs.assignable hid).seq fun _ _ _ _ hid =>
      .pure (.cons hid .nil)
  rw [h.rounds]
  refine Yields.either .nil (MakesAll.separated .skipBreaks (h.parse .ternary) _)
    fun _ _ _ _ hclasses => ?_
  refine .behindFinish hclasses fun _ _ _ _ hclasses => (Exact.accept _).runs fun _ => ?_
  refine htarget.either .nil fun _ _ _ hw htarget => (Exact.separator _).runs fun _ =>
    (h.parse _).bind fun _ _ _ hw' hbody => .finish ?_
  exact List.rel_append (.cons ((hclasses.grown hw).grown hw') (htarget.grown hw')) (.cons hbody .nil)

/-- All `rescue` clauses in their order. -/
lemma rescueClauses (h : Matched greatest g g') :
    MakesAll greatest (Arena.rescueClauses g) (Grammar.rescueClauses g') := by
  unfold Arena.rescueClauses Grammar.rescueClauses
  rw [h.rounds]
  refine .listing (fun w base seen seen' hseen => ?_) _
  exact (Exact.check _).runs fun _ => .ite (h.rescueClause.bind fun _ _ _ hw hid =>
    .again (.cons hid (hseen.grown hw))) (.done hseen)

/-- A body is its statements, its clauses and its branches in one order. -/
lemma body (h : Matched greatest g g') :
    MakesAll greatest (Arena.body g opener) (Grammar.body g' opener) := fun _ =>
  (h.parse _).bind fun _ _ _ _ hid => h.rescueClauses.bindAll fun _ _ _ hw hrescues =>
    (h.clauseIf _ _ _).bindAll fun _ _ _ hw' helse => (h.clauseIf _ _ _).bindAll
      fun _ _ _ hw'' hensure => Exact.expectEnd.runs fun _ =>
        .pure (.cons (((hid.grown hw).grown hw').grown hw'') (List.rel_append (List.rel_append
          ((hrescues.grown hw').grown hw'') (helse.grown hw'')) hensure))

/-! ### Blocks and anonymous functions -/

/-- The parameters between bars, in their order. -/
lemma barredParameters (h : Matched greatest g g') :
    MakesAll greatest (Arena.barredParameters g) (Grammar.barredParameters g') := by
  unfold Arena.barredParameters Grammar.barredParameters
  rw [h.rounds]
  refine .listing (fun w base seen seen' hseen => ?_) _
  refine Exact.kind.runs fun _ => .ite (.done hseen) ((h.parameter true).bind fun w' _ _ hw hid => ?_)
  have hmore := List.Forall₂.cons hid (hseen.grown hw)
  exact .unlessComma (I := fun w' => Owns greatest w' base) (.pure ()) hmore (List.rel_reverse hmore)

/-- The variables of a block, in their order. -/
lemma blockLocals (h : Matched greatest g g') :
    MakesAll greatest (Arena.blockLocals g) (Grammar.blockLocals g') := by
  have hlocal : Makes greatest Arena.blockLocal Grammar.blockLocal := fun _ =>
    (Exact.expect _).runs fun _ => (Exact.declare _).runs fun _ => .leaf
  refine fun w => (Exact.accept _).runs fun _ => ?_
  rw [h.rounds]
  exact .ite (MakesAll.separated (.pure ()) hlocal _ w) (.pure .nil)

/-- A block's parameters with its variables behind them. -/
lemma blockParameters (h : Matched greatest g g') :
    MakesAll greatest (Arena.blockParameters g) (Grammar.blockParameters g') := fun _ =>
  Exact.here.runs fun _ => (Exact.accept _).runs fun _ => .ite
    (.behindFinish .nil fun _ _ _ _ hid => .pure (.cons hid .nil)) <|
    (Exact.check _).runs fun _ => .ite
      (Exact.advance.runs fun _ => h.barredParameters.bindAll fun _ _ _ _ hparameters =>
        h.blockLocals.bindAll fun _ _ _ hw hlocals => Exact.closingBar.runs fun _ =>
          .behindFinish (List.rel_append (hparameters.grown hw) hlocals)
            fun _ _ _ _ hid => .pure (.cons hid .nil))
      (.pure .nil)

/-- The statements between braces make one node. -/
lemma bracedStatements (h : Matched greatest g g') :
    Makes greatest (Arena.bracedStatements g opener) (Grammar.bracedStatements g' opener) := fun _ =>
  (h.parse _).bind fun _ _ _ _ hid => (Exact.expectCloser _ _).runs fun _ => .pure hid

/-- A block between braces makes one node. -/
lemma braceBlock (h : Matched greatest g g') :
    Makes greatest (Arena.braceBlock g) (Grammar.braceBlock g') := fun _ =>
  Exact.advance.runs fun _ => .inScope <| .allowingDo <|
    h.blockParameters.bindAll fun _ _ _ _ hparameters => h.bracedStatements.bind
      fun _ _ _ hw hid => .finish (List.rel_append (hparameters.grown hw) (.cons hid .nil))

/-- A block behind `do` makes one node, whoever its opener is. -/
lemma doBlockBehind (h : Matched greatest g g') :
    Makes greatest (Arena.doBlockBehind g opener) (Grammar.doBlockBehind g' opener) := fun _ =>
  .inScope <| .allowingDo <| h.blockParameters.bindAll fun _ _ _ _ hparameters =>
    h.body.bindAll fun _ _ _ hw hbody => .finish (List.rel_append (hparameters.grown hw) hbody)

/-- A block behind its own `do`. -/
lemma doBlock (h : Matched greatest g g') :
    Makes greatest (Arena.doBlock g) (Grammar.doBlock g') := fun w =>
  Exact.advance.runs fun _ => h.doBlockBehind w

/-- The parameters of an anonymous function, with or without parentheses. -/
lemma lambdaParameters (h : Matched greatest g g') :
    MakesAll greatest (Arena.lambdaParameters g) (Grammar.lambdaParameters g') := fun _ =>
  Exact.here.runs fun _ => Exact.kind.runs fun _ => .ite
    (Exact.advance.runs fun _ => h.parameterList.bindAll fun _ _ _ _ hids =>
      .behindFinish hids fun _ _ _ _ hid => .pure (.cons hid .nil)) <|
    .ite (.pure .nil) <| h.bareParameters.bindAll fun _ _ _ _ hids =>
      .behindFinish hids fun _ _ _ _ hid => .pure (.cons hid .nil)

/-- The body of an anonymous function, in either of its forms. -/
lemma lambdaBody (h : Matched greatest g g') :
    MakesAll greatest (Arena.lambdaBody g) (Grammar.lambdaBody g') := by
  refine fun w => Exact.kind.runs fun k => ?_
  cases k with
  | punct mark =>
    cases mark with
    | lBrace => exact Exact.advance.runs fun _ => h.bracedStatements.one w
    | _ => exact .refuse _
  | keyword word =>
    cases word with
    | do_ => exact Exact.advance.runs fun _ => h.body w
    | _ => exact .refuse _
  | _ => exact .refuse _

/-- An anonymous function makes one node over its parameters and its body. -/
lemma lambda (h : Matched greatest g g') :
    Makes greatest (Arena.lambda g) (Grammar.lambda g') := fun _ =>
  Exact.advance.runs fun _ => .inScope <| .allowingDo <| h.lambdaParameters.bindAll
    fun _ _ _ _ hparameters => h.lambdaBody.bindAll fun _ _ _ hw hbody =>
      .finish (List.rel_append (hparameters.grown hw) hbody)

/-! ### Conditionals and loops -/

/-- What stands behind the condition of an `if` makes one node. -/
lemma branch (h : Matched greatest g g') :
    Makes greatest (Arena.branch g keyword) (Grammar.branch g' keyword) := by
  refine fun _ => (h.condition _).bind fun _ _ _ _ htest => (h.parse _).bind
    fun _ _ _ hw hbody => (Exact.check _).runs fun _ => ?_
  have hchildren := List.Forall₂.cons (htest.grown hw) (.cons hbody .nil)
  refine .ite (Exact.advance.runs fun _ => ?_) ?_
  · exact (h.parse _).nested.one.bindAll fun _ _ _ hw hids => .finish
      (List.rel_append (hchildren.imp fun _ _ hid => hid.grown hw) hids)
  · exact h.elseBranch.bindAll fun _ _ _ hw hids => .finish
      (List.rel_append (hchildren.imp fun _ _ hid => hid.grown hw) hids)

/-- An `if` makes one node over its condition and its branches. -/
lemma conditional (h : Matched greatest g g') :
    Makes greatest (Arena.conditional g) (Grammar.conditional g') := fun _ =>
  Exact.advance.runs fun _ => h.branch.bind fun _ _ _ _ hid => Exact.expectEnd.runs fun _ =>
    Exact.previous.runs fun last =>
      .relabel (φ := fun t => { t with span := ⟨t.span.start, last.span.stop⟩ }) hid
        fun _ _ _ _ _ => ⟨_, _, _, rfl, rfl⟩

/-- An `unless` makes one node in the same way. -/
lemma negatedConditional (h : Matched greatest g g') :
    Makes greatest (Arena.negatedConditional g) (Grammar.negatedConditional g') := fun _ =>
  Exact.advance.runs fun _ => (h.condition _).bind fun _ _ _ _ htest => (h.parse _).bind
    fun _ _ _ hw hbody => h.elseBranch.bindAll fun _ _ _ hw' helse => Exact.expectEnd.runs fun _ =>
      .finish (.cons ((htest.grown hw).grown hw') (.cons (hbody.grown hw') helse))

/-- The body of a loop, with the words `do` and `end` around it. -/
lemma loopBody (h : Matched greatest g g') :
    Makes greatest (Arena.loopBody g opener) (Grammar.loopBody g' opener) := fun _ =>
  (h.parse _).bind fun _ _ _ _ hid => Exact.expectEnd.runs fun _ => .pure hid

/-- A `while` or an `until` makes one node over its condition and its body. -/
lemma conditionLoop (h : Matched greatest g g') (k : NodeKind) :
    Makes greatest (Arena.conditionLoop g k) (Grammar.conditionLoop g' k) := fun _ =>
  Exact.advance.runs fun _ => (h.condition _).bind fun _ _ _ _ htest => h.loopBody.bind
    fun _ _ _ hw hbody => .finish (.cons (htest.grown hw) (.cons hbody .nil))

/-- What can be assigned to and is read as a chain. -/
lemma assignableChain (h : Matched greatest g g') :
    Makes greatest (do assignable (← g.parse .chain))
      (do Grammar.assignable (← g'.parse .chain)) := fun _ =>
  (h.parse .chain).bind fun _ _ _ _ hid => .assignable hid

/-- The variables of a `for`, one or several. -/
lemma loopTarget (h : Matched greatest g g') :
    Makes greatest (Arena.loopTarget g) (Grammar.loopTarget g') := fun w =>
  Exact.atTargets.runs fun _ => .ite (h.parse _ w) (h.assignableChain w)

/-- A `for` makes one node over its variables, its subject and its body. -/
lemma iteration (h : Matched greatest g g') :
    Makes greatest (Arena.iteration g) (Grammar.iteration g') := fun _ =>
  Exact.advance.runs fun _ => h.loopTarget.bind fun _ _ _ _ htarget =>
    (Exact.expect _).discard.runs fun _ => (h.condition _).bind fun _ _ _ hw hsource =>
      h.loopBody.bind fun _ _ _ hw' hbody => .finish (.cons ((htarget.grown hw).grown hw')
        (.cons (hsource.grown hw') (.cons hbody .nil)))

/-! ### Choice between clauses -/

/-- The statements of a clause make one node. -/
lemma clauseBody (h : Matched greatest g g') :
    Makes greatest (Arena.clauseBody g keyword) (Grammar.clauseBody g' keyword) := fun w =>
  (Exact.separator _).runs fun _ => h.parse _ w

/-- A `when` makes one node over its values and its statements. -/
lemma valueClause (h : Matched greatest g g') :
    Makes greatest (Arena.valueClause g) (Grammar.valueClause g') := by
  refine fun _ => Exact.advance.runs fun _ => Exact.here.runs fun _ => ?_
  rw [h.rounds]
  exact (MakesAll.separated .skipBreaks (h.parse .argument) _).bindAll fun _ _ _ _ hids =>
    .behindFinish hids fun _ _ _ _ hvalues => h.clauseBody.bind fun _ _ _ hw hbody =>
      .finish (.cons (hvalues.grown hw) (.cons hbody .nil))

/-- A guard is laid around a pattern that both machines own, and the result is owned. -/
lemma guarded (h : Matched greatest g g') {start : Position} {id : ℕ} {t : Node}
    (hid : Own greatest w base id t) :
    Runs greatest w base (fun w' id t => Own greatest w' base id t) (Arena.guarded g start id)
      (Grammar.guarded g' start t) := by
  refine Exact.kind.runs fun k => ?_
  cases Grammar.guardKind? k with
  | none => exact .pure hid
  | some k =>
    exact Exact.drop.runs fun _ => (h.parse _).bind fun _ _ _ hw hguard =>
      .finish (.cons (hid.grown hw) (.cons hguard .nil))

/-- An `in` makes one node over its pattern, its guard and its statements. -/
lemma patternClause (h : Matched greatest g g') :
    Makes greatest (Arena.patternClause g) (Grammar.patternClause g') := by
  refine fun _ => Exact.advance.runs fun keyword => Exact.here.runs fun start => ?_
  rw [h.rounds]
  exact (MakesAll.separated (.pure ()) (h.parse .argument) _).bindAll fun _ _ _ _ hids =>
    (Runs.arrayOf hids).seq fun _ _ _ _ hpattern => (h.guarded hpattern.2).seq
      fun _ _ _ _ hpattern => h.clauseBody.bind fun _ _ _ hw hbody =>
        .finish (.cons (hpattern.grown hw) (.cons hbody .nil))

/-- All clauses of a choice in their order, each of the kind its keyword says. -/
lemma clauses (h : Matched greatest g g') :
    MakesAll greatest (Arena.clauses g) (Grammar.clauses g') := by
  unfold Arena.clauses Grammar.clauses
  rw [h.rounds]
  refine .listing (fun w base seen seen' hseen => ?_) _
  refine Exact.kind.runs fun k => ?_
  cases k with
  | keyword word =>
    cases word with
    | when_ =>
      exact h.valueClause.bind fun _ _ _ hw hid => .again (.cons hid (hseen.grown hw))
    | in_ =>
      exact h.patternClause.bind fun _ _ _ hw hid => .again (.cons hid (hseen.grown hw))
    | _ => exact .done hseen
  | _ => exact .done hseen

/-- A `case` makes one node over its subject, its clauses and its `else`. -/
lemma choice (h : Matched greatest g g') :
    Makes greatest (Arena.choice g) (Grammar.choice g') := fun _ =>
  Exact.advance.runs fun _ => Exact.kind.runs fun _ => MakesAll.nil.either (h.parse _).one
    fun _ _ _ _ hsubject => Exact.skipTerminators.runs fun _ => h.clauses.bindAll
      fun _ _ _ hw hclauses => h.elseBranch.bindAll fun _ _ _ hw' helse => Exact.expectEnd.runs
        fun _ => .finish (List.rel_append (List.rel_append ((hsubject.grown hw).grown hw')
          (hclauses.grown hw')) helse)

/-! ### Other keywords -/

/-- A `begin` makes one node over its body. -/
lemma protectedBody (h : Matched greatest g g') :
    Makes greatest (Arena.protectedBody g) (Grammar.protectedBody g') := fun _ =>
  Exact.advance.runs fun _ => h.body.bindAll fun _ _ _ _ hids => .finish hids

/-- A jump makes one node over the arguments it has. -/
lemma jump (h : Matched greatest g g') (k : NodeKind) :
    Makes greatest (Arena.jump g k) (Grammar.jump g' k) := by
  refine fun _ => Exact.here.runs fun _ => Exact.drop.runs fun _ => Exact.atOperand.runs fun _ => ?_
  refine .ite (Exact.here.runs fun _ => ?_) (.finish .nil)
  rw [h.rounds]
  exact (MakesAll.separated .skipBreaks (h.parse .argument) _).bindAll fun _ _ _ _ hids =>
    (Runs.arrayOf hids).seq fun _ _ _ _ hid => .finish (.cons hid.2 .nil)

/-- The operand of `defined?`, in parentheses or without. -/
lemma definedOperand (h : Matched greatest g g') :
    Makes greatest (Arena.definedOperand g) (Grammar.definedOperand g') := fun _ =>
  Exact.advance.runs fun _ => (h.parse _).allowingDo.bind fun _ _ _ _ hid =>
    Exact.skipBreaks.runs fun _ => (Exact.expectCloser _ _).runs fun _ => .pure hid

/-- A `defined?` makes one node over its operand. -/
lemma definedTest (h : Matched greatest g g') :
    Makes greatest (Arena.definedTest g) (Grammar.definedTest g') := fun _ =>
  Exact.here.runs fun _ => Exact.drop.runs fun _ => (Exact.check _).runs fun _ => .ite
    (h.definedOperand.bind fun _ _ _ _ hid => .finish (.cons hid .nil))
    ((h.parse _).bind fun _ _ _ _ hid => .finish (.cons hid .nil))

/-! ### Definitions -/

/-- A method's parameters, in parentheses or without, make one node. -/
lemma methodParameters (h : Matched greatest g g') :
    Makes greatest (Arena.methodParameters g) (Grammar.methodParameters g') := by
  refine fun _ => Exact.here.runs fun _ => Exact.kind.runs fun _ => .ite ?_ (.ite ?_ ?_)
  · exact Yields.bindAll (fun w => Exact.advance.runs fun _ => h.parameterList w)
      fun _ _ _ _ hids => .finish hids
  · exact MakesAll.nil.bindAll fun _ _ _ _ hids => .finish hids
  · exact h.bareParameters.bindAll fun _ _ _ _ hids => .finish hids

/-- A method's body in either of its forms. -/
lemma methodBody (h : Matched greatest g g') :
    MakesAll greatest (Arena.methodBody g opener) (Grammar.methodBody g' opener) := by
  refine fun w => (Exact.accept _).runs fun _ => .ite (Exact.skipBreaks.runs fun _ => ?_) (h.body w)
  refine (h.parse .statement).bind fun _ _ t _ hvalue => ?_
  refine .sight (q := fun t => Pure.pure [Node.inner .statements t.span [t]]) hvalue
    fun c t' hpeek hvalue' _ => .known (fun m hnodes => node_eq (hnodes ▸ hpeek.cell)) ?_
  rw [hpeek.span]
  exact (Runs.add (.cons hvalue' .nil) _ _ _).seq (g := fun t => Pure.pure [t]) fun _ _ _ _ hid =>
    .pure (.cons hid .nil)

/-- A method makes one node over its owner, its parameters and its body. -/
lemma method (h : Matched greatest g g') :
    Makes greatest (Arena.method g) (Grammar.method g') := fun _ =>
  Exact.advance.runs fun _ => Exact.methodName.runs fun _ => .inScope <| .allowingDo <|
    h.methodParameters.bind fun _ _ _ _ hparameters => h.methodBody.bindAll fun _ _ _ hw hbody =>
      .finishNamed (.cons (hparameters.grown hw) hbody)

/-- A path of constants is one name and makes no node of its own. -/
lemma constantPath (h : Matched greatest g g') :
    Exact greatest (Arena.constantPath g) (Grammar.constantPath g') := by
  refine (Exact.accept _).bind fun outermost => (Exact.expect _).bind fun name => ?_
  unfold Arena.constantPathRest Grammar.constantPathRest
  rw [h.rounds]
  refine .iterate (fun path => Exact.atPath.bind fun _ => .ite ?_ (.pure _)) _ _
  exact Exact.drop.bind fun _ => (Exact.expect _).bind fun _ => .pure _

/-- The body of a class or a module. -/
lemma scopedBody (h : Matched greatest g g') :
    MakesAll greatest (Arena.scopedBody g opener) (Grammar.scopedBody g' opener) :=
  h.body.allowingDo.inScope

/-- A class makes one node over its superclass and its body. -/
lemma classDefinition (h : Matched greatest g g') :
    Makes greatest (Arena.classDefinition g) (Grammar.classDefinition g') := by
  refine fun _ => Exact.advance.runs fun _ => (Exact.accept _).runs fun _ => .ite ?_ ?_
  · exact (h.parse _).bind fun _ _ _ _ htarget => h.scopedBody.bindAll fun _ _ _ hw hbody =>
      .finish (.cons (htarget.grown hw) hbody)
  · exact h.constantPath.runs fun _ => (Exact.accept _).runs fun _ =>
      (h.parse _).one.either .nil fun _ _ _ _ hparent => h.scopedBody.bindAll
        fun _ _ _ hw hbody => .finishNamed (List.rel_append (hparent.grown hw) hbody)

/-- A module makes one node over its body. -/
lemma moduleDefinition (h : Matched greatest g g') :
    Makes greatest (Arena.moduleDefinition g) (Grammar.moduleDefinition g') := fun _ =>
  Exact.advance.runs fun _ => h.constantPath.runs fun _ => h.scopedBody.bindAll
    fun _ _ _ _ hbody => .finishNamed hbody

end Matched

/-- The name of a method after `alias` or `undef` is one leaf. -/
lemma Makes.methodReference : Makes greatest Arena.methodReference Grammar.methodReference :=
  fun w => Exact.kind.runs fun _ => .ite (Makes.takeLeaf w) <| .ite (Makes.symbol w) <|
    .ite (Makes.takeLeaf w) (.refuse _)

/-- An `alias` makes one node over its two names. -/
lemma Makes.alias_ : Makes greatest Arena.alias_ Grammar.alias_ := fun _ =>
  Exact.here.runs fun _ => Exact.drop.runs fun _ => Makes.methodReference.bind
    fun _ _ _ _ hnew => Makes.methodReference.bind fun _ _ _ hw hold =>
      .finish (.cons (hnew.grown hw) (.cons hold .nil))

namespace Matched

/-- An `undef` makes one node over its names. -/
lemma undef (h : Matched greatest g g') :
    Makes greatest (Arena.undef g) (Grammar.undef g') := by
  refine fun _ => Exact.here.runs fun _ => Exact.drop.runs fun _ => ?_
  rw [h.rounds]
  exact (MakesAll.separated (.pure ()) .methodReference _).bindAll fun _ _ _ _ hids => .finish hids

/-- A `BEGIN` or an `END` makes one node over its statements. -/
lemma hook (h : Matched greatest g g') (k : NodeKind) :
    Makes greatest (Arena.hook g k) (Grammar.hook g' k) := fun _ =>
  Exact.advance.runs fun _ => (Exact.expect _).runs fun _ =>
    (h.parse _).allowingDo.inScope.bind fun _ _ _ _ hid => (Exact.expectCloser _ _).runs
      fun _ => .finish (.cons hid .nil)

end Matched

end RubyCheck.Arena
