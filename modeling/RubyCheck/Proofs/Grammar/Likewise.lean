import RubyCheck.Proofs.Grammar.Alike

/-!
# Every production reads texts that are alike in the same way

Goal by goal: if the goals inside a production are read alike, so is the production.  Whether a token is
set off is looked at behind a token only, where the tapes have settled, and the text of a token is taken
only where its kind was looked at before.
-/

namespace RubyCheck.Grammar

/-- The same goal in both texts. -/
inductive Goal.Like (L : Likeness) : Goal → Goal → Prop
  | statements (stops : List TokenKind) : Like L (.statements stops) (.statements stops)
  | statement : Like L .statement .statement
  | expressionStatement : Like L .expressionStatement .expressionStatement
  | notExpression : Like L .notExpression .notExpression
  | expression : Like L .expression .expression
  | ternary : Like L .ternary .ternary
  | binary (level : Level) : Like L (.binary level) (.binary level)
  | unary : Like L .unary .unary
  | chain : Like L .chain .chain
  | targets (closer : Option TokenKind) : Like L (.targets closer) (.targets closer)
  | argument : Like L .argument .argument
  | parameter (inBlock : Bool) : Like L (.parameter inBlock) (.parameter inBlock)
  | branch {keyword keyword' : Token} (h : keyword.Taken L keyword') :
      Like L (.branch keyword) (.branch keyword')

/-- The goals inside a production are read alike, wherever they are asked for. -/
structure Likewise (L : Likeness) (g : Grammar) : Prop where
  parse {goal goal' : Goal} (h : goal.Like L goal') {b : Bool} :
    Alike L false b b (Node.Like L) (g.parse goal) (g.parse goal')

namespace Likewise

variable {L : Likeness} {g : Grammar} {solid b : Bool} {opener opener' keyword keyword' : Token}
  {start start' : Position} {node node' left left' : Node} {nodes nodes' seen seen' : List Node}

/-! ### Arguments -/

/-- Arguments in parentheses: the openers are alike, and so are the items behind them. -/
lemma parenArguments (h : Likewise L g) :
    Alike L true b true (Node.Like L) g.parenArguments g.parenArguments :=
  .advance fun _ _ ho => .bind (.allowingDo (.items ho (h.parse .argument))) fun _ _ hnodes =>
    .finish ho.span.start hnodes

/-- Arguments without parentheses. -/
lemma commandArguments (h : Likewise L g) :
    Alike L solid b b (Node.Like L) g.commandArguments g.commandArguments :=
  .here fun _ _ hstart =>
    .bind (.withholdingDo (.separated .skipBreaks (h.parse .argument) _)) fun _ _ hnodes =>
      .finish hstart hnodes

/-- A parenthesis opens arguments in both texts or in neither. -/
lemma opensArguments_eq {s s' : State} (h : s.Like L true s') :
    opensArguments s'.tape.current = opensArguments s.tape.current := by
  have hcurrent := h.tape.current_same
  rw [opensArguments, opensArguments, hcurrent.kind, hcurrent.spaced]

/-- A token begins an argument in both texts or in neither. -/
lemma beginsArgument_eq {s s' : State} (h : s.Like L true s') :
    beginsArgument s'.tape.current s'.tape.next = beginsArgument s.tape.current s.tape.next := by
  have hcurrent := h.tape.current_same
  have hnext := h.tape.next_same
  unfold beginsArgument
  rw [hcurrent.kind, hcurrent.spaced, hnext.spaced]

/-- A parenthesis that opens arguments breaks no line. -/
lemma isSolid_of_opensArguments (s : State) (h : opensArguments s.tape.current = true) :
    s.tape.kind.isSolid = true := by
  rw [Tape.kind, kind_of_opensArguments h]
  rfl

/-- The arguments behind a name; whether they are set off is seen where the tapes have settled. -/
lemma callArguments (h : Likewise L g) :
    Alike L solid true true (List.Forall₂ (Node.Like L)) g.callArguments g.callArguments := by
  refine .ifSeen (fun _ _ => opensArguments_eq) isSolid_of_opensArguments h.parenArguments.one ?_
  exact .same (fun _ _ => beginsArgument_eq) fun _ => .ite h.commandArguments.one (.pure .nil)

/-- A bare name is a variable in both texts or in neither. -/
lemma bareName (h : Likewise L g) :
    Alike L true b true (Node.Like L) g.bareName g.bareName := by
  refine .here fun _ _ hstart => .advance fun _ _ ht => .same (fun _ _ hs => ?_) fun _ =>
    .ite (.leaf ht.word) (.bind h.callArguments fun _ _ hnodes => .finishNamed hstart ht.word hnodes)
  rw [ht.text, hs.isLocal_eq, opensArguments_eq hs]

/-- A constant is called in both texts or in neither. -/
lemma constant (h : Likewise L g) : Alike L true b true (Node.Like L) g.constant g.constant :=
  .here fun _ _ hstart => .advance fun _ _ ht =>
    .ifSeen (fun _ _ => opensArguments_eq) isSolid_of_opensArguments
      (.bind h.parenArguments fun _ _ hnode => .finishNamed hstart ht.word (.cons hnode .nil))
      (.leaf ht.word)

/-- A keyword and its arguments. -/
lemma keywordCall (h : Likewise L g) {k : NodeKind} :
    Alike L solid b true (Node.Like L) (g.keywordCall k) (g.keywordCall k) :=
  .here fun _ _ hstart => .behind .drop (.bind h.callArguments fun _ _ hnodes =>
    .finish hstart hnodes)

/-- A label has its value behind it in both texts or in neither. -/
lemma labelPair (h : Likewise L g) : Alike L true b true (Node.Like L) g.labelPair g.labelPair := by
  refine .here fun _ _ hstart => .advance fun _ _ ht => ?_
  have hname := ht.word.labelName
  refine .bind (.leaf hname) fun _ _ hkey => .kind fun _ => .ite ?_ ?_
  · refine .same (fun _ _ hs => ?_) fun _ => .bind (.leaf hname) fun _ _ hvalue =>
      .finish hstart (.cons hkey (.cons hvalue .nil))
    rw [hname.eq, hs.isLocal_eq]
  · exact .bind (h.parse .expression).anywhere fun _ _ hvalue =>
      .finish hstart (.cons hkey (.cons hvalue .nil))

/-! ### Bodies -/

/-- A condition, and the separator that is missing in both texts or in neither. -/
lemma condition (h : Likewise L g) (hkeyword : keyword.Taken L keyword') (doMayStand : Bool) :
    Alike L false b b (Node.Like L) (g.condition keyword doMayStand)
      (g.condition keyword' doMayStand) := by
  have hbehind {node node' : Node} (hnode : node.Like L node') : Alike L false b b (Node.Like L)
      (do Grammar.separator keyword doMayStand; return node)
      (do Grammar.separator keyword' doMayStand; return node') :=
    .behind (.separator hkeyword _) (.pure hnode)
  unfold Grammar.condition
  exact .ite (.bind (.withholdingDo (h.parse .expressionStatement)) fun _ _ => hbehind)
    (.bind (h.parse .expressionStatement) fun _ _ => hbehind)

/-- A keyword and the statements behind it. -/
lemma clause (h : Likewise L g) (k : NodeKind) (stops : List TokenKind) :
    Alike L solid b true (Node.Like L) (g.clause k stops) (g.clause k stops) :=
  .here fun _ _ hstart => .behind .drop (.bind (h.parse (.statements stops)) fun _ _ hnode =>
    .finish hstart (.cons hnode .nil))

/-- A clause stands here in both texts or in neither. -/
lemma clauseIf (h : Likewise L g) (word : Keyword) (k : NodeKind) (stops : List TokenKind) :
    Alike L solid b b (List.Forall₂ (Node.Like L)) (g.clauseIf word k stops)
      (g.clauseIf word k stops) :=
  .ifCheck rfl (h.clause _ _).weaken.one (.pure .nil)

/-- An `else` stands here in both texts or in neither. -/
lemma elseBranch (h : Likewise L g) :
    Alike L solid b b (List.Forall₂ (Node.Like L)) g.elseBranch g.elseBranch := h.clauseIf _ _ _

/-- A `rescue` with classes and a variable in both texts, or without them in both. -/
lemma rescueClause (h : Likewise L g) :
    Alike L true b true (Node.Like L) g.rescueClause g.rescueClause := by
  refine .advance fun keyword keyword' hkeyword => .here fun start start' hstart => .kind fun _ => ?_
  have hbody {classes classes' : Node} {target target' : List Node} (hclasses : classes.Like L classes')
      (htarget : List.Forall₂ (Node.Like L) target target') : Alike L false true true (Node.Like L)
      (do
        Grammar.separator keyword false
        let body ← g.parse (.statements bodyStops)
        Grammar.finish .rescueClause keyword.span.start (classes :: target ++ [body]))
      (do
        Grammar.separator keyword' false
        let body ← g.parse (.statements bodyStops)
        Grammar.finish .rescueClause keyword'.span.start (classes' :: target' ++ [body])) :=
    .behind (.separator hkeyword _) (.bind (h.parse (.statements _)) fun _ _ hnode =>
      .finish hkeyword.span.start (List.rel_append (.cons hclasses htarget) (.cons hnode .nil)))
  have hbehind {classes classes' : List Node} (hclasses : List.Forall₂ (Node.Like L) classes classes') :
      Alike L false true true (Node.Like L)
      (do
        let classes ← Grammar.finish .arguments start classes
        let target ←
          if ← Grammar.accept (.punct .fatArrow) then
            (do return [← Grammar.assignable (← g.parse .chain)])
          else pure []
        Grammar.separator keyword false
        let body ← g.parse (.statements bodyStops)
        Grammar.finish .rescueClause keyword.span.start (classes :: target ++ [body]))
      (do
        let classes ← Grammar.finish .arguments start' classes'
        let target ←
          if ← Grammar.accept (.punct .fatArrow) then
            (do return [← Grammar.assignable (← g.parse .chain)])
          else pure []
        Grammar.separator keyword' false
        let body ← g.parse (.statements bodyStops)
        Grammar.finish .rescueClause keyword'.span.start (classes :: target ++ [body])) := by
    refine .bind (.finish hstart hclasses) fun _ _ hclasses => .ifAccept ?_ ?_
    · exact .bind (.bind (h.parse .chain) fun _ _ hnode => .one (.assignable hnode)) fun _ _ =>
        hbody hclasses
    · exact .bind (.pure .nil) fun _ _ => hbody hclasses
  exact .ite (.bind (.pure .nil) fun _ _ => hbehind)
    (.bind (.separated .skipBreaks (h.parse .ternary) _) fun _ _ => hbehind)

/-- As many `rescue` clauses in both texts. -/
lemma rescueClauses (h : Likewise L g) :
    Alike L solid b b (List.Forall₂ (Node.Like L)) g.rescueClauses g.rescueClauses :=
  .listing (fun _ _ hseen => .ifCheck rfl (.again hseen h.rescueClause.weaken) (.done hseen)) _

/-- A body whose openers are alike. -/
lemma body (h : Likewise L g) (hopener : opener.Taken L opener') :
    Alike L solid b true (List.Forall₂ (Node.Like L)) (g.body opener) (g.body opener') :=
  .bind (h.parse (.statements _)).anywhere fun _ _ hnode => .bind h.rescueClauses fun _ _ hrescues =>
    .bind (h.clauseIf _ _ _) fun _ _ helse => .bind (h.clauseIf _ _ _) fun _ _ hensure =>
      .behind (.expectEnd hopener)
        (.pure (.cons hnode (List.rel_append (List.rel_append hrescues helse) hensure)))

/-! ### Parameters and blocks -/

/-- A default value. -/
lemma defaultValue (h : Likewise L g) (inBlock : Bool) :
    Alike L false b b (Node.Like L) (g.defaultValue inBlock) (g.defaultValue inBlock) := by
  cases inBlock with
  | false => exact h.parse .ternary
  | true => exact h.parse .unary

/-- The parameters behind parentheses that are alike. -/
lemma parameterList (h : Likewise L g) (hopener : opener.Taken L opener') :
    Alike L solid b b (List.Forall₂ (Node.Like L)) (g.parameterList opener)
      (g.parameterList opener') :=
  .items hopener (h.parse (.parameter false))

/-- A parameter behind a star has a name in both texts or in neither. -/
lemma spreadParameter (hstart : L.start start start') : Alike L solid b true (Node.Like L)
    (do
      Grammar.drop
      if ← Grammar.check .identifier then
        let name := (← Grammar.advance).text
        Grammar.declare name
        Grammar.finishNamed .parameter start name []
      else Grammar.finishNamed .parameter start "" [])
    (do
      Grammar.drop
      if ← Grammar.check .identifier then
        let name := (← Grammar.advance).text
        Grammar.declare name
        Grammar.finishNamed .parameter start' name []
      else Grammar.finishNamed .parameter start' "" []) := by
  refine .behind .drop (.ifCheck rfl ?_ (.finishNamed hstart (.of_oneLine (by decide)) .nil))
  exact .advance fun _ _ ht => .behind (.declare ht.word) (.finishNamed hstart ht.word .nil)

/-- A parameter is of the same form in both texts. -/
lemma parameter (h : Likewise L g) (inBlock : Bool) :
    Alike L solid b true (Node.Like L) (g.parameter inBlock) (g.parameter inBlock) := by
  refine .here fun start start' hstart => .kind fun _ => ?_
  have hvalue : Alike L false true true (List.Forall₂ (Node.Like L))
      (do return [← g.defaultValue inBlock]) (do return [← g.defaultValue inBlock]) :=
    .one (h.defaultValue inBlock)
  split
  · refine .advance fun _ _ ht => .behind (.declare ht.word) (.ifAccept ?_ ?_)
    · exact .bind hvalue fun _ _ hnodes => .finishNamed hstart ht.word hnodes
    · exact .bind (.pure .nil) fun _ _ hnodes => .finishNamed hstart ht.word hnodes
  · refine .advance fun _ _ ht => ?_
    have hname := ht.word.labelName
    refine .behind (.declare hname) (.kind fun _ => .ite ?_ ?_)
    · exact .bind (.pure .nil) fun _ _ hnodes => .finishNamed hstart hname hnodes
    · exact .bind hvalue.anywhere fun _ _ hnodes => .finishNamed hstart hname hnodes
  · exact spreadParameter hstart
  · exact spreadParameter hstart
  · exact spreadParameter hstart
  · exact .takeAs (by decide)
  · exact .advance fun _ _ ho => .bind (h.parameterList ho) fun _ _ hnodes => .finish hstart hnodes
  · exact .refuse (by decide)

/-- As many parameters without parentheses in both texts. -/
lemma bareParameters (h : Likewise L g) :
    Alike L solid b b (List.Forall₂ (Node.Like L)) g.bareParameters g.bareParameters :=
  .separated (.pure trivial) (h.parameter _).weaken _

/-- As many parameters between bars in both texts. -/
lemma barredParameters (h : Likewise L g) :
    Alike L solid b b (List.Forall₂ (Node.Like L)) g.barredParameters g.barredParameters := by
  refine .listing (fun _ _ hseen => ?_) _
  refine .kind fun _ => .ite (.done hseen) ?_
  refine .bind (c := b) (h.parameter true).weaken fun _ _ hnode => ?_
  exact .unlessComma (.cons hnode hseen) (.pure trivial)

/-- As many variables of a block in both texts. -/
lemma blockLocals :
    Alike L solid b b (List.Forall₂ (Node.Like L)) g.blockLocals g.blockLocals :=
  .ifAccept (.separated (.pure trivial) Alike.blockLocal.weaken _) (.pure .nil)

/-- The parameters and variables of a block. -/
lemma blockParameters (h : Likewise L g) :
    Alike L solid b b (List.Forall₂ (Node.Like L)) g.blockParameters g.blockParameters := by
  refine .here fun _ _ hstart => .ifAccept (.one (.finish hstart .nil)) (.ifCheck rfl ?_ (.pure .nil))
  refine .weaken (.advance fun _ _ ho => .bind h.barredParameters fun _ _ hparameters =>
    .bind blockLocals fun _ _ hlocals => .behind (.closingBar ho) ?_)
  exact .one (.finish hstart (List.rel_append hparameters hlocals))

/-- Statements between braces that are alike. -/
lemma bracedStatements (h : Likewise L g) (hopener : opener.Taken L opener') :
    Alike L solid b true (Node.Like L) (g.bracedStatements opener) (g.bracedStatements opener') :=
  .bind (h.parse (.statements _)).anywhere fun _ _ hnode =>
    .behind (.expectCloser hopener rfl) (.pure hnode)

/-- A block between braces. -/
lemma braceBlock (h : Likewise L g) :
    Alike L true b true (Node.Like L) g.braceBlock g.braceBlock :=
  .advance fun _ _ ho => .inScope _ <| .allowingDo <| .bind h.blockParameters fun _ _ hparameters =>
    .bind (h.bracedStatements ho) fun _ _ hnode =>
      .finish ho.span.start (List.rel_append hparameters (.cons hnode .nil))

/-- A block behind tokens that are alike. -/
lemma doBlockBehind (h : Likewise L g) (hopener : opener.Taken L opener') :
    Alike L solid b true (Node.Like L) (g.doBlockBehind opener) (g.doBlockBehind opener') :=
  .inScope _ <| .allowingDo <| .bind h.blockParameters fun _ _ hparameters =>
    .bind (h.body hopener) fun _ _ hbody =>
      .finish hopener.span.start (List.rel_append hparameters hbody)

/-- A block behind `do`. -/
lemma doBlock (h : Likewise L g) : Alike L true b true (Node.Like L) g.doBlock g.doBlock :=
  .advance fun _ _ ho => h.doBlockBehind ho

/-- The parameters of an anonymous function, in parentheses in both texts or in neither. -/
lemma lambdaParameters (h : Likewise L g) :
    Alike L solid b b (List.Forall₂ (Node.Like L)) g.lambdaParameters g.lambdaParameters := by
  refine .here fun _ _ hstart => .kind fun k => ?_
  by_cases hparen : (k == .punct .lParen) = true
  · obtain rfl := beq_iff_eq.mp hparen
    exact .weaken (.advance fun _ _ ho => .bind (h.parameterList ho) fun _ _ hnodes =>
      .one (.finish hstart hnodes))
  · rw [if_neg hparen, if_neg hparen]
    exact .ite (.pure .nil) (.bind h.bareParameters fun _ _ hnodes => .one (.finish hstart hnodes))

/-- The body of an anonymous function, in braces in both texts or in neither. -/
lemma lambdaBody (h : Likewise L g) :
    Alike L solid b true (List.Forall₂ (Node.Like L)) g.lambdaBody g.lambdaBody := by
  refine .kind fun _ => ?_
  split
  · exact .advance fun _ _ ho => (h.bracedStatements ho).one
  · exact .advance fun _ _ ho => h.body ho
  · exact .refuse (by decide)

/-- An anonymous function. -/
lemma lambda (h : Likewise L g) : Alike L true b true (Node.Like L) g.lambda g.lambda :=
  .advance fun _ _ ho => .inScope _ <| .allowingDo <| .bind h.lambdaParameters
    fun _ _ hparameters => .bind h.lambdaBody fun _ _ hbody =>
      .finish ho.span.start (List.rel_append hparameters hbody)

/-! ### Control flow -/

/-- A branch behind keywords that are alike; the keyword of the next branch is one of them. -/
lemma branch (h : Likewise L g) (hkeyword : keyword.Taken L keyword') :
    Alike L solid b b (Node.Like L) (g.branch keyword) (g.branch keyword') := by
  refine .bind (h.condition hkeyword _).anywhere fun _ _ htest =>
    .bind (h.parse (.statements _)) fun _ _ hbody => .ifCheck rfl ?_ ?_
  · exact .weaken (.advance fun _ _ hk => .bind (.one (.nested (h.parse (.branch hk))))
      fun _ _ hnodes => .finish hkeyword.span.start (.cons htest (.cons hbody hnodes)))
  · exact .bind h.elseBranch fun _ _ hnodes =>
      .finish hkeyword.span.start (.cons htest (.cons hbody hnodes))

/-- An `if`, which begins where its keyword does. -/
lemma conditional (h : Likewise L g) :
    Alike L true b true (Node.Like L) g.conditional g.conditional :=
  .advance fun _ _ ho => .bind (h.branch ho) fun _ _ hnode => .behind (.expectEnd ho)
    (.previous fun _ _ hlast => .pure (hnode.withSpan ⟨hnode.span.start, hlast.span.stop⟩))

/-- An `unless`. -/
lemma negatedConditional (h : Likewise L g) :
    Alike L true b true (Node.Like L) g.negatedConditional g.negatedConditional :=
  .advance fun _ _ ho => .bind (h.condition ho _) fun _ _ htest =>
    .bind (h.parse (.statements _)) fun _ _ hbody => .bind h.elseBranch fun _ _ hnodes =>
      .behind (.expectEnd ho) (.finish ho.span.start (.cons htest (.cons hbody hnodes)))

/-- The body of a loop whose openers are alike. -/
lemma loopBody (h : Likewise L g) (hopener : opener.Taken L opener') :
    Alike L solid b true (Node.Like L) (g.loopBody opener) (g.loopBody opener') :=
  .bind (h.parse (.statements _)).anywhere fun _ _ hnode =>
    .behind (.expectEnd hopener) (.pure hnode)

/-- A `while` or `until`. -/
lemma conditionLoop (h : Likewise L g) (k : NodeKind) :
    Alike L true b true (Node.Like L) (g.conditionLoop k) (g.conditionLoop k) :=
  .advance fun _ _ ho => .bind (h.condition ho _) fun _ _ htest => .bind (h.loopBody ho)
    fun _ _ hbody => .finish ho.span.start (.cons htest (.cons hbody .nil))

/-- The variables of a `for`: one or several in both texts. -/
lemma loopTarget (h : Likewise L g) :
    Alike L solid b b (Node.Like L) g.loopTarget g.loopTarget := by
  refine .same (fun _ _ hs => ?_) fun _ => .ite (h.parse (.targets none)).anywhere
    (.bind (h.parse .chain).anywhere fun _ _ hnode => .assignable hnode)
  rw [hs.tape.next.kind]

/-- A `for`. -/
lemma iteration (h : Likewise L g) :
    Alike L true b true (Node.Like L) g.iteration g.iteration :=
  .advance fun _ _ ho => .bind h.loopTarget fun _ _ htarget => .behind (.discardExpect rfl)
    (.bind (h.condition ho _) fun _ _ hsource => .bind (h.loopBody ho) fun _ _ hbody =>
      .finish ho.span.start (.cons htarget (.cons hsource (.cons hbody .nil))))

/-- What stands in a clause whose keywords are alike. -/
lemma clauseBody (h : Likewise L g) (hkeyword : keyword.Taken L keyword') :
    Alike L solid b b (Node.Like L) (g.clauseBody keyword) (g.clauseBody keyword') :=
  .behind (.separator hkeyword _) (h.parse (.statements _))

/-- A `when`. -/
lemma valueClause (h : Likewise L g) :
    Alike L true b true (Node.Like L) g.valueClause g.valueClause :=
  .advance fun _ _ hk => .here fun _ _ hstart =>
    .bind (.separated .skipBreaks (h.parse .argument) _) fun _ _ hnodes =>
      .bind (.finish hstart hnodes) fun _ _ hvalues => .bind (h.clauseBody hk) fun _ _ hbody =>
        .finish hk.span.start (.cons hvalues (.cons hbody .nil))

/-- A pattern has a guard in both texts or in neither. -/
lemma guarded (h : Likewise L g) (hstart : L.start start start') (hnode : node.Like L node') :
    Alike L solid b b (Node.Like L) (g.guarded start node) (g.guarded start' node') := by
  refine .kind fun _ => ?_
  split
  · exact .weaken (.behind .drop (.bind (h.parse .expression) fun _ _ hguard =>
      .finish hstart (.cons hnode (.cons hguard .nil))))
  · exact .pure hnode

/-- An `in`. -/
lemma patternClause (h : Likewise L g) :
    Alike L true b true (Node.Like L) g.patternClause g.patternClause :=
  .advance fun _ _ hk => .here fun _ _ hstart =>
    .bind (.separated (.pure trivial) (h.parse .argument) _) fun _ _ hnodes =>
      .bind (.arrayOf hstart hnodes) fun _ _ hpattern => .bind (h.guarded hstart hpattern)
        fun _ _ hpattern => .bind (h.clauseBody hk) fun _ _ hbody =>
          .finish hk.span.start (.cons hpattern (.cons hbody .nil))

/-- As many clauses in both texts. -/
lemma clauses (h : Likewise L g) :
    Alike L solid b b (List.Forall₂ (Node.Like L)) g.clauses g.clauses := by
  refine .listing (fun _ _ hseen => ?_) _
  refine .kind fun _ => ?_
  split
  · exact .again hseen h.valueClause.weaken
  · exact .again hseen h.patternClause.weaken
  · exact .done hseen

/-- A `case` has a subject in both texts or in neither. -/
lemma choice (h : Likewise L g) : Alike L true b true (Node.Like L) g.choice g.choice := by
  refine .advance fun opener opener' ho => .kind fun _ => ?_
  have hbehind {subject subject' : List Node} (hsubject : List.Forall₂ (Node.Like L) subject subject') :
      Alike L false true true (Node.Like L)
      (do
        Grammar.skipTerminators
        let clauses ← Grammar.clauses g
        let otherwise ← Grammar.elseBranch g
        Grammar.expectEnd opener
        Grammar.finish .case_ opener.span.start (subject ++ clauses ++ otherwise))
      (do
        Grammar.skipTerminators
        let clauses ← Grammar.clauses g
        let otherwise ← Grammar.elseBranch g
        Grammar.expectEnd opener'
        Grammar.finish .case_ opener'.span.start (subject' ++ clauses ++ otherwise)) :=
    .behind .skipTerminators (.bind h.clauses fun _ _ hclauses => .bind h.elseBranch
      fun _ _ helse => .behind (.expectEnd ho) (.finish ho.span.start
        (List.rel_append (List.rel_append hsubject hclauses) helse)))
  exact .ite (.bind (.pure .nil) fun _ _ => hbehind)
    (.bind (.one (h.parse .expressionStatement).anywhere) fun _ _ => hbehind)

/-- A `begin`. -/
lemma protectedBody (h : Likewise L g) :
    Alike L true b true (Node.Like L) g.protectedBody g.protectedBody :=
  .advance fun _ _ ho => .bind (h.body ho) fun _ _ hbody => .finish ho.span.start hbody

/-- Whether an operand begins here is seen alike. -/
lemma ifAtOperand {α : Type} {V : α → α → Prop} {c : Bool} {p p' q q' : Parser α}
    (hp : Alike L solid b c V p p') (hq : Alike L solid b c V q q') :
    Alike L solid b c V (Grammar.atOperand >>= fun begins => if begins = true then p else q)
      (Grammar.atOperand >>= fun begins => if begins = true then p' else q') :=
  .same (fun _ _ hs => by rw [hs.tape.kind_eq]) fun _ => .ite hp hq

/-- A keyword that leaves a construct with as many values in both texts. -/
lemma jump (h : Likewise L g) (k : NodeKind) :
    Alike L solid b true (Node.Like L) (g.jump k) (g.jump k) :=
  .here fun _ _ hstart => .behind .drop (ifAtOperand
    (.here fun _ _ hvalues => .bind (.separated .skipBreaks (h.parse .argument) _)
      fun _ _ hnodes => .bind (.arrayOf hvalues hnodes) fun _ _ hnode =>
        .finish hstart (.cons hnode .nil))
    (.finish hstart .nil))

/-- What is tested between parentheses. -/
lemma definedOperand (h : Likewise L g) :
    Alike L true b true (Node.Like L) g.definedOperand g.definedOperand :=
  .advance fun _ _ ho => .bind (.allowingDo (h.parse .expressionStatement)) fun _ _ hnode =>
    .behind .skipBreaks (.behind (.expectCloser ho rfl) (.pure hnode))

/-- A `defined?`, with parentheses in both texts or in neither. -/
lemma definedTest (h : Likewise L g) :
    Alike L solid b true (Node.Like L) g.definedTest g.definedTest :=
  .here fun _ _ hstart => .behind .drop (.ifCheck rfl
    (.bind h.definedOperand fun _ _ hnode => .finish hstart (.cons hnode .nil))
    (.bind (h.parse .unary) fun _ _ hnode => .finish hstart (.cons hnode .nil)))

/-! ### Literals -/

/-- Code inside a literal. -/
lemma interpolation (h : Likewise L g) :
    Alike L solid b true (Node.Like L) g.interpolation g.interpolation :=
  .here fun _ _ hstart => .behind .drop (.bind (.allowingDo (h.parse (.statements _)))
    fun _ _ hnode => .behind (.discardExpect rfl) (.finish hstart (.cons hnode .nil)))

/-- The text of a literal and the code in it in both texts. -/
structure LikePieces (L : Likeness) (pieces pieces' : String × List Node) : Prop where
  text : L.Text pieces.1 pieces'.1
  code : List.Forall₂ (Node.Like L) pieces.2 pieces'.2

/-- A piece of a literal is content, code or the end in both texts. -/
lemma piece (h : Likewise L g) {pieces pieces' : String × List Node}
    (hpieces : LikePieces L pieces pieces') :
    Alike L solid b true (Round.Like (LikePieces L) (LikePieces L)) (g.piece pieces)
      (g.piece pieces') := by
  refine .kind fun _ => ?_
  split
  · exact .advance fun _ _ ht => .pure (.again ⟨hpieces.text.append ht.word, hpieces.code⟩)
  · exact .bind h.interpolation fun _ _ hnode =>
      .pure (.again ⟨hpieces.text, .cons hnode hpieces.code⟩)
  · exact .behind .drop (.pure (.done ⟨hpieces.text, List.rel_reverse hpieces.code⟩))
  · exact .refuse (by decide)

/-- A literal has code inside in both texts or in neither. -/
lemma quoted (h : Likewise L g) (k : NodeKind) :
    Alike L solid b true (Node.Like L) (g.quoted k) (g.quoted k) := by
  refine .here fun _ _ hstart => .behind .drop (.bind
    (.iterate (fun _ _ hpieces => (h.piece hpieces).weaken) _
      ⟨.of_oneLine (by decide), .nil⟩) fun pieces pieces' hpieces => ?_)
  obtain ⟨content, code⟩ := pieces
  obtain ⟨content', code'⟩ := pieces'
  have hcode : List.Forall₂ (Node.Like L) code code' := hpieces.code
  cases hcode with
  | nil => exact .finishNamed hstart hpieces.text .nil
  | cons hnode hnodes => exact .finish hstart (.cons hnode hnodes)

/-- An array. -/
lemma array (h : Likewise L g) : Alike L true b true (Node.Like L) g.array g.array :=
  .advance fun _ _ ho => .bind (.allowingDo (.items ho (h.parse .argument))) fun _ _ hnodes =>
    .finish ho.span.start hnodes

/-- A pair of a hash is of the same form in both texts. -/
lemma hashItem (h : Likewise L g) : Alike L solid b b (Node.Like L) g.hashItem g.hashItem := by
  refine .here fun _ _ hstart => .kind fun _ => ?_
  split
  · exact h.labelPair.weaken
  · exact .weaken (.behind .drop (.bind (h.parse .ternary) fun _ _ hnode =>
      .finish hstart (.cons hnode .nil)))
  · exact .bind (h.parse .expression).anywhere fun _ _ hkey => .weaken <|
      .behind (.discardExpect rfl) (.behind .skipBreaks (.bind (h.parse .expression)
        fun _ _ hvalue => .finish hstart (.cons hkey (.cons hvalue .nil))))

/-- A hash. -/
lemma hash (h : Likewise L g) : Alike L true b true (Node.Like L) g.hash g.hash :=
  .advance fun _ _ ho => .bind (.allowingDo (.items ho h.hashItem)) fun _ _ hnodes =>
    .finish ho.span.start hnodes

/-- Statements in parentheses. -/
lemma paren (h : Likewise L g) : Alike L true b true (Node.Like L) g.paren g.paren :=
  .advance fun _ _ ho => .bind (.allowingDo (h.parse (.statements _))) fun _ _ hnode =>
    .behind (.expectCloser ho rfl) (.finish ho.span.start (.cons hnode .nil))

/-! ### Definitions -/

/-- The parameters of a method, in parentheses in both texts or in neither. -/
lemma methodParameters (h : Likewise L g) :
    Alike L solid b b (Node.Like L) g.methodParameters g.methodParameters := by
  refine .here fun start start' hstart => .kind fun k => ?_
  by_cases hparen : (k == .punct .lParen) = true
  · obtain rfl := beq_iff_eq.mp hparen
    exact .weaken (.bind (.advance fun _ _ ho => h.parameterList ho) fun _ _ hnodes =>
      .finish hstart hnodes)
  · rw [if_neg hparen, if_neg hparen]
    exact .ite (.bind (.pure .nil) fun _ _ hnodes => .finish hstart hnodes)
      (.bind h.bareParameters fun _ _ hnodes => .finish hstart hnodes)

/-- The body of a method, or the statement that it is, in both texts. -/
lemma methodBody (h : Likewise L g) (hopener : opener.Taken L opener') :
    Alike L solid b b (List.Forall₂ (Node.Like L)) (g.methodBody opener) (g.methodBody opener') := by
  refine .ifAccept (.behind .skipBreaks ?_) (h.body hopener).weaken
  exact .bind (h.parse .statement) fun _ _ hnode =>
    .pure (.cons (.intro hnode.span (by simp) (.cons hnode .nil)) .nil)

/-- A method. -/
lemma method (h : Likewise L g) : Alike L true b true (Node.Like L) g.method g.method :=
  .advance fun _ _ ho => .bind .methodName fun _ _ hname => .inScope _ <| .allowingDo <|
    .bind h.methodParameters fun _ _ hparameters => .bind (h.methodBody ho) fun _ _ hbody =>
      .finishNamed ho.span.start hname (.cons hparameters hbody)

/-- What follows a constant is looked at behind it. -/
lemma constantPathRest {path path' : String} (hpath : L.Text path path') :
    Alike L solid true true L.Text (g.constantPathRest path) (g.constantPathRest path') := by
  refine .iterate (V := L.Text) (W := L.Text) (fun _ _ hpath => ?_) _ hpath
  refine .same (fun _ _ hs => ?_) fun _ => .ite ?_ (.pure (.done hpath))
  · rw [hs.tape.kind_eq, hs.tape.current_same.spaced]
  · exact .behind .drop (.expect rfl fun _ _ ht =>
      .pure (.again ((hpath.append (.of_oneLine (by decide))).append ht.word)))

/-- A path of constants gives texts that are alike. -/
lemma constantPath : Alike L solid b true L.Text g.constantPath g.constantPath := by
  refine .bind (.accept _) fun _ outermost hsame => .expect rfl fun _ _ ht => constantPathRest ?_
  subst hsame
  cases outermost with
  | true => exact .append (.of_oneLine (by decide)) ht.word
  | false => exact ht.word

/-- The body of a class whose openers are alike. -/
lemma scopedBody (h : Likewise L g) (hopener : opener.Taken L opener') :
    Alike L solid b true (List.Forall₂ (Node.Like L)) (g.scopedBody opener)
      (g.scopedBody opener') :=
  .inScope _ (.allowingDo (h.body hopener))

/-- A class, or the body of an object's own class, in both texts. -/
lemma classDefinition (h : Likewise L g) :
    Alike L true b true (Node.Like L) g.classDefinition g.classDefinition := by
  refine .advance fun opener opener' ho => .ifAccept ?_ ?_
  · exact .bind (h.parse .expression) fun _ _ htarget => .bind (h.scopedBody ho) fun _ _ hbody =>
      .finish ho.span.start (.cons htarget hbody)
  · refine .bind constantPath fun name name' hname => ?_
    have hbody {parent parent' : List Node} (hparent : List.Forall₂ (Node.Like L) parent parent') :
        Alike L false true true (Node.Like L)
        (do
          let body ← Grammar.scopedBody g opener
          Grammar.finishNamed .classDef opener.span.start name (parent ++ body))
        (do
          let body ← Grammar.scopedBody g opener'
          Grammar.finishNamed .classDef opener'.span.start name' (parent' ++ body)) :=
      .bind (h.scopedBody ho) fun _ _ hbody =>
        .finishNamed ho.span.start hname (List.rel_append hparent hbody)
    exact .ifAccept (.bind (.one (h.parse .expression)) fun _ _ => hbody)
      (.bind (.pure .nil) fun _ _ => hbody)

/-- A module. -/
lemma moduleDefinition (h : Likewise L g) :
    Alike L true b true (Node.Like L) g.moduleDefinition g.moduleDefinition :=
  .advance fun _ _ ho => .bind constantPath fun _ _ hname => .bind (h.scopedBody ho)
    fun _ _ hbody => .finishNamed ho.span.start hname hbody

/-- An `undef` with as many names in both texts. -/
lemma undef : Alike L solid b true (Node.Like L) g.undef g.undef :=
  .here fun _ _ hstart => .behind .drop (.bind
    (.separated (.pure trivial) Alike.methodReference.weaken _) fun _ _ hnodes =>
      .finish hstart hnodes)

/-- A hook. -/
lemma hook (h : Likewise L g) (k : NodeKind) :
    Alike L true b true (Node.Like L) (g.hook k) (g.hook k) :=
  .advance fun _ _ hk => .expect rfl fun _ _ ho =>
    .bind (.inScope _ (.allowingDo (h.parse (.statements _)))) fun _ _ hnode =>
      .behind (.expectCloser ho rfl) (.finish hk.span.start (.cons hnode .nil))

/-! ### Operands -/

/-- A `not`. -/
lemma negation (h : Likewise L g) :
    Alike L solid b true (Node.Like L) g.negation g.negation :=
  .here fun _ _ hstart => .behind .drop (.bind (h.parse .expression) fun _ _ hnode =>
    .finish hstart (.cons hnode .nil))

/-- The same keyword begins the same operand. -/
lemma keywordOperand (h : Likewise L g) (word : Keyword) :
    Alike L true b true (Node.Like L) (g.keywordOperand word) (g.keywordOperand word) := by
  cases word with
  | nil_ | true_ | false_ | self_ | redo_ | retry_ => exact .takeAs (by decide)
  | def_ => exact h.method
  | class_ => exact h.classDefinition
  | module_ => exact h.moduleDefinition
  | alias_ => exact .alias_
  | undef_ => exact undef
  | beginHook => exact h.hook _
  | endHook => exact h.hook _
  | if_ => exact h.conditional
  | unless_ => exact h.negatedConditional
  | while_ => exact h.conditionLoop _
  | until_ => exact h.conditionLoop _
  | for_ => exact h.iteration
  | case_ => exact h.choice
  | begin_ => exact h.protectedBody
  | return_ => exact h.jump _
  | break_ => exact h.jump _
  | next_ => exact h.jump _
  | yield_ => exact h.keywordCall
  | super_ => exact h.keywordCall
  | defined_ => exact h.definedTest
  | not_ => exact h.negation
  | and_ | do_ | else_ | elsif_ | end_ | ensure_ | in_ | or_ | rescue_ | then_ | when_ =>
    exact .refuse (by decide)

/-- The same mark begins the same operand. -/
lemma markOperand (h : Likewise L g) (mark : Punct) :
    Alike L true b true (Node.Like L) (g.markOperand mark) (g.markOperand mark) := by
  unfold Grammar.markOperand
  split
  · exact .outermostConstant
  · exact h.array
  · exact h.hash
  · exact h.paren
  · exact h.lambda
  · exact .refuse (by decide)

/-- An operand begins with a token of its own, behind which the tapes have settled. -/
lemma operand (h : Likewise L g) : Alike L solid b true (Node.Like L) g.operand g.operand := by
  refine .kind fun k => ?_
  cases k with
  | integer | legacyOctal | float | character => exact .takeLeaf
  | percentLiteral => exact .percentLiteral
  | stringBegin => exact h.quoted _
  | regexBegin => exact h.quoted _
  | symbol => exact .symbol
  | identifier => exact h.bareName
  | constant => exact h.constant
  | instanceVariable | classVariable | globalVariable => exact .takeLeaf
  | keyword word => exact h.keywordOperand word
  | punct mark => exact h.markOperand mark
  | stringContent | stringEnd | interpolationBegin | interpolationEnd => exact .refuse (by decide)
  | label | opAssign | newline | eof => exact .refuse (by decide)

/-! ### Chains -/

/-- A call takes a block in both texts or in neither. -/
lemma takesBlock_eq (hnode : node.Like L node') : takesBlock node' = takesBlock node := by
  have hlast : node'.children.getLast?.all (·.kind != .block) =
      node.children.getLast?.all (·.kind != .block) := by
    have hlasts := hnode.children.getLast?
    generalize node.children.getLast? = x at hlasts ⊢
    generalize node'.children.getLast? = x' at hlasts ⊢
    cases hlasts with
    | some h => simp [h.kind]
    | none => rfl
  rw [takesBlock, takesBlock, hnode.kind, hlast]

/-- Calls that are alike stay so when blocks are put behind them that are alike. -/
lemma withBlock_like {call call' block block' : Node} (hcall : call.Like L call')
    (hblock : block.Like L block') : (withBlock call block).Like L (withBlock call' block') := by
  unfold Grammar.withBlock
  rw [hcall.kind, hcall.text]
  exact .intro ⟨hcall.span.start, hblock.span.stop⟩ hcall.spells
    (List.rel_append hcall.children (.cons hblock .nil))

/-- Looking for the bar that ends parameters finds it in both texts or in neither. -/
lemma endsBareParameters_eq {ts ts' : List Token} (h : List.Forall₂ (Token.Same L) ts ts') :
    endsBareParameters ts' = endsBareParameters ts := by
  induction h with
  | nil => rfl
  | @cons t t' ts ts' ht hts ih =>
    rw [endsBareParameters.eq_def (t' :: ts'), endsBareParameters.eq_def (t :: ts)]
    simp only [ht.kind, ih]
    split
    case h_5 =>
      cases hts with
      | nil => rfl
      | @cons next next' _ _ hnext _ =>
        have hline := L.line_eq ht.span.stop
        have hnextLine := L.line_eq (L.place_of_start hnext.span.start)
        simp [hnext.kind, hline, hnextLine]
    all_goals rfl

/-- A block lost its opener in both texts or in neither. -/
lemma lacksBlockOpener_eq {ts ts' : List Token} (h : List.Forall₂ (Token.Same L) ts ts') :
    lacksBlockOpener ts' = lacksBlockOpener ts := by
  rw [lacksBlockOpener, lacksBlockOpener, endsBareParameters_eq h]
  cases h with
  | nil => rfl
  | cons ht _ => simp [ht.kind]

/-- A call with receivers that are alike. -/
lemma methodCall (h : Likewise L g) (hnode : node.Like L node') (hstart : L.start start start') :
    Alike L solid true true (Node.Like L) (g.methodCall node start) (g.methodCall node' start') :=
  .bind .calledName fun _ _ hname => .bind h.callArguments fun _ _ hnodes =>
    .finishNamed hstart hname (.cons hnode hnodes)

/-- What stands behind two colons is a constant, a call or refused in both texts. -/
lemma scopedName (h : Likewise L g) (hnode : node.Like L node') (hstart : L.start start start') :
    Alike L solid true true (Node.Like L) (g.scopedName node start)
      (g.scopedName node' start') := by
  refine .see (fun _ _ hs => hs.tape.next_same) fun next next' hnext => .kind fun k => ?_
  have hopens : opensArguments next' = opensArguments next := by
    rw [opensArguments, opensArguments, hnext.kind, hnext.spaced]
  rw [hopens]
  by_cases hconstant : (k == .constant && !opensArguments next) = true
  · obtain rfl := beq_iff_eq.mp (Bool.and_eq_true_iff.mp hconstant).1
    rw [if_pos hconstant, if_pos hconstant]
    exact .advance fun _ _ ht => .finishNamed hstart ht.word (.cons hnode .nil)
  · rw [if_neg hconstant, if_neg hconstant]
    exact .ite (h.methodCall hnode hstart) (.refuse (by decide))

/-- An element of receivers that are alike. -/
lemma element (h : Likewise L g) (hnode : node.Like L node') (hstart : L.start start start') :
    Alike L true b true (Node.Like L) (g.element node start) (g.element node' start') :=
  .advance fun _ _ ho => .bind (.allowingDo (.items ho (h.parse .argument))) fun _ _ hnodes =>
    .bind (.finish ho.span.start hnodes) fun _ _ harguments =>
      .finish hstart (.cons hnode (.cons harguments .nil))

/-- A block that lost its opener is reported in both texts. -/
lemma openerlessBlock (h : Likewise L g) :
    Alike L solid b true (Node.Like L) g.openerlessBlock g.openerlessBlock := by
  refine .current fun bar bar' hbar => .behind (.report ?_) (h.doBlockBehind ?_)
  · have hmessage : OneLine Fault.Cause.missingBlockOpener.message := by decide
    exact ⟨rfl, L.place_of_start hbar.span.start, .of_oneLine hmessage⟩
  · have hspelled : L.Spells "do" := .of_oneLine (by decide)
    exact ⟨⟨rfl, rfl, hbar.span, rfl, fun _ => hspelled⟩, hspelled⟩

/-- The same link follows in both texts, or the chain ends in both. -/
lemma link (h : Likewise L g) (hstart : L.start start start') (hnode : node.Like L node') :
    Alike L solid true true (Round.Like (Node.Like L) (Node.Like L)) (g.link start node)
      (g.link start' node') := by
  have htakes : takesBlock node' = takesBlock node := takesBlock_eq hnode
  have hblock {call : Bool} {block block' : Parser Node}
      (hread : Alike L call true true (Node.Like L) block block') :
      Alike L call true true (Round.Like (Node.Like L) (Node.Like L))
        (do return .again (withBlock node (← block)))
        (do return .again (withBlock node' (← block'))) :=
    .bind hread fun _ _ hblock => .pure (.again (withBlock_like hnode hblock))
  have hend {solid : Bool} : Alike L solid true true (Round.Like (Node.Like L) (Node.Like L))
      (Pure.pure (.done node)) (Pure.pure (.done node')) := .pure (.done hnode)
  refine .settledCurrent fun t t' ht => ?_
  rw [ht.kind, ht.spaced, hnode.kind, htakes]
  generalize t.kind = k
  split
  · exact .behind .drop (.bind (h.methodCall hnode hstart) fun _ _ hcall => .pure (.again hcall))
  · exact .behind .drop (.bind (h.methodCall hnode hstart) fun _ _ hcall => .pure (.again hcall))
  · exact .ite hend (.behind .drop (.bind (h.scopedName hnode hstart) fun _ _ hname =>
      .pure (.again hname)))
  · exact .ite hend (.bind (h.element hnode hstart) fun _ _ helement => .pure (.again helement))
  · exact .ite (hblock h.braceBlock) hend
  · exact .same (fun _ _ hs => by rw [hs.doWithheld]) fun _ => .ite (hblock h.doBlock) hend
  · refine .same (fun _ _ hs => ?_) fun _ => .ite (hblock h.openerlessBlock) hend
    exact lacksBlockOpener_eq hs.tape.ahead
  · exact hend

/-- A chain has as many links in both texts. -/
lemma chain (h : Likewise L g) : Alike L solid b true (Node.Like L) g.chain g.chain :=
  .here fun _ _ hstart => .bind h.operand fun _ _ hnode =>
    .iterate (fun _ _ hnode => h.link hstart hnode) _ hnode

/-! ### Operations -/

/-- A power has an exponent in both texts or in neither. -/
lemma power (h : Likewise L g) : Alike L solid b true (Node.Like L) g.power g.power := by
  refine .here fun _ _ hstart => .bind h.chain fun _ _ hbase => .ifAccept ?_ (.pure hbase)
  exact .bind (.nested (h.parse .unary)) fun _ _ hexponent =>
    .finishNamed hstart (.of_oneLine (by decide)) (.cons hbase (.cons hexponent .nil))

/-- The same prefix operator stands in front, or none. -/
lemma unary (h : Likewise L g) : Alike L solid b true (Node.Like L) g.unary g.unary := by
  refine .here fun start start' hstart => .kind fun _ => ?_
  have hoperand {c : Bool} : Alike L false c c (Node.Like L) (Grammar.nested (g.parse .unary))
      (Grammar.nested (g.parse .unary)) := .nested (h.parse .unary)
  have hoperator : Alike L true b true (Node.Like L)
      (do
        let operator := (← Grammar.advance).text
        Grammar.finishNamed .unary start operator [← Grammar.nested (g.parse .unary)])
      (do
        let operator := (← Grammar.advance).text
        Grammar.finishNamed .unary start' operator [← Grammar.nested (g.parse .unary)]) :=
    .advance fun _ _ ht => .bind hoperand fun _ _ hnode =>
      .finishNamed hstart ht.word (.cons hnode .nil)
  split
  · exact .behind .drop (.bind hoperand fun _ _ hnode => .finish hstart (.cons hnode .nil))
  · exact hoperator
  · exact hoperator
  · exact hoperator
  · exact h.power

/-- The same operator follows in both texts, or the operation ends in both. -/
lemma operatorRound (h : Likewise L g) (least : Level) (hstart : L.start start start')
    (hleft : left.Like L left') :
    Alike L solid true true (Round.Like (Node.Like L) (Node.Like L))
      (g.operatorRound least start left) (g.operatorRound least start' left') := by
  have hright (l : Level) : Alike L false true true (Node.Like L)
      (Grammar.nested (g.parse (rightGoal l))) (Grammar.nested (g.parse (rightGoal l))) := by
    unfold rightGoal
    split
    · exact .nested (h.parse (.binary _))
    · exact .nested (h.parse .unary)
  refine .kind fun _ => ?_
  split
  · refine .ite (.pure (.done hleft)) (.behind .drop (.bind (hright _) fun _ _ hnode => ?_))
    exact .bind (.joined _ hstart hleft hnode) fun _ _ hjoined => .pure (.again hjoined)
  · exact .pure (.done hleft)

/-- An operation has as many operators in both texts. -/
lemma binary (h : Likewise L g) (least : Level) :
    Alike L solid b true (Node.Like L) (g.binary least) (g.binary least) :=
  .here fun _ _ hstart => .bind h.unary fun _ _ hleft =>
    .iterate (fun _ _ hleft => h.operatorRound _ hstart hleft) _ hleft

/-- A range has the same ends in both texts. -/
lemma range (h : Likewise L g) : Alike L solid b true (Node.Like L) g.range g.range := by
  refine .here fun start start' hstart => .kind fun k => ?_
  by_cases hrange : isRangeOperator k = true
  · rw [if_pos hrange, if_pos hrange, TokenKind.isSolid_of_isFlat (isFlat_of_isRangeOperator hrange)]
    exact .advance fun _ _ ht => .bind (h.binary _) fun _ _ hupper =>
      .finishNamed hstart ht.word (.cons hupper .nil)
  · rw [if_neg hrange, if_neg hrange]
    refine .bind (h.binary _) fun lower lower' hlower => .kind fun k => ?_
    by_cases hrange : isRangeOperator k = true
    · rw [if_pos hrange, if_pos hrange, TokenKind.isSolid_of_isFlat (isFlat_of_isRangeOperator hrange)]
      refine .advance fun _ _ ht => ifAtOperand ?_ ?_
      · exact .bind (.one (h.binary _)) fun _ _ hupper =>
          .finishNamed hstart ht.word (.cons hlower hupper)
      · exact .bind (.pure .nil) fun _ _ hupper =>
          .finishNamed hstart ht.word (.cons hlower hupper)
    · rw [if_neg hrange, if_neg hrange]
      exact .pure hlower

/-- A choice between values in both texts, or the condition alone. -/
lemma ternary (h : Likewise L g) : Alike L solid b true (Node.Like L) g.ternary g.ternary := by
  have hvalue : Alike L false true true (Node.Like L) (Grammar.nested (g.parse .ternary))
      (Grammar.nested (g.parse .ternary)) := .nested (h.parse .ternary)
  refine .here fun _ _ hstart => .bind h.range fun _ _ htest => .ifAccept ?_ (.pure htest)
  refine .behind .skipBreaks (.bind hvalue fun _ _ hyes => .behind .skipBreaks ?_)
  refine .behind (.discardExpect rfl) (.behind .skipBreaks (.bind hvalue fun _ _ hno => ?_))
  exact .finish hstart (.cons htest (.cons hyes (.cons hno .nil)))

/-! ### Expressions -/

/-- What is assigned is splatted in both texts or in neither. -/
lemma assignedValue (h : Likewise L g) :
    Alike L solid b b (Node.Like L) g.assignedValue g.assignedValue := by
  refine .ifCheck rfl (.weaken ?_) (h.parse .expression).anywhere
  exact .here fun _ _ hstart => .behind .drop (.bind (h.parse .ternary) fun _ _ hnode =>
    .finish hstart (.cons hnode .nil))

/-- A value is assigned in both texts or in neither, by the same operator. -/
lemma assignment (h : Likewise L g) :
    Alike L solid b true (Node.Like L) g.assignment g.assignment := by
  refine .here fun _ _ hstart => .bind h.ternary fun _ _ hleft => .kind fun _ => ?_
  split
  · exact .bind (.assignable hleft) fun _ _ htarget => .behind .drop (.bind h.assignedValue
      fun _ _ hvalue => .finish hstart (.cons htarget (.cons hvalue .nil)))
  · refine .staying (.assignable hleft) (.assignable _) fun _ _ htarget => ?_
    exact .advance fun _ _ ht => .bind h.assignedValue fun _ _ hvalue =>
      .finishNamed hstart ht.word (.cons htarget (.cons hvalue .nil))
  · exact .pure hleft

/-- An expression one level deeper, where the limit is the same. -/
lemma expression (h : Likewise L g) :
    Alike L solid b true (Node.Like L) g.expression g.expression := .nested h.assignment

/-- An operator has something to spread in both texts or in neither. -/
lemma spreadArgument (h : Likewise L g) (k : NodeKind) :
    Alike L solid b true (Node.Like L) (g.spreadArgument k) (g.spreadArgument k) :=
  .here fun _ _ hstart => .behind .drop (ifAtOperand
    (.bind (h.parse .ternary).anywhere fun _ _ hnode => .finish hstart (.cons hnode .nil))
    (.finish hstart .nil))

/-- An argument is a pair in both texts or in neither. -/
lemma plainArgument (h : Likewise L g) :
    Alike L solid b true (Node.Like L) g.plainArgument g.plainArgument := by
  refine .here fun _ _ hstart => .bind h.expression fun _ _ hkey => .ifAccept ?_ (.pure hkey)
  exact .behind .skipBreaks (.bind (h.parse .expression) fun _ _ hvalue =>
    .finish hstart (.cons hkey (.cons hvalue .nil)))

/-- An argument is of the same form in both texts. -/
lemma argument (h : Likewise L g) :
    Alike L solid b true (Node.Like L) g.argument g.argument := by
  refine .kind fun k => ?_
  split
  · exact h.spreadArgument _
  · by_cases hlabel : (k == .label) = true
    · obtain rfl := beq_iff_eq.mp hlabel
      exact h.labelPair
    · rw [if_neg hlabel]
      exact h.plainArgument

/-! ### Statements -/

/-- Several targets stand here in both texts or in neither. -/
lemma assignsSeveral_eq {ts ts' : List Token} (h : List.Forall₂ (Token.Like L) ts ts') (depth : ℕ)
    (comma afterName : Bool) :
    assignsSeveral depth comma afterName ts' = assignsSeveral depth comma afterName ts := by
  induction h generalizing depth comma afterName with
  | nil => rfl
  | @cons t t' ts ts' ht _ ih =>
    rw [assignsSeveral.eq_def depth comma afterName (t' :: ts'),
      assignsSeveral.eq_def depth comma afterName (t :: ts)]
    simp only [ht.kind, ih]

/-- A target is of the same form in both texts. -/
lemma target (h : Likewise L g) : Alike L solid b true (Node.Like L) g.target g.target := by
  have htarget {solid c : Bool} : Alike L solid c true (Node.Like L)
      (do Grammar.assignable (← Grammar.chain g)) (do Grammar.assignable (← Grammar.chain g)) :=
    .bind h.chain fun _ _ hnode => .assignable hnode
  refine .here fun _ _ hstart => .kind fun _ => ?_
  split
  · refine .behind .drop (.kind fun _ => .ite (.finish hstart .nil) ?_)
    exact .bind h.chain fun _ _ hnode => .bind (.assignable hnode) fun _ _ htarget =>
      .finish hstart (.cons htarget .nil)
  · exact .behind .drop (.bind (h.parse (.targets _)) fun _ _ hnode =>
      .behind (.discardExpect rfl) (.pure hnode))
  · exact htarget

/-- As many targets in both texts. -/
lemma targets (h : Likewise L g) (closer : Option TokenKind) :
    Alike L solid b b (Node.Like L) (g.targets closer) (g.targets closer) := by
  refine .here fun _ _ hstart => .bind (.listing (fun _ _ hseen => ?_) _) fun _ _ hnodes =>
    .finish hstart hnodes
  refine .weaken (.bind h.target fun _ _ hnode => .ifAccept ?_ (.done (.cons hnode hseen)))
  exact .kind fun _ => .ite (.done (.cons hnode hseen)) (.goOn (.cons hnode hseen))

/-- A multiple assignment with as many values in both texts. -/
lemma multipleAssignment (h : Likewise L g) :
    Alike L solid b true (Node.Like L) g.multipleAssignment g.multipleAssignment :=
  .here fun _ _ hstart => .bind (h.targets _) fun _ _ htargets => .behind (.discardExpect rfl)
    (.here fun _ _ hvalues => .bind (.separated (.pure trivial) h.assignedValue _) fun _ _ hnodes =>
      .bind (.arrayOf hvalues hnodes) fun _ _ hvalue =>
        .finish hstart (.cons htargets (.cons hvalue .nil)))

/-- A `not` stands in front of an expression in both texts or in neither. -/
lemma notExpression (h : Likewise L g) :
    Alike L solid b true (Node.Like L) g.notExpression g.notExpression :=
  .ifCheck rfl (.here fun _ _ hstart => .behind .drop
    (.bind (.nested (h.parse .notExpression)) fun _ _ hnode => .finish hstart (.cons hnode .nil)))
    h.expression

/-- Expressions are joined by the same keywords in both texts. -/
lemma junctions (h : Likewise L g) :
    Alike L solid b true (Node.Like L) g.junctions g.junctions := by
  refine .here fun _ _ hstart => .bind h.notExpression fun _ _ hleft =>
    .iterate (fun _ _ hleft => ?_) _ hleft
  refine .kind fun _ => ?_
  split
  · exact .behind .drop (.bind h.notExpression fun _ _ hright =>
      .bind (.finish hstart (.cons hleft (.cons hright .nil))) fun _ _ hnode =>
        .pure (.again hnode))
  · exact .pure (.done hleft)

/-- A statement without modifiers. -/
lemma expressionStatement (h : Likewise L g) :
    Alike L solid b true (Node.Like L) g.expressionStatement g.expressionStatement := by
  refine .same (fun _ _ hs => ?_) fun _ => .ite h.multipleAssignment h.junctions
  exact assignsSeveral_eq (.cons hs.tape.current (hs.tape.ahead.imp fun _ _ ht => ht.toLike)) 0 _ _

/-- A statement has the same modifiers in both texts. -/
lemma statement (h : Likewise L g) :
    Alike L solid b true (Node.Like L) g.statement g.statement := by
  refine .nested (.here fun _ _ hstart => .bind h.expressionStatement fun _ _ hinner => ?_)
  refine .iterate (fun _ _ hinner => .kind fun _ => ?_) _ hinner
  split
  · exact .behind .drop (.bind h.expressionStatement fun _ _ hoperand =>
      .bind (.finish hstart (.cons hinner (.cons hoperand .nil))) fun _ _ hnode =>
        .pure (.again hnode))
  · exact .pure (.done hinner)

/-- A statement is read in both texts, or given up in both. -/
lemma listedStatement (h : Likewise L g) (stops : List TokenKind)
    (hseen : List.Forall₂ (Node.Like L) seen seen') :
    Alike L solid b b (Alike.Listed L) (g.listedStatement stops seen)
      (g.listedStatement stops seen') := by
  refine .current fun _ _ hfirst => .recover h.statement (fun _ _ hnode => ?_) fun _ _ he => ?_
  · exact .weaken (.behindStatement stops (.cons hnode hseen))
  · exact .behind (.report he) (.again hseen (.giveUp hfirst))

/-- A list goes on in both texts or ends in both. -/
lemma statementRound (h : Likewise L g) (stops : List TokenKind)
    (hseen : List.Forall₂ (Node.Like L) seen seen') :
    Alike L solid b b (Alike.Listed L) (g.statementRound stops seen)
      (g.statementRound stops seen') := by
  refine .behind .skipTerminators (.kind fun _ => .ite (.done hseen) (.ite ?_ ?_))
  · exact .behind (.reportUnexpected (by decide)) (.weaken (.behind .drop (.goOn hseen)))
  · exact h.listedStatement _ hseen

/-- The spans of lists that are alike are alike. -/
lemma spanOfEach (hstart : L.start start start') (hnodes : List.Forall₂ (Node.Like L) nodes nodes') :
    (spanOfEach start nodes).Like L (spanOfEach start' nodes') := by
  have hhead := hnodes.head?
  have hlast := hnodes.getLast?
  unfold Grammar.spanOfEach
  generalize nodes.head? = x at hhead ⊢
  generalize nodes'.head? = x' at hhead ⊢
  generalize nodes.getLast? = y at hlast ⊢
  generalize nodes'.getLast? = y' at hlast ⊢
  cases hhead with
  | none => exact Span.like_point hstart
  | some hfirst =>
    cases hlast with
    | none => exact Span.like_point hstart
    | some hlast => exact ⟨hfirst.span.start, hlast.span.stop⟩

/-- As many statements in both texts. -/
lemma statements (h : Likewise L g) (stops : List TokenKind) :
    Alike L solid b b (Node.Like L) (g.statements stops) (g.statements stops) :=
  .here fun _ _ hstart => .bind (.listing (fun _ _ hseen => h.statementRound stops hseen) _)
    fun _ _ hnodes => .pure (.intro (spanOfEach hstart hnodes) (by simp) hnodes)

/-! ### All goals -/

/-- Every goal is read alike, if the goals inside it are. -/
lemma step (h : Likewise L g) {goal goal' : Goal} (hgoal : goal.Like L goal') :
    Alike L false b b (Node.Like L) (g.step goal) (g.step goal') := by
  cases hgoal with
  | statements stops => exact h.statements stops
  | statement => exact h.statement.weaken
  | expressionStatement => exact h.expressionStatement.weaken
  | notExpression => exact h.notExpression.weaken
  | expression => exact h.expression.weaken
  | ternary => exact h.ternary.weaken
  | binary level => exact (h.binary level).weaken
  | unary => exact h.unary.weaken
  | chain => exact h.chain.weaken
  | targets closer => exact h.targets closer
  | argument => exact h.argument.weaken
  | parameter inBlock => exact (h.parameter inBlock).weaken
  | branch hkeyword => exact h.branch hkeyword

end Likewise

/-- However many levels the grammar goes in, it reads texts that are alike in the same way. -/
theorem likewise_production (L : Likeness) (levels rounds : ℕ) :
    Likewise L ⟨rounds, production levels⟩ := by
  induction levels generalizing rounds with
  | zero => exact ⟨fun _ _ => .throw .exhausted⟩
  | succ levels ih => exact ⟨fun hgoal _ => (ih (levels + 1)).step hgoal⟩

/-- A program is read alike. -/
theorem alike_program (L : Likeness) (levels : ℕ) :
    Alike L false false false (Node.Like L) (program levels) (program levels) := by
  refine .here fun start start' hstart => .bind
    (.inScope _ ((likewise_production L levels 0).parse (.statements _))) fun _ _ hlist =>
      .current fun last last' hlast => .pure ?_
  exact .intro ⟨hstart, L.later hlast.span.stop hstart⟩ (by simp) hlist.children

end RubyCheck.Grammar
