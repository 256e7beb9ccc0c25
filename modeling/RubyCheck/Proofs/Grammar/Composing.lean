import RubyCheck.Proofs.Grammar.Composed

/-!
# What every production is put together from

Goal by goal: if the goals inside a production are put together by the rules of `Composed`, and fail
at the end of the text, so does the production.
-/

namespace RubyCheck.Grammar

/-- The goals inside a production are put together so, and each of them but a list of statements
fails at the end of the text. -/
structure Composing (g : Grammar) : Prop where
  parse (goal : Goal) : Composed (g.parse goal)
  fails (goal : Goal) : (∀ stops, goal ≠ .statements stops) → FailsAtEnd (g.parse goal)

/-! ### At the end of the text -/

/-- No operand begins at the end of the text. -/
lemma fails_operand (g : Grammar) : FailsAtEnd g.operand := .kind (.refuse _)

/-- A chain needs its operand. -/
lemma fails_chain (g : Grammar) : FailsAtEnd g.chain := .view fun _ => (fails_operand g).bind

/-- A power needs its base. -/
lemma fails_power (g : Grammar) : FailsAtEnd g.power := .view fun _ => (fails_chain g).bind

/-- Where no prefix operator stands, an operation with one operand is a power. -/
lemma fails_unary (g : Grammar) : FailsAtEnd g.unary := .view fun _ => .kind (fails_power g)

/-- An operation needs its leftmost operand. -/
lemma fails_binary (g : Grammar) (level : Level) : FailsAtEnd (g.binary level) :=
  .view fun _ => (fails_unary g).bind

/-- At the end of the text no range without a lower end begins. -/
lemma fails_range (g : Grammar) : FailsAtEnd g.range :=
  .view fun _ => .kind (fails_binary g .disjunction).bind

/-- A choice needs its condition. -/
lemma fails_ternary (g : Grammar) : FailsAtEnd g.ternary := .view fun _ => (fails_range g).bind

/-- An assignment needs its target. -/
lemma fails_assignment (g : Grammar) : FailsAtEnd g.assignment :=
  .view fun _ => (fails_ternary g).bind

/-- One level deeper nothing begins either, and past the limit that is the fault. -/
lemma fails_expression (g : Grammar) : FailsAtEnd g.expression := (fails_assignment g).nested

/-- At the end of the text there is no `not`, so an expression is needed. -/
lemma fails_notExpression (g : Grammar) : FailsAtEnd g.notExpression :=
  .check (by decide) (fails_expression g)

/-- A target begins with an operand, with a star or with a parenthesis. -/
lemma fails_target (g : Grammar) : FailsAtEnd g.target :=
  .view fun _ => .kind (fails_chain g).bind

/-- Targets need at least one. -/
lemma fails_targets (g : Grammar) (closer : Option TokenKind) : FailsAtEnd (g.targets closer) :=
  .view fun _ => ((fails_target g).bind.iterate _).bind

/-- Neither targets nor a junction begin at the end of the text. -/
lemma fails_expressionStatement (g : Grammar) : FailsAtEnd g.expressionStatement :=
  .view fun _ => .ite (.view fun _ => (fails_targets g none).bind)
    (.view fun _ => (fails_notExpression g).bind)

/-- A statement needs what its modifiers stand behind. -/
lemma fails_statement (g : Grammar) : FailsAtEnd g.statement :=
  .nested (.view fun _ => (fails_expressionStatement g).bind)

/-- At the end of the text an argument is an expression. -/
lemma fails_argument (g : Grammar) : FailsAtEnd g.argument :=
  .kind (.view fun _ => (fails_expression g).bind)

/-- No parameter begins at the end of the text. -/
lemma fails_parameter (g : Grammar) (inBlock : Bool) : FailsAtEnd (g.parameter inBlock) :=
  .view fun _ => .kind (.refuse _)

namespace Composing

variable {g : Grammar}

/-- A branch needs its condition. -/
lemma fails_branch (h : Composing g) (keyword : Token) : FailsAtEnd (g.branch keyword) :=
  (h.fails .expressionStatement (by simp)).bind.bind

/-- Every goal fails at the end of the text, but for statements, of which there may be none. -/
lemma fails_step (h : Composing g) (goal : Goal) (hgoal : ∀ stops, goal ≠ .statements stops) :
    FailsAtEnd (g.step goal) := by
  cases goal with
  | statements stops => exact absurd rfl (hgoal stops)
  | statement => exact fails_statement g
  | expressionStatement => exact fails_expressionStatement g
  | notExpression => exact fails_notExpression g
  | expression => exact fails_expression g
  | ternary => exact fails_ternary g
  | binary level => exact fails_binary g level
  | unary => exact fails_unary g
  | chain => exact fails_chain g
  | targets closer => exact fails_targets g closer
  | argument => exact fails_argument g
  | parameter inBlock => exact fails_parameter g inBlock
  | branch keyword => exact h.fails_branch keyword

end Composing

/-! ### Productions -/

namespace Composing

variable {g : Grammar}

/-! #### Arguments -/

/-- Arguments in parentheses: the opening one, and items up to the closing one. -/
lemma parenArguments (h : Composing g) : Composed g.parenArguments :=
  .bind .advance fun _ => .bind (.allowingDo (.items (h.parse _) _ _)) fun _ => .finish _ _ _

/-- Arguments without parentheses: items with commas between them, where no `do` may begin a block. -/
lemma commandArguments (h : Composing g) : Composed g.commandArguments :=
  .bind .here fun _ => .bind (.withholdingDo (.separated .skipBreaks (h.parse _) _)) fun _ =>
    .finish _ _ _

/-- Arguments in parentheses or without, or none. -/
lemma callArguments (h : Composing g) : Composed g.callArguments :=
  .bind (.view fun _ _ _ _ => rfl) fun _ => .ite h.parenArguments.one
    (.bind (.view fun _ _ _ _ => rfl) fun _ => .ite h.commandArguments.one (.pure _))

/-- A name, and its arguments unless it is a variable. -/
lemma bareName (h : Composing g) : Composed g.bareName :=
  .bind .here fun _ => .bind .advance fun _ => .bind (.view fun _ _ _ _ => rfl) fun _ =>
    .ite (.leaf _ _) (.bind h.callArguments fun _ => .finishNamed _ _ _ _)

/-- A constant, and its arguments if a parenthesis opens behind it. -/
lemma constant (h : Composing g) : Composed g.constant :=
  .bind .here fun _ => .bind .advance fun _ => .bind (.view fun _ _ _ _ => rfl) fun _ =>
    .ite (.bind h.parenArguments fun _ => .finishNamed _ _ _ _) (.leaf _ _)

/-- A keyword and its arguments. -/
lemma keywordCall (h : Composing g) (k : NodeKind) : Composed (g.keywordCall k) :=
  .bind .here fun _ => .bind .drop fun _ => .bind h.callArguments fun _ => .finish _ _ _

/-- A label and its value, or the variable of its name. -/
lemma labelPair (h : Composing g) : Composed g.labelPair := by
  refine .bind .here fun _ => .bind .advance fun _ => .bind (.leaf _ _) fun _ =>
    .bind .kind fun _ => .ite ?_ ?_
  · exact .bind (.view fun _ _ _ _ => rfl) fun _ => .bind (.leaf _ _) fun _ => .finish _ _ _
  · exact .bind (h.parse _) fun _ => .finish _ _ _

/-! #### Bodies -/

/-- A condition and the separator behind it. -/
lemma condition (h : Composing g) (keyword : Token) (doMayStand : Bool) :
    Composed (g.condition keyword doMayStand) := by
  have hbehind (node : Node) : Composed (do separator keyword doMayStand; return node) :=
    .bind (.separator _ _) fun _ => .pure _
  unfold Grammar.condition
  exact .ite (.bind (.withholdingDo (h.parse _)) hbehind) (.bind (h.parse _) hbehind)

/-- A keyword and the statements behind it. -/
lemma clause (h : Composing g) (k : NodeKind) (stops : List TokenKind) :
    Composed (g.clause k stops) :=
  .bind .here fun _ => .bind .drop fun _ => .bind (h.parse _) fun _ => .finish _ _ _

/-- A clause, or nothing. -/
lemma clauseIf (h : Composing g) (keyword : Keyword) (k : NodeKind) (stops : List TokenKind) :
    Composed (g.clauseIf keyword k stops) :=
  .bind (.check _) fun _ => .ite (h.clause _ _).one (.pure _)

/-- An `else` with its statements, or nothing. -/
lemma elseBranch (h : Composing g) : Composed g.elseBranch := h.clauseIf _ _ _

/-- A `rescue`: its classes, its variable and its statements, of which the first two may be missing. -/
lemma rescueClause (h : Composing g) : Composed g.rescueClause := by
  have hbody (keyword : Token) (ns : List Node) (target : List Node) : Composed (do
      separator keyword false
      let body ← g.parse (.statements bodyStops)
      Grammar.finish .rescueClause keyword.span.start (ns ++ target ++ [body])) :=
    .bind (.separator _ _) fun _ => .bind (h.parse _) fun _ => .finish _ _ _
  refine .bind .advance fun keyword => .bind .here fun start => .bind .kind fun _ => ?_
  have hbehind (classes : List Node) : Composed (do
      let classes ← Grammar.finish .arguments start classes
      let target ←
        if ← accept (.punct .fatArrow) then (do return [← assignable (← g.parse .chain)])
        else pure []
      separator keyword false
      let body ← g.parse (.statements bodyStops)
      Grammar.finish .rescueClause keyword.span.start (classes :: target ++ [body])) := by
    refine .bind (.finish _ _ _) fun classes => .bind (.accept _) fun _ => .ite ?_ ?_
    · exact .bind (.bind (h.parse _) fun _ => .one (.assignable _)) (hbody keyword [classes])
    · exact .bind (.pure _) (hbody keyword [classes])
  exact .ite (.bind (.pure _) hbehind) (.bind (.separated .skipBreaks (h.parse _) _) hbehind)

/-- One `rescue` after the other. -/
lemma rescueClauses (h : Composing g) : Composed g.rescueClauses :=
  .iterate (fun _ => .bind (.check _) fun _ =>
    .ite (.bind h.rescueClause fun _ => .pure _) (.pure _)) _ _

/-- Statements, the clauses behind them and the `end`. -/
lemma body (h : Composing g) (opener : Token) : Composed (g.body opener) :=
  .bind (h.parse _) fun _ => .bind h.rescueClauses fun _ => .bind (h.clauseIf _ _ _) fun _ =>
    .bind (h.clauseIf _ _ _) fun _ => .bind (.expectEnd _) fun _ => .pure _

/-! #### Parameters and blocks -/

/-- A value after the equals sign of a parameter. -/
lemma defaultValue (h : Composing g) (inBlock : Bool) : Composed (g.defaultValue inBlock) :=
  h.parse _

/-- Parameters between parentheses. -/
lemma parameterList (h : Composing g) (opener : Token) : Composed (g.parameterList opener) :=
  .items (h.parse _) _ _

/-- A star or two, an ampersand or dots, with a name or without. -/
lemma spreadParameter (start : Position) : Composed (do
    Grammar.drop
    if ← Grammar.check .identifier then
      let name := (← Grammar.advance).text
      Grammar.declare name
      Grammar.finishNamed .parameter start name []
    else Grammar.finishNamed .parameter start "" []) := by
  refine .bind .drop fun _ => .bind (.check _) fun _ => .ite ?_ (.finishNamed _ _ _ _)
  exact .bind .advance fun _ => .bind (.declare _) fun _ => .finishNamed _ _ _ _

/-- A parameter of any of the forms. -/
lemma parameter (h : Composing g) (inBlock : Bool) : Composed (g.parameter inBlock) := by
  refine .bind .here fun start => .bind .kind fun _ => ?_
  have hnamed (name : String) (value : List Node) :
      Composed (Grammar.finishNamed .parameter start name value) := .finishNamed _ _ _ _
  have hvalue : Composed (do return [← g.defaultValue inBlock]) := .one (h.defaultValue inBlock)
  split
  · refine .bind .advance fun _ => .bind (.declare _) fun _ => .bind (.accept _) fun _ => ?_
    exact .ite (.bind hvalue (hnamed _)) (.bind (.pure _) (hnamed _))
  · refine .bind .advance fun _ => .bind (.declare _) fun _ => .bind .kind fun _ => ?_
    exact .ite (.bind (.pure _) (hnamed _)) (.bind hvalue (hnamed _))
  · exact spreadParameter start
  · exact spreadParameter start
  · exact spreadParameter start
  · exact .takeAs _ _
  · exact .bind .advance fun _ => .bind (h.parameterList _) fun _ => .finish _ _ _
  · exact .refuse _

/-- Parameters with commas between them. -/
lemma bareParameters (h : Composing g) : Composed g.bareParameters :=
  .separated (.pure _) (h.parameter _) _

/-- Parameters up to a bar or a semicolon. -/
lemma barredParameters (h : Composing g) : Composed g.barredParameters :=
  .iterate (fun _ => .bind .kind fun _ => .ite (.pure _)
    (.bind (h.parameter _) fun _ => .unlessComma (.pure _) _ _)) _ _

/-- The variables behind a semicolon. -/
lemma blockLocals : Composed g.blockLocals :=
  .bind (.accept _) fun _ => .ite (.separated (.pure _) .blockLocal _) (.pure _)

/-- Parameters and variables between bars. -/
lemma blockParameters (h : Composing g) : Composed g.blockParameters := by
  refine .bind .here fun _ => .bind (.accept _) fun _ => .ite (.one (.finish _ _ _)) ?_
  refine .bind (.check _) fun _ => .ite ?_ (.pure _)
  refine .bind .advance fun _ => .bind h.barredParameters fun _ => .bind blockLocals fun _ => ?_
  exact .bind (.closingBar _) fun _ => (.one (.finish _ _ _))

/-- Statements and the brace behind them. -/
lemma bracedStatements (h : Composing g) (opener : Token) : Composed (g.bracedStatements opener) :=
  .bind (h.parse _) fun _ => .bind (.expectCloser _ _) fun _ => .pure _

/-- A scope with parameters and statements, between braces. -/
lemma braceBlock (h : Composing g) : Composed g.braceBlock :=
  .bind .advance fun _ => .inScope _ <| .allowingDo <| .bind h.blockParameters fun _ =>
    .bind (h.bracedStatements _) fun _ => .finish _ _ _

/-- A scope with parameters and a body. -/
lemma doBlockBehind (h : Composing g) (opener : Token) : Composed (g.doBlockBehind opener) :=
  .inScope _ <| .allowingDo <| .bind h.blockParameters fun _ => .bind (h.body _) fun _ =>
    .finish _ _ _

/-- A `do` and what stands behind it. -/
lemma doBlock (h : Composing g) : Composed g.doBlock := .bind .advance fun _ => h.doBlockBehind _

/-- Parameters in parentheses or without, or none. -/
lemma lambdaParameters (h : Composing g) : Composed g.lambdaParameters := by
  refine .bind .here fun _ => .bind .kind fun _ => .ite ?_ (.ite (.pure _) ?_)
  · exact .bind .advance fun _ => .bind (h.parameterList _) fun _ => (.one (.finish _ _ _))
  · exact .bind h.bareParameters fun _ => (.one (.finish _ _ _))

/-- Statements between braces, or a body. -/
lemma lambdaBody (h : Composing g) : Composed g.lambdaBody := by
  refine .bind .kind fun _ => ?_
  split
  · exact .bind .advance fun _ => (h.bracedStatements _).one
  · exact .bind .advance fun _ => h.body _
  · exact .refuse _

/-- An arrow, and a scope with parameters and a body. -/
lemma lambda (h : Composing g) : Composed g.lambda :=
  .bind .advance fun _ => .inScope _ <| .allowingDo <| .bind h.lambdaParameters fun _ =>
    .bind h.lambdaBody fun _ => .finish _ _ _

/-! #### Control flow -/

/-- A condition, its statements, and another branch or an `else`. -/
lemma branch (h : Composing g) (keyword : Token) : Composed (g.branch keyword) := by
  have hfinish (ns : List Node) :
      Composed (Grammar.finish .if_ keyword.span.start ns) := .finish _ _ _
  refine .bind (h.condition _ _) fun _ => .bind (h.parse _) fun _ => .bind (.check _) fun _ => ?_
  refine .ite (.bind .advance fun keyword => ?_) (.bind h.elseBranch fun _ => hfinish _)
  exact .bind (.one (.nested (h.parse _) (h.fails _ (by simp)))) fun _ => hfinish _

/-- An `if`, its branch and the `end`. -/
lemma conditional (h : Composing g) : Composed g.conditional :=
  .bind .advance fun _ => .bind (h.branch _) fun _ => .bind (.expectEnd _) fun _ =>
    .bind (.view fun _ _ _ _ => rfl) fun _ => .pure _

/-- An `unless`, its condition, its two branches and the `end`. -/
lemma negatedConditional (h : Composing g) : Composed g.negatedConditional :=
  .bind .advance fun _ => .bind (h.condition _ _) fun _ => .bind (h.parse _) fun _ =>
    .bind h.elseBranch fun _ => .bind (.expectEnd _) fun _ => .finish _ _ _

/-- Statements and the `end`. -/
lemma loopBody (h : Composing g) (opener : Token) : Composed (g.loopBody opener) :=
  .bind (h.parse _) fun _ => .bind (.expectEnd _) fun _ => .pure _

/-- A keyword, a condition and a body. -/
lemma conditionLoop (h : Composing g) (k : NodeKind) : Composed (g.conditionLoop k) :=
  .bind .advance fun _ => .bind (h.condition _ _) fun _ => .bind (h.loopBody _) fun _ =>
    .finish _ _ _

/-- One variable, or several targets. -/
lemma loopTarget (h : Composing g) : Composed g.loopTarget :=
  .bind (.view fun _ _ _ _ => rfl) fun _ =>
    .ite (h.parse _) (.bind (h.parse _) fun _ => .assignable _)

/-- A `for`: variables, what it goes through and a body. -/
lemma iteration (h : Composing g) : Composed g.iteration :=
  .bind .advance fun _ => .bind h.loopTarget fun _ => .bind (.discard (.expect _)) fun _ =>
    .bind (h.condition _ _) fun _ => .bind (h.loopBody _) fun _ => .finish _ _ _

/-- A separator and statements. -/
lemma clauseBody (h : Composing g) (keyword : Token) : Composed (g.clauseBody keyword) :=
  .bind (.separator _ _) fun _ => h.parse _

/-- A `when`: values and statements. -/
lemma valueClause (h : Composing g) : Composed g.valueClause :=
  .bind .advance fun _ => .bind .here fun _ =>
    .bind (.separated .skipBreaks (h.parse _) _) fun _ => .bind (.finish _ _ _) fun _ =>
      .bind (h.clauseBody _) fun _ => .finish _ _ _

/-- A pattern, and a guard if a keyword for one follows. -/
lemma guarded (h : Composing g) (start : Position) (pattern : Node) :
    Composed (g.guarded start pattern) := by
  refine .bind .kind fun _ => ?_
  split
  · exact .bind .drop fun _ => .bind (h.parse _) fun _ => .finish _ _ _
  · exact .pure _

/-- An `in`: a pattern with its guard, and statements. -/
lemma patternClause (h : Composing g) : Composed g.patternClause :=
  .bind .advance fun _ => .bind .here fun _ =>
    .bind (.separated (.pure _) (h.parse _) _) fun _ => .bind (.arrayOf _ _) fun _ =>
      .bind (h.guarded _ _) fun _ => .bind (h.clauseBody _) fun _ => .finish _ _ _

/-- One clause after the other, up to anything else. -/
lemma clauses (h : Composing g) : Composed g.clauses := by
  refine .iterate (fun _ => .bind .kind fun _ => ?_) _ _
  split
  · exact .bind h.valueClause fun _ => .pure _
  · exact .bind h.patternClause fun _ => .pure _
  · exact .pure _

/-- A `case`: a subject or none, clauses and an `else` or none. -/
lemma choice (h : Composing g) : Composed g.choice := by
  refine .bind .advance fun opener => .bind .kind fun _ => ?_
  have hbehind (subject : List Node) : Composed (do
      Grammar.skipTerminators
      let clauses ← Grammar.clauses g
      let otherwise ← Grammar.elseBranch g
      Grammar.expectEnd opener
      Grammar.finish .case_ opener.span.start (subject ++ clauses ++ otherwise)) :=
    .bind .skipTerminators fun _ => .bind h.clauses fun _ => .bind h.elseBranch fun _ =>
      .bind (.expectEnd _) fun _ => .finish _ _ _
  exact .ite (.bind (.pure _) hbehind) (.bind (.one (h.parse _)) hbehind)

/-- A `begin` and its body. -/
lemma protectedBody (h : Composing g) : Composed g.protectedBody :=
  .bind .advance fun _ => .bind (h.body _) fun _ => .finish _ _ _

/-- A keyword, and values if an operand follows. -/
lemma jump (h : Composing g) (k : NodeKind) : Composed (g.jump k) := by
  refine .bind .here fun _ => .bind .drop fun _ => .bind (.view fun _ _ _ _ => rfl) fun _ => ?_
  refine .ite (.bind .here fun _ => ?_) (.finish _ _ _)
  exact .bind (.separated .skipBreaks (h.parse _) _) fun _ => .bind (.arrayOf _ _) fun _ =>
    .finish _ _ _

/-- A statement without modifiers, between parentheses. -/
lemma definedOperand (h : Composing g) : Composed g.definedOperand :=
  .bind .advance fun _ => .bind (.allowingDo (h.parse _)) fun _ => .bind .skipBreaks fun _ =>
    .bind (.expectCloser _ _) fun _ => .pure _

/-- A `defined?` and its operand. -/
lemma definedTest (h : Composing g) : Composed g.definedTest :=
  .bind .here fun _ => .bind .drop fun _ => .bind (.check _) fun _ =>
    .ite (.bind h.definedOperand fun _ => .finish _ _ _) (.bind (h.parse _) fun _ => .finish _ _ _)

/-! #### Literals -/

/-- Code between `#{` and a brace. -/
lemma interpolation (h : Composing g) : Composed g.interpolation :=
  .bind .here fun _ => .bind .drop fun _ => .bind (.allowingDo (h.parse _)) fun _ =>
    .bind (.discard (.expect _)) fun _ => .finish _ _ _

/-- Content, code or the end of the literal. -/
lemma piece (h : Composing g) (seen : String × List Node) : Composed (g.piece seen) := by
  refine .bind .kind fun _ => ?_
  split
  · exact .bind .advance fun _ => .pure _
  · exact .bind h.interpolation fun _ => .pure _
  · exact .bind .drop fun _ => .pure _
  · exact .refuse _

/-- The opener of a literal and its pieces. -/
lemma quoted (h : Composing g) (k : NodeKind) : Composed (g.quoted k) :=
  .bind .here fun _ => .bind .drop fun _ => .bind (.iterate h.piece _ _) fun _ =>
    .ite (.finishNamed _ _ _ _) (.finish _ _ _)

/-- An opening bracket and items. -/
lemma array (h : Composing g) : Composed g.array :=
  .bind .advance fun _ => .bind (.allowingDo (.items (h.parse _) _ _)) fun _ => .finish _ _ _

/-- A label with a value, two stars with a value, or a key with an arrow and a value. -/
lemma hashItem (h : Composing g) : Composed g.hashItem := by
  refine .bind .here fun _ => .bind .kind fun _ => ?_
  split
  · exact h.labelPair
  · exact .bind .drop fun _ => .bind (h.parse _) fun _ => .finish _ _ _
  · exact .bind (h.parse _) fun _ => .bind (.discard (.expect _)) fun _ =>
      .bind .skipBreaks fun _ => .bind (h.parse _) fun _ => .finish _ _ _

/-- An opening brace and pairs. -/
lemma hash (h : Composing g) : Composed g.hash :=
  .bind .advance fun _ => .bind (.allowingDo (.items h.hashItem _ _)) fun _ => .finish _ _ _

/-- An opening parenthesis, statements and the closing one. -/
lemma paren (h : Composing g) : Composed g.paren :=
  .bind .advance fun _ => .bind (.allowingDo (h.parse _)) fun _ =>
    .bind (.expectCloser _ _) fun _ => .finish _ _ _

/-! #### Definitions -/

/-- Parameters in parentheses, none, or parameters without parentheses. -/
lemma methodParameters (h : Composing g) : Composed g.methodParameters := by
  refine .bind .here fun start => .bind .kind fun _ => ?_
  have hfinish (ns : List Node) : Composed (Grammar.finish .parameters start ns) := .finish _ _ _
  refine .ite (.bind (.bind .advance fun _ => h.parameterList _) hfinish) ?_
  exact .ite (.bind (.pure _) hfinish) (.bind h.bareParameters hfinish)

/-- A body, or an equals sign and a statement. -/
lemma methodBody (h : Composing g) (opener : Token) : Composed (g.methodBody opener) := by
  refine .bind (.accept _) fun _ => .ite (.bind .skipBreaks fun _ => ?_) (h.body _)
  exact .bind (h.parse _) fun _ => .pure _

/-- A `def`, a name, and a closed scope with parameters and a body. -/
lemma method (h : Composing g) : Composed g.method :=
  .bind .advance fun _ => .bind .methodName fun _ => .inScope _ <| .allowingDo <|
    .bind h.methodParameters fun _ => .bind (h.methodBody _) fun _ => .finishNamed _ _ _ _

/-- More names of a path, each behind two colons. -/
lemma constantPathRest (path : String) : Composed (g.constantPathRest path) := by
  refine .iterate (fun _ => .bind (.view fun _ _ _ _ => rfl) fun _ => .ite ?_ (.pure _)) _ _
  exact .bind .drop fun _ => .bind (.expect _) fun _ => .pure _

/-- A name, perhaps behind two colons, and the rest of the path. -/
lemma constantPath : Composed g.constantPath :=
  .bind (.accept _) fun _ => .bind (.expect _) fun _ => constantPathRest _

/-- A closed scope with a body. -/
lemma scopedBody (h : Composing g) (opener : Token) : Composed (g.scopedBody opener) :=
  .inScope _ (.allowingDo (h.body _))

/-- A `class`: a path with a superclass or without, or an object, and a body. -/
lemma classDefinition (h : Composing g) : Composed g.classDefinition := by
  refine .bind .advance fun opener => .bind (.accept _) fun _ => .ite ?_ ?_
  · exact .bind (h.parse _) fun _ => .bind (h.scopedBody _) fun _ => .finish _ _ _
  · refine .bind constantPath fun name => .bind (.accept _) fun _ => ?_
    have hbody (parent : List Node) : Composed (do
        let body ← Grammar.scopedBody g opener
        Grammar.finishNamed .classDef opener.span.start name (parent ++ body)) :=
      .bind (h.scopedBody _) fun _ => .finishNamed _ _ _ _
    exact .ite (.bind (.one (h.parse _)) hbody) (.bind (.pure _) hbody)

/-- A `module`: a path and a body. -/
lemma moduleDefinition (h : Composing g) : Composed g.moduleDefinition :=
  .bind .advance fun _ => .bind constantPath fun _ => .bind (h.scopedBody _) fun _ =>
    .finishNamed _ _ _ _

/-- An `undef` and names with commas between them. -/
lemma undef : Composed g.undef :=
  .bind .here fun _ => .bind .drop fun _ =>
    .bind (.separated (.pure _) .methodReference _) fun _ => .finish _ _ _

/-- A keyword, and a scope with statements between braces. -/
lemma hook (h : Composing g) (k : NodeKind) : Composed (g.hook k) :=
  .bind .advance fun _ => .bind (.expect _) fun _ =>
    .bind (.inScope _ (.allowingDo (h.parse _))) fun _ => .bind (.expectCloser _ _) fun _ =>
      .finish _ _ _

/-! #### Operands -/

/-- A `not` and an expression. -/
lemma negation (h : Composing g) : Composed g.negation :=
  .bind .here fun _ => .bind .drop fun _ => .bind (h.parse _) fun _ => .finish _ _ _

/-- Each keyword goes to its own production, and the others are refused. -/
lemma keywordOperand (h : Composing g) (word : Keyword) : Composed (g.keywordOperand word) := by
  cases word with
  | nil_ | true_ | false_ | self_ | redo_ | retry_ => exact .takeAs _ _
  | def_ => exact h.method
  | class_ => exact h.classDefinition
  | module_ => exact h.moduleDefinition
  | alias_ => exact .alias_
  | undef_ => exact undef
  | beginHook => exact h.hook _
  | endHook => exact h.hook _
  | if_ => exact h.conditional
  | unless_ => exact h.negatedConditional
  | while_ => exact h.conditionLoop _
  | until_ => exact h.conditionLoop _
  | for_ => exact h.iteration
  | case_ => exact h.choice
  | begin_ => exact h.protectedBody
  | return_ => exact h.jump _
  | break_ => exact h.jump _
  | next_ => exact h.jump _
  | yield_ => exact h.keywordCall _
  | super_ => exact h.keywordCall _
  | defined_ => exact h.definedTest
  | not_ => exact h.negation
  | and_ | do_ | else_ | elsif_ | end_ | ensure_ | in_ | or_ | rescue_ | then_ | when_ =>
    exact .refuse _

/-- Each mark goes to its own production, and the others are refused. -/
lemma markOperand (h : Composing g) (mark : Punct) : Composed (g.markOperand mark) := by
  unfold Grammar.markOperand
  split
  · exact .outermostConstant
  · exact h.array
  · exact h.hash
  · exact h.paren
  · exact h.lambda
  · exact .refuse _

/-- The kind of the first token tells the production. -/
lemma operand (h : Composing g) : Composed g.operand := by
  refine .bind .kind fun k => ?_
  cases k with
  | integer | legacyOctal | float | character => exact .takeLeaf _
  | percentLiteral => exact .percentLiteral
  | stringBegin => exact h.quoted _
  | regexBegin => exact h.quoted _
  | symbol => exact .symbol
  | identifier => exact h.bareName
  | constant => exact h.constant
  | instanceVariable | classVariable | globalVariable => exact .takeLeaf _
  | keyword word => exact h.keywordOperand word
  | punct mark => exact h.markOperand mark
  | stringContent | stringEnd | interpolationBegin | interpolationEnd => exact .refuse _
  | label | opAssign | newline | eof => exact .refuse _

/-! #### Chains and operations -/

/-- The name behind a dot and its arguments. -/
lemma methodCall (h : Composing g) (receiver : Node) (start : Position) :
    Composed (g.methodCall receiver start) :=
  .bind .calledName fun _ => .bind h.callArguments fun _ => .finishNamed _ _ _ _

/-- A constant behind two colons, or a call. -/
lemma scopedName (h : Composing g) (scope : Node) (start : Position) :
    Composed (g.scopedName scope start) := by
  refine .bind (.view fun _ _ _ _ => rfl) fun _ => .bind .kind fun _ => .ite ?_ ?_
  · exact .bind .advance fun _ => .finishNamed _ _ _ _
  · exact .ite (h.methodCall _ _) (.refuse _)

/-- Indices between brackets. -/
lemma element (h : Composing g) (receiver : Node) (start : Position) :
    Composed (g.element receiver start) :=
  .bind .advance fun _ => .bind (.allowingDo (.items (h.parse _) _ _)) fun _ =>
    .bind (.finish _ _ _) fun _ => .finish _ _ _

/-- A report, and a block as if its `do` were there. -/
lemma openerlessBlock (h : Composing g) : Composed g.openerlessBlock :=
  .bind .current fun _ => .bind (.report _) fun _ => h.doBlockBehind _

/-- A call, a scoped name, an element or a block, or the end of the chain. -/
lemma link (h : Composing g) (start : Position) (n : Node) : Composed (g.link start n) := by
  have hview {f : State → Bool} {p : Parser (Round Node Node)} (hp : Composed p)
      (hf : ∀ (s : State) limits depth faults,
        f { s with limits := limits, depth := depth, faults := faults } = f s) (c : Bool) :
      Composed (do if c && (← Grammar.view f) then p else return .done n) :=
    .bind (.view hf) fun _ => .ite hp (.pure _)
  refine .bind .current fun _ => ?_
  split
  · exact .bind .drop fun _ => .bind (h.methodCall _ _) fun _ => .pure _
  · exact .bind .drop fun _ => .bind (h.methodCall _ _) fun _ => .pure _
  · exact .ite (.pure _) (.bind .drop fun _ => .bind (h.scopedName _ _) fun _ => .pure _)
  · exact .ite (.pure _) (.bind (h.element _ _) fun _ => .pure _)
  · exact .ite (.bind h.braceBlock fun _ => .pure _) (.pure _)
  · exact hview (.bind h.doBlock fun _ => .pure _) (fun _ _ _ _ => rfl) _
  · exact hview (.bind h.openerlessBlock fun _ => .pure _) (fun _ _ _ _ => rfl) _
  · exact .pure _

/-- An operand and its links. -/
lemma chain (h : Composing g) : Composed g.chain :=
  .bind .here fun _ => .bind h.operand fun _ => .iterate (h.link _) _ _

/-- A chain, and an exponent behind two stars. -/
lemma power (h : Composing g) : Composed g.power := by
  refine .bind .here fun _ => .bind h.chain fun _ => .bind (.accept _) fun _ => .ite ?_ (.pure _)
  exact .bind (.nested (h.parse _) (h.fails _ (by simp))) fun _ => .finishNamed _ _ _ _

/-- Prefix operators in front of a power. -/
lemma unary (h : Composing g) : Composed g.unary := by
  have hoperand : Composed (Grammar.nested (g.parse .unary)) :=
    .nested (h.parse _) (h.fails _ (by simp))
  refine .bind .here fun _ => .bind .kind fun _ => ?_
  split
  · exact .bind .drop fun _ => .bind hoperand fun _ => .finish _ _ _
  · exact .bind .advance fun _ => .bind hoperand fun _ => .finishNamed _ _ _ _
  · exact .bind .advance fun _ => .bind hoperand fun _ => .finishNamed _ _ _ _
  · exact .bind .advance fun _ => .bind hoperand fun _ => .finishNamed _ _ _ _
  · exact h.power

/-- An operator that binds tightly enough with its right side, or the end of the operation. -/
lemma operatorRound (h : Composing g) (least : Level) (start : Position) (left : Node) :
    Composed (g.operatorRound least start left) := by
  have hright (l : Level) : Composed (Grammar.nested (g.parse (rightGoal l))) := by
    refine .nested (h.parse _) (h.fails _ fun stops => ?_)
    unfold rightGoal
    split
    · simp
    · simp
  refine .bind .kind fun _ => ?_
  split
  · refine .ite (.pure _) (.bind .drop fun _ => .bind (hright _) fun _ => ?_)
    exact .bind (.joined _ _ _ _) fun _ => .pure _
  · exact .pure _

/-- An operand and the operators behind it. -/
lemma binary (h : Composing g) (least : Level) : Composed (g.binary least) :=
  .bind .here fun _ => .bind h.unary fun _ => .iterate (h.operatorRound _ _) _ _

/-- Two ends with dots between them, only one of them, or no range. -/
lemma range (h : Composing g) : Composed g.range := by
  refine .bind .here fun start => .bind .kind fun _ => .ite ?_ ?_
  · exact .bind .advance fun _ => .bind (h.binary _) fun _ => .finishNamed _ _ _ _
  · refine .bind (h.binary _) fun lower => .bind .kind fun _ => .ite ?_ (.pure _)
    refine .bind .advance fun operator => .bind (.view fun _ _ _ _ => rfl) fun _ => ?_
    have hfinish (upper : List Node) : Composed
        (Grammar.finishNamed .range start operator.text (lower :: upper)) := .finishNamed _ _ _ _
    exact .ite (.bind (.one (h.binary _)) hfinish) (.bind (.pure _) hfinish)

/-- A condition, and two values behind a question mark. -/
lemma ternary (h : Composing g) : Composed g.ternary := by
  have hvalue : Composed (Grammar.nested (g.parse .ternary)) :=
    .nested (h.parse _) (h.fails _ (by simp))
  refine .bind .here fun _ => .bind h.range fun _ => .bind (.accept _) fun _ => .ite ?_ (.pure _)
  refine .bind .skipBreaks fun _ => .bind hvalue fun _ => .bind .skipBreaks fun _ => ?_
  refine .bind (.discard (.expect _)) fun _ => .bind .skipBreaks fun _ => ?_
  exact .bind hvalue fun _ => .finish _ _ _

/-! #### Expressions -/

/-- A splat or an expression. -/
lemma assignedValue (h : Composing g) : Composed g.assignedValue := by
  refine .bind (.check _) fun _ => .ite (.bind .here fun _ => .bind .drop fun _ => ?_) (h.parse _)
  exact .bind (h.parse _) fun _ => .finish _ _ _

/-- A choice, and a value behind an equals sign or an operator with one. -/
lemma assignment (h : Composing g) : Composed g.assignment := by
  refine .bind .here fun _ => .bind h.ternary fun _ => .bind .kind fun _ => ?_
  split
  · exact .bind (.assignable _) fun _ => .bind .drop fun _ => .bind h.assignedValue fun _ =>
      .finish _ _ _
  · exact .bind (.assignable _) fun _ => .bind .advance fun _ => .bind h.assignedValue fun _ =>
      .finishNamed _ _ _ _
  · exact .pure _

/-- An assignment one level deeper. -/
lemma expression (h : Composing g) : Composed g.expression :=
  .nested h.assignment (fails_assignment g)

/-- An operator and what it spreads, if anything. -/
lemma spreadArgument (h : Composing g) (k : NodeKind) : Composed (g.spreadArgument k) := by
  refine .bind .here fun _ => .bind .drop fun _ => .bind (.view fun _ _ _ _ => rfl) fun _ => ?_
  exact .ite (.bind (h.parse _) fun _ => .finish _ _ _) (.finish _ _ _)

/-- An expression, and a value if an arrow follows. -/
lemma plainArgument (h : Composing g) : Composed g.plainArgument := by
  refine .bind .here fun _ => .bind h.expression fun _ => .bind (.accept _) fun _ => ?_
  refine .ite (.bind .skipBreaks fun _ => ?_) (.pure _)
  exact .bind (h.parse _) fun _ => .finish _ _ _

/-- A pair, a spread argument or a plain one. -/
lemma argument (h : Composing g) : Composed g.argument := by
  refine .bind .kind fun _ => ?_
  split
  · exact h.spreadArgument _
  · exact .ite h.labelPair h.plainArgument

/-! #### Statements -/

/-- Targets in parentheses, a splat, or a chain that can be assigned to. -/
lemma target (h : Composing g) : Composed g.target := by
  have htarget : Composed (do assignable (← Grammar.chain g)) :=
    .bind h.chain fun _ => .assignable _
  refine .bind .here fun _ => .bind .kind fun _ => ?_
  split
  · refine .bind .drop fun _ => .bind .kind fun _ => .ite (.finish _ _ _) ?_
    exact .bind h.chain fun _ => .bind (.assignable _) fun _ => .finish _ _ _
  · exact .bind .drop fun _ => .bind (h.parse _) fun _ => .bind (.discard (.expect _)) fun _ =>
      .pure _
  · exact htarget

/-- Targets with commas between them. -/
lemma targets (h : Composing g) (closer : Option TokenKind) : Composed (g.targets closer) := by
  have hround (seen : List Node) : Composed (do
      let seen := (← Grammar.target g) :: seen
      if ← Grammar.accept (.punct .comma) then
        let k ← Grammar.kind
        if k == .punct .eq || closer == some k then return Round.done seen.reverse
        else return .again seen
      else return .done seen.reverse) :=
    .bind h.target fun _ => .bind (.accept _) fun _ =>
      .ite (.bind .kind fun _ => .ite (.pure _) (.pure _)) (.pure _)
  exact .bind .here fun _ => .bind (.iterate hround _ _) fun _ => .finish _ _ _

/-- Targets, an equals sign and values. -/
lemma multipleAssignment (h : Composing g) : Composed g.multipleAssignment :=
  .bind .here fun _ => .bind (h.targets _) fun _ => .bind (.discard (.expect _)) fun _ =>
    .bind .here fun _ => .bind (.separated (.pure _) h.assignedValue _) fun _ =>
      .bind (.arrayOf _ _) fun _ => .finish _ _ _

/-- A `not` and an expression, or an expression. -/
lemma notExpression (h : Composing g) : Composed g.notExpression := by
  refine .bind (.check _) fun _ => .ite (.bind .here fun _ => .bind .drop fun _ => ?_) h.expression
  exact .bind (.nested (h.parse _) (h.fails _ (by simp))) fun _ => .finish _ _ _

/-- Expressions with `and` and `or` between them. -/
lemma junctions (h : Composing g) : Composed g.junctions := by
  refine .bind .here fun _ => .bind h.notExpression fun _ => .iterate (fun _ => ?_) _ _
  refine .bind .kind fun _ => ?_
  split
  · exact .bind .drop fun _ => .bind h.notExpression fun _ => .bind (.finish _ _ _) fun _ => .pure _
  · exact .pure _

/-- A multiple assignment or a junction. -/
lemma expressionStatement (h : Composing g) : Composed g.expressionStatement :=
  .bind (.view fun _ _ _ _ => rfl) fun _ => .ite h.multipleAssignment h.junctions

/-- A statement without modifiers and the modifiers behind it, one level deeper. -/
lemma statement (h : Composing g) : Composed g.statement := by
  refine .nested (.bind .here fun _ => .bind h.expressionStatement fun _ => ?_)
    (.view fun _ => (fails_expressionStatement g).bind)
  refine .iterate (fun _ => .bind .kind fun _ => ?_) _ _
  split
  · exact .bind .drop fun _ => .bind h.expressionStatement fun _ => .bind (.finish _ _ _) fun _ =>
      .pure _
  · exact .pure _

/-- A statement, and the recovery from its fault. -/
lemma listedStatement (h : Composing g) (stops : List TokenKind) (seen : List Node) :
    Composed (g.listedStatement stops seen) := by
  refine .bind .current fun first => ?_
  refine .recover h.statement (fun _ => .behindStatement _ _) ?_ fun _ => rfl
  exact .bind (.giveUp _) fun _ => .pure _

/-- A statement, a token that is reported and passed over, or the end of the list. -/
lemma statementRound (h : Composing g) (stops : List TokenKind) (seen : List Node) :
    Composed (g.statementRound stops seen) := by
  refine .bind .skipTerminators fun _ => .bind .kind fun _ => .ite (.pure _) (.ite ?_ ?_)
  · exact .bind (.reportUnexpected _) fun _ => .bind .drop fun _ => .pure _
  · exact h.listedStatement _ _

/-- Statements up to a token that ends them. -/
lemma statements (h : Composing g) (stops : List TokenKind) : Composed (g.statements stops) :=
  .bind .here fun _ => .bind (.iterate (h.statementRound _) _ _) fun _ => .pure _

/-! #### All goals -/

/-- Every goal is put together so, if the goals inside it are. -/
lemma step (h : Composing g) (goal : Goal) : Composed (g.step goal) := by
  cases goal with
  | statements stops => exact h.statements stops
  | statement => exact h.statement
  | expressionStatement => exact h.expressionStatement
  | notExpression => exact h.notExpression
  | expression => exact h.expression
  | ternary => exact h.ternary
  | binary level => exact h.binary level
  | unary => exact h.unary
  | chain => exact h.chain
  | targets closer => exact h.targets closer
  | argument => exact h.argument
  | parameter inBlock => exact h.parameter inBlock
  | branch keyword => exact h.branch keyword

end Composing

/-- However many levels the grammar goes in, its productions are put together so. -/
theorem composing_production (levels rounds : ℕ) : Composing ⟨rounds, production levels⟩ := by
  induction levels generalizing rounds with
  | zero => exact ⟨fun _ => .fail _, fun _ _ => .throw _⟩
  | succ levels ih => exact ⟨(ih _).step, (ih _).fails_step⟩

/-- A whole program is put together so, however deep it may go. -/
theorem composed_program (levels : ℕ) : Composed (program levels) :=
  .bind .here fun _ => .bind (.inScope _ ((composing_production levels 0).parse _)) fun _ =>
    .bind .current fun _ => .pure _

end RubyCheck.Grammar
