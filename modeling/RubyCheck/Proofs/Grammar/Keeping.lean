import RubyCheck.Proofs.Grammar.Keeps

/-!
# What every production keeps

Goal by goal: if the goals inside a production stay at their places, and give what is apt there, so
does the production.  What is read one level deeper, and what therefore fits there, is told by
`Goal.Given`.
-/

namespace RubyCheck.Grammar

open Tape

/-- What is given for a goal at a place. -/
def Goal.Given (e : Place) : Goal → Node → Prop
  | .statements _ | .statement | .expression => e.deeper.Apt
  | .argument => e.Item
  | .parameter _ => e.Bound
  | .branch keyword => fun n => e.Begins keyword.span.start → n.kind = .if_ ∧ e.Apt n
  | _ => e.Apt

/-- The goals inside a production stay at their places, and give what is apt there. -/
structure Keeping (g : Grammar) : Prop where
  parse (e : Place) (goal : Goal) : Keeps e true true (goal.Given e) (g.parse goal)

variable {e : Place} {b : Bool}

namespace Keeping

variable {g : Grammar}

/-! ### Arguments -/

/-- Arguments in parentheses are the elements of one node; a `do` among them is free again. -/
lemma parenArguments (h : Keeping g) : Keeps e b true e.Apt g.parenArguments :=
  .bind .advance fun _ hopener =>
    .bind (.allowingDo (.items hopener (h.parse e .argument) _)) fun _ hitems =>
      .finish hopener (fun m hm => (hitems m hm).apt) rfl

/-- Arguments without parentheses are the elements of one node, which begins at the first of them. -/
lemma commandArguments (h : Keeping g) : Keeps e true true e.Apt g.commandArguments :=
  .here fun _ hstart =>
    .bind (.withholdingDo (.separated .skipBreaks (h.parse e .argument) _)) fun _ hitems =>
      .finish hstart (fun m hm => (hitems m hm).apt) rfl

/-- A call has one node of arguments or none. -/
lemma callArguments (h : Keeping g) : Keeps e true true (∀ m ∈ ·, e.Apt m) g.callArguments :=
  .see fun _ => .ite h.parenArguments.one
    (.see fun _ => .ite h.commandArguments.one .nil)

/-- A bare name is a leaf, or a call that carries its arguments. -/
lemma bareName (h : Keeping g) : Keeps e b true e.Apt g.bareName :=
  .here fun _ hstart => .bind .advance fun _ _ => .see fun _ =>
    .ite ((Keeps.leaf _ rfl).mono fun _ => .of_deeper)
      (.bind h.callArguments fun _ hns => .finishNamed hstart hns rfl)

/-- A constant is a leaf, or a call that carries its arguments. -/
lemma constant (h : Keeping g) : Keeps e b true e.Apt g.constant :=
  .here fun _ hstart => .bind .advance fun _ _ => .see fun _ =>
    .ite (.bind h.parenArguments fun _ hn =>
        .finishNamed hstart (List.forall_mem_singleton.mpr hn) rfl)
      ((Keeps.leaf _ rfl).mono fun _ => .of_deeper)

/-- A keyword that calls carries its arguments. -/
lemma keywordCall (h : Keeping g) {k : NodeKind} (hk : k.carries = true) :
    Keeps e b true e.Apt (g.keywordCall k) :=
  .here fun _ hstart => .bind .drop fun _ _ => .bind h.callArguments fun _ hns =>
    .finish hstart hns hk

/-- The value of a pair is read one level deeper, and so is a pair. -/
lemma labelPair (h : Keeping g) {s : State} (hs : Stands e b s) (hkind : s.tape.kind = .label) :
    Meets e b true e.deeper.Apt (g.labelPair s) := by
  have hkey : (Node.leaf .symbol s.tape.current.span (labelName s.tape.current.text)).Spelled
      e.tokens := ⟨_, hs.tape.current_mem, _, .label hkind, rfl⟩
  have hbehind (t : Token) (key : Node) (hkey : e.deeper.Apt key) :
      Keeps e true true e.deeper.Apt (do
        let value ←
          if endsLabel (← Grammar.kind) then
            Grammar.leaf (if ← Grammar.view (·.isLocal (labelName t.text)) then
              .localVariable else .call) (labelName t.text)
          else g.parse .expression
        Grammar.finish .pair s.tape.current.span.start [key, value]) := by
    refine .see fun _ => .ite (.see fun c => ?_) ?_
    · refine .bind (.leaf (k := if c then .localVariable else .call) _ ?_) fun _ hvalue => ?_
      · split
        · rfl
        · rfl
      · exact .finish hs.begins (forall_mem_pair hkey hvalue) rfl
    · exact .bind (h.parse e .expression) fun _ hvalue =>
        .finish hs.begins (forall_mem_pair hkey hvalue) rfl
  have hpair := Keeps.leafThen (fun _ => .symbol) (fun t => labelName t.text) hs (by simp [hkind])
    (fun t _ ht => ⟨rfl, ht ▸ hkey⟩) hbehind
  exact hpair

/-! ### Bodies -/

/-- A condition takes no block where a `do` may separate it from its statements, and that separator is
read with it. -/
lemma condition (h : Keeping g) {keyword : Token} (doMayStand : Bool) :
    Keeps e true true e.Apt (g.condition keyword doMayStand) := by
  have hbehind (node : Node) (hnode : e.Apt node) :
      Keeps e true true e.Apt (do separator keyword doMayStand; return node) :=
    .bind (.separator _) fun _ _ => .pure hnode
  unfold Grammar.condition
  exact .ite (.bind (.withholdingDo (h.parse e .expressionStatement)) hbehind)
    (.bind (h.parse e .expressionStatement) hbehind)

/-- Statements stand where the list of them does, although each of them is read one level deeper. -/
lemma statementsHere (h : Keeping g) (stops : List TokenKind) :
    Keeps e true true e.Apt (g.parse (.statements stops)) :=
  (h.parse e (.statements stops)).mono fun _ => .of_deeper

/-- A clause carries its statements and begins at its keyword. -/
lemma clause (h : Keeping g) {k : NodeKind} (hk : k.carries = true) (stops : List TokenKind) :
    Keeps e true true e.Apt (g.clause k stops) :=
  .here fun _ hstart => .bind .drop fun _ _ => .bind (h.statementsHere _) fun _ hn =>
    .finish hstart (List.forall_mem_singleton.mpr hn) hk

/-- A clause that may be missing is a list of one or none. -/
lemma clauseIf (h : Keeping g) (keyword : Keyword) {k : NodeKind} (hk : k.carries = true)
    (stops : List TokenKind) :
    Keeps e true true (∀ m ∈ ·, e.Apt m) (g.clauseIf keyword k stops) :=
  .see fun _ => .ite (h.clause hk _).one .nil

/-- What stands behind `else` is a clause that may be missing. -/
lemma elseBranch (h : Keeping g) : Keeps e true true (∀ m ∈ ·, e.Apt m) g.elseBranch :=
  h.clauseIf _ rfl _

/-- A `rescue` clause carries its classes, its variable and its statements. -/
lemma rescueClause (h : Keeping g) : Keeps e true true e.Apt g.rescueClause := by
  refine .bind .advance fun keyword hkeyword => .here fun start hstart => .see fun k => ?_
  have hclasses {classes : List Node} (hns : ∀ m ∈ classes, e.Apt m) : Keeps e true true e.Apt (do
      let classes ← Grammar.finish .arguments start classes
      let target ←
        if ← accept (.punct .fatArrow) then (do return [← assignable (← g.parse .chain)])
        else pure []
      separator keyword false
      let body ← g.parse (.statements bodyStops)
      Grammar.finish .rescueClause keyword.span.start (classes :: target ++ [body])) := by
    refine .bind (.finish hstart hns rfl) fun classes hclasses => .bind (.accept _) fun _ _ => ?_
    have htarget {target : List Node} (hns : ∀ m ∈ target, e.Apt m) : Keeps e true true e.Apt (do
        separator keyword false
        let body ← g.parse (.statements bodyStops)
        Grammar.finish .rescueClause keyword.span.start (classes :: target ++ [body])) := by
      refine .bind (.separator _) fun _ _ => .bind (h.statementsHere _) fun body hbody =>
        .finish hkeyword ?_ rfl
      exact List.forall_mem_append.mpr
        ⟨List.forall_mem_cons.mpr ⟨hclasses, hns⟩, List.forall_mem_singleton.mpr hbody⟩
    refine .ite (.bind ?_ fun _ => htarget) (.bind .nil fun _ => htarget)
    exact .bind (h.parse e .chain) fun _ hn => (Keeps.assignable hn).one
  exact .ite (.bind .nil fun _ => hclasses)
    (.bind (.separated .skipBreaks (h.parse e .ternary) _) fun _ => hclasses)

/-- The `rescue` clauses are gathered one by one. -/
lemma rescueClauses (h : Keeping g) : Keeps e true true (∀ m ∈ ·, e.Apt m) g.rescueClauses := by
  refine .list (fun seen hseen => .see fun _ => .ite ?_ ?_) _
  · exact .bind h.rescueClause fun _ hn => .pure (List.forall_mem_cons.mpr ⟨hn, hseen⟩)
  · exact .pure (Keeps.forall_mem_reverse hseen)

/-- A body gives its statements and clauses, with the `end` of the opener behind them. -/
lemma body (h : Keeping g) {opener : Token} (hopener : e.Begins opener.span.start) :
    Keeps e true true (∀ m ∈ ·, e.Apt m) (g.body opener) := by
  refine .bind (h.statementsHere _) fun _ hstatements => .bind h.rescueClauses fun _ hrescues => ?_
  refine .bind (h.clauseIf _ rfl _) fun _ helse => .bind (h.clauseIf _ rfl _) fun _ hensure => ?_
  refine .bind (.expectEnd hopener) fun _ _ => .pure (List.forall_mem_cons.mpr ⟨hstatements, ?_⟩)
  exact List.forall_mem_append.mpr ⟨List.forall_mem_append.mpr ⟨hrescues, helse⟩, hensure⟩

/-! ### Parameters and blocks -/

/-- A default value is a goal of its own, between bars a tighter one. -/
lemma defaultValue (h : Keeping g) (inBlock : Bool) :
    Keeps e true true e.Apt (g.defaultValue inBlock) := by
  cases inBlock with
  | true => exact h.parse e .unary
  | false => exact h.parse e .ternary

/-- Each of the parameters in parentheses binds a name. -/
lemma parameterList (h : Keeping g) {opener : Token} (hopener : e.Begins opener.span.start) :
    Keeps e true true (∀ m ∈ ·, e.Bound m) (g.parameterList opener) :=
  .items hopener (h.parse e (.parameter false)) _

/-- A parameter behind a star binds its name, or stands alone. -/
lemma spreadParameter {start : Position} (hstart : e.Begins start) : Keeps e b true e.Bound (do
    Grammar.drop
    if ← Grammar.check .identifier then
      let name := (← Grammar.advance).text
      Grammar.declare name
      Grammar.finishNamed .parameter start name []
    else Grammar.finishNamed .parameter start "" []) := by
  refine .bind .drop fun _ _ => .see fun _ => .ite ?_ (.finishParameter hstart (by simp))
  exact .bind .advance fun _ _ => .bind (.declare _) fun _ _ => .finishParameter hstart (by simp)

/-- A parameter binds a name, and carries its default value. -/
lemma parameter (h : Keeping g) (inBlock : Bool) :
    Keeps e b true e.Bound (g.parameter inBlock) := by
  refine .here fun start hstart => .see fun _ => ?_
  have hvalue : Keeps e true true (∀ m ∈ ·, e.Apt m) (do return [← g.defaultValue inBlock]) :=
    (h.defaultValue inBlock).one
  split
  · refine .bind .advance fun _ _ => .bind (.declare _) fun _ _ => .bind (.accept _) fun _ _ => ?_
    exact .ite (.bind hvalue fun _ hns => .finishParameter hstart hns)
      (.bind .nil fun _ hns => .finishParameter hstart hns)
  · refine .bind .advance fun _ _ => .bind (.declare _) fun _ _ => .see fun _ => ?_
    exact .ite (.bind .nil fun _ hns => .finishParameter hstart hns)
      (.bind hvalue fun _ hns => .finishParameter hstart hns)
  · exact spreadParameter hstart
  · exact spreadParameter hstart
  · exact spreadParameter hstart
  · exact .bind .drop fun _ _ => .view fun _ hs =>
      ⟨.of_children hs.previous_begins rfl (by simp [Node.leaf]), by simp [Node.binds_eq, Node.leaf]⟩
  · exact .bind .advance fun _ hopener => .bind (h.parameterList hopener) fun _ hns =>
      .finishGroup hstart hns
  · exact .refuse _

/-- Each of the parameters without parentheses binds a name. -/
lemma bareParameters (h : Keeping g) :
    Keeps e true true (∀ m ∈ ·, e.Bound m) g.bareParameters :=
  .separated (.pure trivial) (h.parameter _) _

/-- Each of the parameters between bars binds a name. -/
lemma barredParameters (h : Keeping g) :
    Keeps e true true (∀ m ∈ ·, e.Bound m) g.barredParameters := by
  refine .list (fun seen hseen => .see fun _ => .ite ?_ ?_) _
  · exact .pure (Keeps.forall_mem_reverse hseen)
  · exact .bind (h.parameter _) fun _ hn =>
      .unlessComma (.pure trivial) (List.forall_mem_cons.mpr ⟨hn, hseen⟩)

/-- Each variable of a block binds a name. -/
lemma blockLocals : Keeps e true true (∀ m ∈ ·, e.Bound m) g.blockLocals :=
  .bind (.accept _) fun _ _ => .ite (.separated (.pure trivial) .blockLocal _) .nil

/-- The parameters and variables of a block are the children of one node. -/
lemma blockParameters (h : Keeping g) :
    Keeps e true true (∀ m ∈ ·, e.Apt m) g.blockParameters := by
  refine .here fun start hstart => .bind (.accept _) fun _ _ =>
    .ite (.one (.finishBound hstart (by simp) (.inr rfl))) (.see fun _ => .ite ?_ .nil)
  refine .bind .advance fun opener hopener => .bind h.barredParameters fun _ hparameters =>
    .bind blockLocals fun _ hlocals => .bind (.closingBar hopener) fun _ _ => .one ?_
  exact .finishBound hstart (List.forall_mem_append.mpr ⟨hparameters, hlocals⟩) (.inr rfl)

/-- The statements between braces are one node, with a scope around it. -/
lemma bracedStatements (h : Keeping g) {opener : Token} (hopener : e.Begins opener.span.start) :
    Keeps e true true e.Apt (g.bracedStatements opener) :=
  .bind (h.statementsHere _) fun _ hn => .bind (.expectCloser hopener _) fun _ _ => .pure hn

/-- A block between braces carries its parameters and statements. -/
lemma braceBlock (h : Keeping g) : Keeps e b true e.Apt g.braceBlock := by
  refine .bind .advance fun opener hopener => .inScope _ (.allowingDo ?_)
  refine .bind h.blockParameters fun _ hns => .bind (h.bracedStatements hopener) fun _ hn => ?_
  exact .finish hopener (List.forall_mem_append.mpr ⟨hns, List.forall_mem_singleton.mpr hn⟩) rfl

/-- A block behind `do` carries its parameters and its body. -/
lemma doBlockBehind (h : Keeping g) {opener : Token} (hopener : e.Begins opener.span.start) :
    Keeps e true true e.Apt (g.doBlockBehind opener) :=
  .inScope _ <| .allowingDo <| .bind h.blockParameters fun _ hns =>
    .bind (h.body hopener) fun _ hbody =>
      .finish hopener (List.forall_mem_append.mpr ⟨hns, hbody⟩) rfl

/-- A block between `do` and `end` begins at the `do`. -/
lemma doBlock (h : Keeping g) : Keeps e b true e.Apt g.doBlock :=
  .bind .advance fun _ hopener => h.doBlockBehind hopener

/-- The parameters of an anonymous function are one node, or none. -/
lemma lambdaParameters (h : Keeping g) :
    Keeps e true true (∀ m ∈ ·, e.Apt m) g.lambdaParameters := by
  refine .here fun start hstart => .see fun _ => .ite ?_ (.ite .nil ?_)
  · exact .bind .advance fun _ hopener => .bind (h.parameterList hopener) fun _ hns =>
      .one (.finishBound hstart hns (.inr rfl))
  · exact .bind h.bareParameters fun _ hns => .one (.finishBound hstart hns (.inr rfl))

/-- The body of an anonymous function stands in braces or behind `do`. -/
lemma lambdaBody (h : Keeping g) : Keeps e true true (∀ m ∈ ·, e.Apt m) g.lambdaBody := by
  refine .see fun _ => ?_
  split
  · exact .bind .advance fun _ hopener => (h.bracedStatements hopener).one
  · exact .bind .advance fun _ hopener => h.body hopener
  · exact .refuse _

/-- An anonymous function carries its parameters and its body. -/
lemma lambda (h : Keeping g) : Keeps e b true e.Apt g.lambda :=
  .bind .advance fun _ harrow => .inScope _ <| .allowingDo <|
    .bind h.lambdaParameters fun _ hns => .bind h.lambdaBody fun _ hbody =>
      .finish harrow (List.forall_mem_append.mpr ⟨hns, hbody⟩) rfl

/-! ### Control flow -/

/-- A branch begins where its keyword does, wherever that stands. -/
lemma branch (h : Keeping g) (keyword : Token) :
    Keeps e true true (Goal.Given e (.branch keyword)) (g.branch keyword) := by
  refine .bind (h.condition _) fun test htest => .bind (h.statementsHere _) fun body hbody => ?_
  have hfinish (ns : List Node) (hns : ∀ m ∈ ns, e.Apt m) :
      Keeps e true true (Goal.Given e (.branch keyword))
        (Grammar.finish .if_ keyword.span.start (test :: body :: ns)) :=
    .view fun _ _ hkeyword => ⟨rfl, .of_children hkeyword rfl
      (List.forall_mem_cons.mpr ⟨htest, List.forall_mem_cons.mpr ⟨hbody, hns⟩⟩)⟩
  refine .see fun _ => .ite (.bind .advance fun keyword hkeyword => .bind (.one ?_) hfinish)
    (.bind h.elseBranch hfinish)
  exact .mono (.nested (h.parse e.deeper (.branch keyword))) fun _ hn => .of_deeper (hn hkeyword).2

/-- An `if` is the branch behind its keyword, where the keyword has been consumed. -/
lemma conditional (h : Keeping g) : Keeps e b true e.Apt g.conditional := by
  refine .bind .advance fun _ hopener => .bind (h.branch _) fun n hn => ?_
  obtain ⟨hkind, hn⟩ := hn hopener
  refine .bind (.expectEnd hopener) fun _ _ => .see fun _ => .pure (hn.congr rfl rfl rfl ?_)
  change n.kind.isSpelled = false
  rw [hkind]
  rfl

/-- An `unless` carries its condition and both branches. -/
lemma negatedConditional (h : Keeping g) : Keeps e b true e.Apt g.negatedConditional :=
  .bind .advance fun _ hopener => .bind (h.condition _) fun _ htest =>
    .bind (h.statementsHere _) fun _ hbody => .bind h.elseBranch fun _ helse =>
      .bind (.expectEnd hopener) fun _ _ => .finish hopener
        (List.forall_mem_cons.mpr ⟨htest, List.forall_mem_cons.mpr ⟨hbody, helse⟩⟩) rfl

/-- The body of a loop is the statements up to its `end`. -/
lemma loopBody (h : Keeping g) {opener : Token} (hopener : e.Begins opener.span.start) :
    Keeps e true true e.Apt (g.loopBody opener) :=
  .bind (h.statementsHere _) fun _ hn => .bind (.expectEnd hopener) fun _ _ => .pure hn

/-- A `while` carries its condition and its body. -/
lemma conditionLoop (h : Keeping g) {k : NodeKind} (hk : k.carries = true) :
    Keeps e b true e.Apt (g.conditionLoop k) :=
  .bind .advance fun _ hopener => .bind (h.condition _) fun _ htest =>
    .bind (h.loopBody hopener) fun _ hbody => .finish hopener (forall_mem_pair htest hbody) hk

/-- The variables of a `for` are targets, several of them in a node of their own. -/
lemma loopTarget (h : Keeping g) : Keeps e true true e.Apt g.loopTarget :=
  .see fun _ => .ite (h.parse e (.targets none))
    (.bind (h.parse e .chain) fun _ hn => .assignable hn)

/-- A `for` carries its variables, what it goes through and its body. -/
lemma iteration (h : Keeping g) : Keeps e b true e.Apt g.iteration := by
  refine .bind .advance fun _ hopener => .bind h.loopTarget fun _ htarget => ?_
  refine .bind (.discard (.expect _)) fun _ _ => .bind (h.condition _) fun _ hsource => ?_
  exact .bind (h.loopBody hopener) fun _ hbody => .finish hopener
    (List.forall_mem_cons.mpr ⟨htarget, forall_mem_pair hsource hbody⟩) rfl

/-- What stands in a clause is its statements, behind `then` or a line break. -/
lemma clauseBody (h : Keeping g) {keyword : Token} :
    Keeps e true true e.Apt (g.clauseBody keyword) :=
  .bind (.separator _) fun _ _ => h.statementsHere _

/-- A `when` carries its values and its statements. -/
lemma valueClause (h : Keeping g) : Keeps e b true e.Apt g.valueClause := by
  refine .bind .advance fun _ hkeyword => .here fun _ hstart => ?_
  refine .bind (.separated .skipBreaks (h.parse e .argument) _) fun _ hvalues => ?_
  refine .bind (.finish hstart (fun m hm => (hvalues m hm).apt) rfl) fun _ hvalues => ?_
  exact .bind h.clauseBody fun _ hbody => .finish hkeyword (forall_mem_pair hvalues hbody) rfl

/-- A guard makes a node of the pattern, which begins where the pattern does. -/
lemma guarded (h : Keeping g) {start : Position} {pattern : Node} (hstart : e.Begins start)
    (hpattern : e.Apt pattern) : Keeps e true true e.Apt (g.guarded start pattern) := by
  refine .see fun k => ?_
  split
  · rename_i kind hkind
    refine .bind .drop fun _ _ => .bind (h.parse e .expression) fun _ hn =>
      .finish hstart (forall_mem_pair hpattern (.of_deeper hn)) ?_
    unfold guardKind? at hkind
    split at hkind
    all_goals cases hkind
    · rfl
    · rfl
  · exact .pure hpattern

/-- An `in` carries its pattern and its statements. -/
lemma patternClause (h : Keeping g) : Keeps e b true e.Apt g.patternClause := by
  refine .bind .advance fun _ hkeyword => .here fun _ hstart => ?_
  refine .bind (.separated (.pure trivial) (h.parse e .argument) _) fun _ helements => ?_
  refine .bind (.arrayOf hstart helements) fun _ hpattern => ?_
  refine .bind (h.guarded hstart hpattern) fun _ hpattern => .bind h.clauseBody fun _ hbody => ?_
  exact .finish hkeyword (forall_mem_pair hpattern hbody) rfl

/-- The clauses of a `case` are gathered one by one. -/
lemma clauses (h : Keeping g) : Keeps e true true (∀ m ∈ ·, e.Apt m) g.clauses := by
  refine .list (fun seen hseen => .see fun _ => ?_) _
  split
  · exact .bind h.valueClause fun _ hn => .pure (List.forall_mem_cons.mpr ⟨hn, hseen⟩)
  · exact .bind h.patternClause fun _ hn => .pure (List.forall_mem_cons.mpr ⟨hn, hseen⟩)
  · exact .pure (Keeps.forall_mem_reverse hseen)

/-- A `case` carries its subject, its clauses and its `else`. -/
lemma choice (h : Keeping g) : Keeps e b true e.Apt g.choice := by
  refine .bind .advance fun opener hopener => .see fun _ => ?_
  have hbehind (subject : List Node) (hsubject : ∀ m ∈ subject, e.Apt m) :
      Keeps e true true e.Apt (do
        Grammar.skipTerminators
        let clauses ← Grammar.clauses g
        let otherwise ← Grammar.elseBranch g
        Grammar.expectEnd opener
        Grammar.finish .case_ opener.span.start (subject ++ clauses ++ otherwise)) := by
    refine .bind .skipTerminators fun _ _ => .bind h.clauses fun _ hclauses => ?_
    refine .bind h.elseBranch fun _ helse => .bind (.expectEnd hopener) fun _ _ =>
      .finish hopener ?_ rfl
    exact List.forall_mem_append.mpr ⟨List.forall_mem_append.mpr ⟨hsubject, hclauses⟩, helse⟩
  exact .ite (.bind .nil hbehind) (.bind (.one (h.parse e .expressionStatement)) hbehind)

/-- A `begin` carries its body. -/
lemma protectedBody (h : Keeping g) : Keeps e b true e.Apt g.protectedBody :=
  .bind .advance fun _ hopener => .bind (h.body hopener) fun _ hns => .finish hopener hns rfl

/-- A keyword that leaves a construct carries its values. -/
lemma jump (h : Keeping g) {k : NodeKind} (hk : k.carries = true) :
    Keeps e b true e.Apt (g.jump k) := by
  refine .here fun _ hstart => .bind .drop fun _ _ => .see fun _ => .ite ?_ ?_
  · refine .here fun _ hvalues => .bind (.separated .skipBreaks (h.parse e .argument) _) ?_
    exact fun _ hns => .bind (.arrayOf hvalues hns) fun _ hn =>
      .finish hstart (List.forall_mem_singleton.mpr hn) hk
  · exact .finish hstart (by simp) hk

/-- What is tested between parentheses is a statement without modifiers. -/
lemma definedOperand (h : Keeping g) : Keeps e true true e.Apt g.definedOperand :=
  .bind .advance fun _ hopener => .bind (.allowingDo (h.parse e .expressionStatement)) fun _ hn =>
    .bind .skipBreaks fun _ _ => .bind (.expectCloser hopener _) fun _ _ => .pure hn

/-- The operand of `defined?` is read where the test stands. -/
lemma definedTest (h : Keeping g) : Keeps e b true e.Apt g.definedTest := by
  refine .here fun _ hstart => .bind .drop fun _ _ => .see fun _ => .ite ?_ ?_
  · exact .bind h.definedOperand fun _ hn => .finish hstart (List.forall_mem_singleton.mpr hn) rfl
  · exact .bind (h.parse e .unary) fun _ hn => .finish hstart (List.forall_mem_singleton.mpr hn) rfl

/-! ### Literals -/

/-- Code inside a literal carries its statements. -/
lemma interpolation (h : Keeping g) : Keeps e b true e.Apt g.interpolation :=
  .here fun _ hstart => .bind .drop fun _ _ => .bind (.allowingDo (h.statementsHere _)) fun _ hn =>
    .bind (.discard (.expect _)) fun _ _ => .finish hstart (List.forall_mem_singleton.mpr hn) rfl

/-- Each piece of a literal adds content or code to what was read of it. -/
lemma piece (h : Keeping g) {seen : String × List Node} (hseen : ∀ m ∈ seen.2, e.Apt m) :
    Keeps e true true (Round.Holds (∀ m ∈ ·.2, e.Apt m) (∀ m ∈ ·.2, e.Apt m)) (g.piece seen) := by
  refine .see fun _ => ?_
  split
  · exact .bind .advance fun _ _ => .pure hseen
  · exact .bind h.interpolation fun _ hn => .pure (List.forall_mem_cons.mpr ⟨hn, hseen⟩)
  · exact .bind .drop fun _ _ => .pure (Keeps.forall_mem_reverse hseen)
  · exact .refuse _

/-- A piece of a literal is contents, code, or the end. -/
lemma piece_cases {seen : String × List Node}
    {round : Round (String × List Node) (String × List Node)} {s s' : State}
    (hread : g.piece seen s = .ok round s') :
    (s.tape.kind = .stringContent ∧ s' = { s with tape := s.tape.advance } ∧
      round = .again (seen.1 ++ s.tape.advance.previous.text, seen.2)) ∨
    (∃ n, round = .again (seen.1, n :: seen.2)) ∨
    (s.tape.kind = .stringEnd ∧ s' = { s with tape := s.tape.advance } ∧
      round = .done (seen.1, seen.2.reverse)) := by
  obtain ⟨k, s₀, hk, hread⟩ := exists_of_bind hread
  obtain ⟨hkind, rfl⟩ : s.tape.kind = k ∧ s₀ = s := by cases hk; exact ⟨rfl, rfl⟩
  cases k with
  | stringContent =>
    cases hread
    exact .inl ⟨hkind, rfl, rfl⟩
  | interpolationBegin =>
    obtain ⟨n, s₁, -, hread⟩ := exists_of_bind hread
    cases hread
    exact .inr (.inl ⟨n, rfl⟩)
  | stringEnd =>
    cases hread
    exact .inr (.inr ⟨hkind, rfl, rfl⟩)
  | _ => cases hread

/-- If no code was found in a literal, all that was read are its contents and its closer. -/
lemma contents_of_pieces {rounds : ℕ} {seen : String × List Node} {text : String} {s s' : State}
    (hread : iterate (Grammar.piece g) rounds seen s = .ok (text, []) s') :
    seen.2 = [] ∧ (s.tape.Ends → ∃ contents closer rest,
      s.tape.current :: s.tape.ahead = contents ++ closer :: rest ∧
      (∀ t ∈ contents, t.kind = .stringContent) ∧ closer.kind = .stringEnd ∧
      text = seen.1 ++ String.join (contents.map (·.text)) ∧ s'.tape.previous = closer) := by
  induction rounds generalizing seen s with
  | zero => cases hread
  | succ rounds ih =>
    obtain ⟨round, s₁, hpiece, hread⟩ := exists_of_bind hread
    rcases piece_cases hpiece with ⟨hkind, rfl, rfl⟩ | ⟨n, rfl⟩ | ⟨hkind, rfl, rfl⟩
    · obtain ⟨hcode, hrest⟩ := ih hread
      refine ⟨hcode, fun hends => ?_⟩
      have hmore := hends.consumable (by simp [hkind])
      obtain ⟨contents, closer, rest, htokens, hcontents, hcloser, rfl, hprevious⟩ :=
        hrest (onward_ends.steps hmore.steps hends)
      refine ⟨s.tape.current :: contents, closer, rest, ?_,
        List.forall_mem_cons.mpr ⟨hkind, hcontents⟩, hcloser, ?_, hprevious⟩
      · obtain ⟨consumed, t, u, us, htape, -, hadvance⟩ := hmore.exists_advance
        rw [hadvance] at htokens
        rw [htape]
        exact congrArg (t :: ·) htokens
      · rw [hmore.previous_advance, List.map_cons, String.join_cons, String.append_assoc]
    · exact absurd (ih hread).1 (List.cons_ne_nil _ _)
    · have hdone : EStateM.Result.ok (ε := Failure) (seen.1, seen.2.reverse)
          { s with tape := s.tape.advance } = .ok (text, []) s' := hread
      simp only [EStateM.Result.ok.injEq, Prod.mk.injEq, List.reverse_eq_nil_iff] at hdone
      obtain ⟨⟨rfl, hcode⟩, rfl⟩ := hdone
      refine ⟨hcode, fun hends => ⟨[], s.tape.current, s.tape.ahead, rfl, by simp, hkind, ?_, ?_⟩⟩
      · exact String.append_empty.symm
      · exact (hends.consumable (by simp [hkind])).previous_advance

/-- A string or a regular expression is written as its tokens are, unless code stands in it. -/
lemma quoted (h : Keeping g) {k : NodeKind} {opening : TokenKind}
    (hk : k = .string ∧ opening = .stringBegin ∨ k = .regex ∧ opening = .regexBegin) {s : State}
    (hs : Stands e b s) (hkind : s.tape.kind = opening) : Meets e b true e.Apt (g.quoted k s) := by
  have hspelled {n : Node} (hn : n.kind = k) (h : n.Quoted e.tokens opening) :
      n.kind.deepens = false ∧ n.Spelled e.tokens := by
    rcases hk with ⟨rfl, rfl⟩ | ⟨rfl, rfl⟩
    · refine ⟨hn ▸ rfl, ?_⟩
      rw [Node.Spelled, hn]
      exact .inr h
    · refine ⟨hn ▸ rfl, ?_⟩
      rw [Node.Spelled, hn]
      exact h
  have hopens : s.tape.kind ≠ .eof := by
    rcases hk with ⟨-, rfl⟩ | ⟨-, rfl⟩
    · simp [hkind]
    · simp [hkind]
  have hmore := hs.tape.ends.consumable hopens
  have hmoved : Stands e true { s with tape := s.tape.advance } := hs.move hs.tape.advance
  have hpieces := (Keeps.rounds (fun _ => h.piece) g.rounds (a := ("", [])) (by simp)).run hmoved
  have hquoted : g.quoted k s = (iterate (Grammar.piece g) g.rounds ("", []) >>= fun seen =>
      if seen.2.isEmpty then Grammar.finishNamed k s.tape.current.span.start seen.1 []
      else Grammar.finish k s.tape.current.span.start seen.2) { s with tape := s.tape.advance } :=
    rfl
  rw [hquoted, bind_eq]
  cases hread : iterate (Grammar.piece g) g.rounds ("", []) { s with tape := s.tape.advance } with
  | error failure s' =>
    rw [hread] at hpieces
    exact hpieces.failed.weaken fun _ => rfl
  | ok seen s' =>
    rw [hread] at hpieces
    obtain ⟨text, code⟩ := seen
    obtain ⟨hns, hs'⟩ := hpieces
    cases code with
    | nil =>
      obtain ⟨contents, closer, rest, htokens, hcontents, hcloser, htext, hprevious⟩ :=
        (contents_of_pieces hread).2 hmoved.tape.ends
      have hinfix : (⟨s.tape.current, contents, closer⟩ : Quotation).tokens <:+: e.tokens := by
        obtain ⟨before, htokens'⟩ := hs.tape.suffix
        refine ⟨before, rest, ?_⟩
        rw [← htokens', hmore.current_ahead, htokens]
        simp [Quotation.tokens]
      have hquoted : (Node.mk k (s'.spanFrom s.tape.current.span.start) (some text) []).Quoted
          e.tokens opening := by
        intro _ hsome
        obtain rfl := Option.some.inj hsome
        refine ⟨⟨s.tape.current, contents, closer⟩, hinfix, ⟨hkind, hcontents, hcloser⟩, ?_⟩
        simp [Quotation.span, Quotation.body, State.spanFrom, hprevious, htext]
      obtain ⟨hdeepens, hspelled⟩ := hspelled rfl hquoted
      exact ⟨.of_spelled hs.begins hdeepens hspelled (List.forall_mem_nil _), hs'⟩
    | cons n ns =>
      have hquoted : (Node.inner k (s'.spanFrom s.tape.current.span.start) (n :: ns)).Quoted
          e.tokens opening := by simp [Node.Quoted, Node.inner]
      obtain ⟨hdeepens, hspelled⟩ := hspelled rfl hquoted
      exact ⟨.of_spelled hs.begins hdeepens hspelled hns, hs'⟩

/-- The elements of an array are read one level deeper. -/
lemma array (h : Keeping g) : Keeps e b true e.Apt g.array :=
  .bind .advance fun _ hopener =>
    .bind (.allowingDo (.items hopener (h.parse e .argument) _)) fun _ hns =>
      .finishItems hopener hns rfl

/-- A pair of a hash is one level deeper, and what is merged into it is spread. -/
lemma hashItem (h : Keeping g) : Keeps e true true e.Item (g.hashItem) := by
  refine .here fun start hstart => .kind fun s hs => ?_
  by_cases hlabel : s.tape.kind = .label
  · rw [hlabel]
    exact (h.labelPair hs hlabel).mono fun _ => .of_deeper
  refine Keeps.run ?_ hs
  split
  · exact absurd ‹_› hlabel
  · refine .bind .drop fun _ _ => .bind (h.parse e .ternary) fun _ hn => ?_
    exact .finishSpread hstart (List.forall_mem_singleton.mpr hn) rfl rfl
  · refine .bind (h.parse e .expression) fun _ hkey => .bind (.discard (.expect _)) fun _ _ => ?_
    refine .bind .skipBreaks fun _ _ => .bind (h.parse e .expression) fun _ hvalue => ?_
    exact .mono (V := e.deeper.Apt) (.finish hstart (forall_mem_pair hkey hvalue) rfl) fun _ =>
      .of_deeper

/-- The pairs of a hash are its elements. -/
lemma hash (h : Keeping g) : Keeps e b true e.Apt g.hash :=
  .bind .advance fun _ hopener => .bind (.allowingDo (.items hopener h.hashItem _)) fun _ hns =>
    .finishItems hopener hns rfl

/-- The statements in parentheses are read one level deeper. -/
lemma paren (h : Keeping g) : Keeps e b true e.Apt g.paren :=
  .bind .advance fun _ hopener => .bind (.allowingDo (h.parse e (.statements _))) fun _ hn =>
    .bind (.expectCloser hopener _) fun _ _ =>
      .finishItems hopener (List.forall_mem_singleton.mpr (.of_deeper hn)) rfl

/-! ### Definitions -/

/-- The parameters of a method are one node, with parentheses or without. -/
lemma methodParameters (h : Keeping g) : Keeps e true true e.Apt g.methodParameters := by
  refine .here fun start hstart => .see fun _ => ?_
  have hfinish (ns : List Node) (hns : ∀ m ∈ ns, e.Bound m) :
      Keeps e true true e.Apt (Grammar.finish .parameters start ns) :=
    .finishBound hstart hns (.inl rfl)
  refine .ite (.bind (.bind .advance fun _ hopener => h.parameterList hopener) hfinish) ?_
  exact .ite (.bind .nil hfinish) (.bind h.bareParameters hfinish)

/-- The body of a method is a body with clauses, or a single statement behind an equals sign. -/
lemma methodBody (h : Keeping g) {opener : Token} (hopener : e.Begins opener.span.start) :
    Keeps e true true (∀ m ∈ ·, e.Apt m) (g.methodBody opener) := by
  refine .bind (.accept _) fun _ _ => .ite (.bind .skipBreaks fun _ _ => ?_) (h.body hopener)
  refine .bind (h.parse e .statement) fun value hvalue => .pure (List.forall_mem_singleton.mpr ?_)
  have happt : e.Apt value := .of_deeper hvalue
  exact .of_children happt.begins rfl (List.forall_mem_singleton.mpr happt)

/-- A method carries its parameters and its body, which stand in a scope of their own. -/
lemma method (h : Keeping g) : Keeps e b true e.Apt g.method :=
  .bind .advance fun _ hopener => .bind .methodName fun _ _ => .inScope _ <| .allowingDo <|
    .bind h.methodParameters fun _ hn => .bind (h.methodBody hopener) fun _ hbody =>
      .finishNamed hopener (List.forall_mem_cons.mpr ⟨hn, hbody⟩) rfl

/-- A path of constants gives a text, and no node. -/
lemma constantPath : Keeps e true true (fun _ => True) g.constantPath := by
  have hround (path : String) : Keeps e true true (Round.Holds (fun _ => True) fun _ => True) (do
      if ← Grammar.view fun s => s.tape.kind == .punct .colonColon && !s.tape.current.spaced then
        Grammar.drop
        return Round.again (path ++ "::" ++ (← Grammar.expect .constant).text)
      else return .done path) :=
    .see fun _ => .ite
      (.bind .drop fun _ _ => .bind (.expect _) fun _ _ => .pure trivial) (.pure trivial)
  exact .bind (.accept _) fun _ _ => .bind (.expect _) fun _ _ =>
    .rounds (fun path _ => hround path) _ trivial

/-- The body of a class stands in a closed scope. -/
lemma scopedBody (h : Keeping g) {opener : Token} (hopener : e.Begins opener.span.start) :
    Keeps e true true (∀ m ∈ ·, e.Apt m) (g.scopedBody opener) :=
  .inScope _ (.allowingDo (h.body hopener))

/-- A class carries its superclass and its body. -/
lemma classDefinition (h : Keeping g) : Keeps e b true e.Apt g.classDefinition := by
  refine .bind .advance fun opener hopener => .bind (.accept _) fun _ _ => .ite ?_ ?_
  · refine .bind (h.parse e .expression) fun _ htarget => .bind (h.scopedBody hopener) ?_
    exact fun _ hbody => .finish hopener (List.forall_mem_cons.mpr ⟨.of_deeper htarget, hbody⟩) rfl
  · refine .bind constantPath fun name _ => .bind (.accept _) fun _ _ => ?_
    have hbehind (parent : List Node) (hparent : ∀ m ∈ parent, e.Apt m) :
        Keeps e true true e.Apt (do
          let body ← Grammar.scopedBody g opener
          Grammar.finishNamed .classDef opener.span.start name (parent ++ body)) :=
      .bind (h.scopedBody hopener) fun _ hbody =>
        .finishNamed hopener (List.forall_mem_append.mpr ⟨hparent, hbody⟩) rfl
    refine .ite (.bind (.one ?_) hbehind) (.bind .nil hbehind)
    exact (h.parse e .expression).mono fun _ => .of_deeper

/-- A module carries its body. -/
lemma moduleDefinition (h : Keeping g) : Keeps e b true e.Apt g.moduleDefinition :=
  .bind .advance fun _ hopener => .bind constantPath fun _ _ =>
    .bind (h.scopedBody hopener) fun _ hbody => .finishNamed hopener hbody rfl

/-- An `undef` carries the methods that it names. -/
lemma undef : Keeps e b true e.Apt g.undef :=
  .here fun _ hstart => .bind .drop fun _ _ =>
    .bind (.separated (.pure trivial) .methodReference _) fun _ hns => .finish hstart hns rfl

/-- A hook carries the statements between its braces. -/
lemma hook (h : Keeping g) {k : NodeKind} (hk : k.carries = true) :
    Keeps e b true e.Apt (g.hook k) :=
  .bind .advance fun _ hkeyword => .bind (.expect _) fun _ hopener =>
    .bind (.inScope _ (.allowingDo (h.statementsHere _))) fun _ hn =>
      .bind (.expectCloser hopener _) fun _ _ =>
        .finish hkeyword (List.forall_mem_singleton.mpr hn) hk

/-! ### Operands -/

/-- A `not` in front of an operand carries it. -/
lemma negation (h : Keeping g) : Keeps e b true e.Apt g.negation :=
  .here fun _ hstart => .bind .drop fun _ _ => .bind (h.parse e .expression) fun _ hn =>
    .finishItems hstart (List.forall_mem_singleton.mpr (.of_deeper hn)) rfl

/-- Every keyword that begins an operand does so by one of the productions above, or is refused. -/
lemma keywordOperand (h : Keeping g) (word : Keyword) :
    Keeps e b true e.Apt (g.keywordOperand word) := by
  cases word with
  | nil_ | true_ | false_ | self_ | redo_ | retry_ => exact .takeAs _ rfl
  | def_ => exact h.method
  | class_ => exact h.classDefinition
  | module_ => exact h.moduleDefinition
  | alias_ => exact .alias_
  | undef_ => exact undef
  | beginHook | endHook => exact h.hook rfl
  | if_ => exact h.conditional
  | unless_ => exact h.negatedConditional
  | while_ | until_ => exact h.conditionLoop rfl
  | for_ => exact h.iteration
  | case_ => exact h.choice
  | begin_ => exact h.protectedBody
  | return_ | break_ | next_ => exact h.jump rfl
  | yield_ | super_ => exact h.keywordCall rfl
  | defined_ => exact h.definedTest
  | not_ => exact h.negation
  | and_ | do_ | else_ | elsif_ | end_ | ensure_ | in_ | or_ | rescue_ | then_ | when_ =>
    exact .refuse _

/-- Every mark that begins an operand does so by one of the productions above, or is refused. -/
lemma markOperand (h : Keeping g) (mark : Punct) : Keeps e b true e.Apt (g.markOperand mark) := by
  unfold Grammar.markOperand
  split
  · exact .outermostConstant
  · exact h.array
  · exact h.hash
  · exact h.paren
  · exact h.lambda
  · exact .refuse _

/-- An operand is told by its first token. -/
lemma operand (h : Keeping g) : Keeps e b true e.Apt g.operand := by
  refine .kind fun s hs => ?_
  cases hkind : s.tape.kind with
  | integer | legacyOctal =>
    refine Keeps.takeSpelled (fun _ => .integer) Token.text hs (by simp [hkind]) ?_
    exact fun t ht hcurrent => ⟨rfl, t, ht, by simp_all [Tape.kind], rfl⟩
  | float =>
    refine Keeps.takeSpelled (fun _ => .float) Token.text hs (by simp [hkind]) ?_
    exact fun t ht hcurrent => ⟨rfl, t, ht, hcurrent ▸ hkind, rfl⟩
  | character =>
    refine Keeps.takeSpelled (fun _ => .character) Token.text hs (by simp [hkind]) ?_
    exact fun t ht hcurrent => ⟨rfl, t, ht, hcurrent ▸ hkind, rfl⟩
  | percentLiteral => exact Keeps.percentLiteral hs hkind
  | stringBegin => exact h.quoted (.inl ⟨rfl, rfl⟩) hs hkind
  | regexBegin => exact h.quoted (.inr ⟨rfl, rfl⟩) hs hkind
  | symbol => exact Keeps.symbol hs hkind
  | identifier => exact h.bareName.run hs
  | constant => exact h.constant.run hs
  | instanceVariable | classVariable | globalVariable => exact (Keeps.takeLeaf rfl).run hs
  | keyword word => exact (h.keywordOperand word).run hs
  | punct mark => exact (h.markOperand mark).run hs
  | stringContent | stringEnd | interpolationBegin | interpolationEnd
  | label | opAssign | newline | eof => exact (Keeps.refuse _).run hs

/-! ### Chains and operations -/

/-- A call with a receiver begins where the receiver does, and carries it. -/
lemma methodCall (h : Keeping g) {receiver : Node} {start : Position} (hstart : e.Begins start)
    (hreceiver : e.Apt receiver) : Keeps e true true e.Apt (g.methodCall receiver start) :=
  .bind .calledName fun _ _ => .bind h.callArguments fun _ hns =>
    .finishNamed hstart (List.forall_mem_cons.mpr ⟨hreceiver, hns⟩) rfl

/-- What stands behind two colons begins where its scope does. -/
lemma scopedName (h : Keeping g) {scope : Node} {start : Position} (hstart : e.Begins start)
    (hscope : e.Apt scope) : Keeps e true true e.Apt (g.scopedName scope start) := by
  refine .see fun _ => .see fun _ => .ite ?_ (.ite (h.methodCall hstart hscope) (.refuse _))
  exact .bind .advance fun _ _ => .finishNamed hstart (List.forall_mem_singleton.mpr hscope) rfl

/-- An element carries its receiver and its indices. -/
lemma element (h : Keeping g) {receiver : Node} {start : Position} (hstart : e.Begins start)
    (hreceiver : e.Apt receiver) : Keeps e true true e.Apt (g.element receiver start) := by
  refine .bind .advance fun _ hopener =>
    .bind (.allowingDo (.items hopener (h.parse e .argument) _)) fun _ hns => ?_
  refine .bind (.finish hopener (fun m hm => (hns m hm).apt) rfl) fun _ harguments => ?_
  exact .finish hstart (forall_mem_pair hreceiver harguments) rfl

/-- A block without its opener begins at the bar, and its fault is raised there. -/
lemma openerlessBlock (h : Keeping g) : Keeps e true true e.Apt g.openerlessBlock := by
  refine .current fun bar hbar => .bind (.report ?_) fun _ _ => h.doBlockBehind hbar
  obtain ⟨t, ht, hstart⟩ := hbar
  exact ⟨⟨t, ht, .inl hstart⟩, rfl⟩

/-- A link of a chain begins where the chain does. -/
lemma link (h : Keeping g) {start : Position} {n : Node} (hstart : e.Begins start) (hn : e.Apt n) :
    Keeps e true true (Round.Holds e.Apt e.Apt) (g.link start n) := by
  have hdone : Keeps e true true (Round.Holds e.Apt e.Apt) (return .done n) := .pure hn
  have hblock {block : Parser Node} (hblock : Keeps e true true e.Apt block) :
      takesBlock n = true → Keeps e true true (Round.Holds e.Apt e.Apt)
        (do return .again (withBlock n (← block))) := fun htakes =>
    .bind hblock fun _ hm => .pure (hn.withBlock hm htakes)
  refine .current fun t _ => ?_
  split
  · exact .bind .drop fun _ _ => .bind (h.methodCall hstart hn) fun _ hm => .pure hm
  · exact .bind .drop fun _ _ => .bind (h.methodCall hstart hn) fun _ hm => .pure hm
  · exact .ite hdone (.bind .drop fun _ _ => .bind (h.scopedName hstart hn) fun _ hm => .pure hm)
  · exact .ite hdone (.bind (h.element hstart hn) fun _ hm => .pure hm)
  · exact .dite (hblock h.braceBlock) hdone
  · exact .see fun c => .dite (fun htakes => hblock h.doBlock (by simp_all)) hdone
  · exact .see fun c => .dite (fun htakes => hblock h.openerlessBlock (by simp_all)) hdone
  · exact hdone

/-- A chain begins at its operand, and each of its links is apt if the chain before was. -/
lemma chain (h : Keeping g) : Keeps e b true e.Apt g.chain :=
  .here fun _ hstart => .bind h.operand fun _ hn =>
    .rounds (fun _ => h.link hstart) _ hn

/-- A power carries its base and its exponent. -/
lemma power (h : Keeping g) : Keeps e b true e.Apt g.power := by
  refine .here fun _ hstart => .bind h.chain fun _ hbase => .bind (.accept _) fun _ _ => ?_
  refine .ite (.bind (.nested (h.parse e.deeper .unary)) fun _ hn => ?_) (.pure hbase)
  exact .finishNamed hstart (forall_mem_pair hbase (.of_deeper hn)) rfl

/-- The operand of a prefix operator is read one level deeper. -/
lemma unary (h : Keeping g) : Keeps e b true e.Apt g.unary := by
  have hoperand : Keeps e true true (∀ m ∈ [·], e.Item m) (Grammar.nested (g.parse .unary)) :=
    .mono (.nested (h.parse e.deeper .unary)) fun _ hn =>
      List.forall_mem_singleton.mpr (.of_deeper hn)
  refine .here fun _ hstart => .see fun _ => ?_
  split
  · exact .bind .drop fun _ _ => .bind hoperand fun _ hn => .finishItems hstart hn rfl
  · exact .bind .advance fun _ _ => .bind hoperand fun _ hn => .finishItemsNamed hstart hn rfl
  · exact .bind .advance fun _ _ => .bind hoperand fun _ hn => .finishItemsNamed hstart hn rfl
  · exact .bind .advance fun _ _ => .bind hoperand fun _ hn => .finishItemsNamed hstart hn rfl
  · exact h.power

/-- One more operator begins where the operation before it does. -/
lemma operatorRound (h : Keeping g) {start : Position} {left : Node} (hstart : e.Begins start)
    (hleft : e.Apt left) (least : Level) :
    Keeps e true true (Round.Holds e.Apt e.Apt) (g.operatorRound least start left) := by
  have hright (l : Level) : Keeps e true true e.Apt (Grammar.nested (g.parse (rightGoal l))) := by
    refine .mono (.nested (h.parse e.deeper (rightGoal l))) fun _ hn => ?_
    unfold rightGoal at hn
    split at hn
    · exact .of_deeper hn
    · exact .of_deeper hn
  refine .see fun _ => ?_
  split
  · refine .ite (.pure hleft) (.bind .drop fun _ _ => .bind (hright _) fun _ hn => ?_)
    exact .bind (.joined hstart hleft hn _) fun _ hm => .pure hm
  · exact .pure hleft

/-- An operation is built from its leftmost operand, one operator at a time. -/
lemma binary (h : Keeping g) (least : Level) : Keeps e b true e.Apt (g.binary least) :=
  .here fun _ hstart => .bind h.unary fun _ hn =>
    .rounds (fun _ hn => h.operatorRound hstart hn least) _ hn

/-- A range carries the ends that it has. -/
lemma range (h : Keeping g) : Keeps e b true e.Apt g.range := by
  refine .here fun start hstart => .see fun _ => .ite ?_ ?_
  · exact .bind .advance fun _ _ => .bind (h.binary _) fun _ hn =>
      .finishNamed hstart (List.forall_mem_singleton.mpr hn) rfl
  · refine .bind (h.binary _) fun lower hlower => .see fun _ => .ite ?_ (.pure hlower)
    refine .bind .advance fun operator _ => .see fun _ => ?_
    have hfinish (upper : List Node) (hupper : ∀ m ∈ upper, e.Apt m) : Keeps e true true e.Apt
        (Grammar.finishNamed .range start operator.text (lower :: upper)) :=
      .finishNamed hstart (List.forall_mem_cons.mpr ⟨hlower, hupper⟩) rfl
    exact .ite (.bind (.one (h.binary _)) hfinish) (.bind .nil hfinish)

/-- A choice carries its condition and both values. -/
lemma ternary (h : Keeping g) : Keeps e b true e.Apt g.ternary := by
  have hvalue : Keeps e true true e.Apt (Grammar.nested (g.parse .ternary)) :=
    .mono (.nested (h.parse e.deeper .ternary)) fun _ => .of_deeper
  refine .here fun _ hstart => .bind h.range fun _ htest => .bind (.accept _) fun _ _ => ?_
  refine .ite (.bind .skipBreaks fun _ _ => .bind hvalue fun _ hyes => ?_) (.pure htest)
  refine .bind .skipBreaks fun _ _ => .bind (.discard (.expect _)) fun _ _ => ?_
  refine .bind .skipBreaks fun _ _ => .bind hvalue fun _ hno => ?_
  exact .finish hstart (List.forall_mem_cons.mpr ⟨htest, forall_mem_pair hyes hno⟩) rfl

/-! ### Expressions -/

/-- What is assigned is an expression, or a splat of one. -/
lemma assignedValue (h : Keeping g) : Keeps e true true e.Item g.assignedValue := by
  refine .see fun _ => .ite (.here fun _ hstart => .bind .drop fun _ _ => ?_) ?_
  · exact .bind (h.parse e .ternary) fun _ hn =>
      .finishSpread hstart (List.forall_mem_singleton.mpr hn) rfl rfl
  · exact (h.parse e .expression).mono fun _ => .of_deeper

/-- An assignment carries its target and its value. -/
lemma assignment (h : Keeping g) : Keeps e b true e.Apt g.assignment := by
  refine .here fun _ hstart => .bind h.ternary fun _ hleft => .see fun _ => ?_
  split
  · refine .bind (.assignable hleft) fun _ htarget => .bind .drop fun _ _ => ?_
    exact .bind h.assignedValue fun _ hvalue =>
      .finish hstart (forall_mem_pair htarget hvalue.apt) rfl
  · refine .bind (.assignable hleft) fun _ htarget => .bind .advance fun _ _ => ?_
    exact .bind h.assignedValue fun _ hvalue =>
      .finishNamed hstart (forall_mem_pair htarget hvalue.apt) rfl
  · exact .pure hleft

/-- An expression is read one level deeper, if the limit allows it. -/
lemma expression (h : Keeping g) : Keeps e b true e.deeper.Apt g.expression :=
  .nested h.assignment

/-- An argument that is spread is read where it stands, and not one level deeper. -/
lemma spreadArgument (h : Keeping g) {k : NodeKind} (hspreads : k.spreads = true)
    (hk : k.carries = true) : Keeps e b true e.Item (g.spreadArgument k) := by
  refine .here fun _ hstart => .bind .drop fun _ _ => .see fun _ => .ite ?_ ?_
  · exact .bind (h.parse e .ternary) fun _ hn =>
      .finishSpread hstart (List.forall_mem_singleton.mpr hn) hspreads hk
  · exact .finishSpread hstart (by simp) hspreads hk

/-- An argument is an expression, or a key with its value. -/
lemma plainArgument (h : Keeping g) : Keeps e b true e.Item g.plainArgument := by
  refine .here fun _ hstart => .bind h.expression fun _ hkey => .bind (.accept _) fun _ _ => ?_
  refine .ite (.bind .skipBreaks fun _ _ => .bind (h.parse e .expression) fun _ hvalue => ?_)
    (.pure (.of_deeper hkey))
  exact .mono (V := e.deeper.Apt) (.finish hstart (forall_mem_pair hkey hvalue) rfl) fun _ =>
    .of_deeper

/-- An argument is spread or plain. -/
lemma argument (h : Keeping g) : Keeps e b true e.Item g.argument := by
  refine .kind fun s hs => ?_
  by_cases hlabel : s.tape.kind = .label
  · rw [hlabel]
    exact (h.labelPair hs hlabel).mono fun _ => .of_deeper
  refine Keeps.run ?_ hs
  split
  · rename_i spread hspread
    unfold spreadKind? at hspread
    split at hspread
    all_goals cases hspread
    · exact h.spreadArgument rfl rfl
    · exact h.spreadArgument rfl rfl
    · exact h.spreadArgument rfl rfl
  · rw [if_neg (by simpa using hlabel)]
    exact h.plainArgument

/-! ### Statements -/

/-- A target can be assigned to, or holds targets. -/
lemma target (h : Keeping g) : Keeps e b true e.Apt g.target := by
  refine .here fun _ hstart => .see fun _ => ?_
  split
  · refine .bind .drop fun _ _ => .see fun _ => .ite (.finish hstart (by simp) rfl) ?_
    exact .bind h.chain fun _ hn => .bind (.assignable hn) fun _ hm =>
      .finish hstart (List.forall_mem_singleton.mpr hm) rfl
  · exact .bind .drop fun _ _ => .bind (h.parse e (.targets _)) fun _ hn =>
      .bind (.discard (.expect _)) fun _ _ => .pure hn
  · exact .bind h.chain fun _ hn => .assignable hn

/-- Targets in parentheses are read where the others are. -/
lemma targets (h : Keeping g) (closer : Option TokenKind) :
    Keeps e b true e.Apt (g.targets closer) := by
  have hround (b : Bool) (seen : List Node) (hseen : ∀ m ∈ seen, e.Apt m) :
      Keeps e b true (Keeps.Listed e.Apt) (do
        let seen := (← Grammar.target g) :: seen
        if ← Grammar.accept (.punct .comma) then
          let k ← Grammar.kind
          if k == .punct .eq || closer == some k then return Round.done seen.reverse
          else return .again seen
        else return .done seen.reverse) := by
    refine .bind h.target fun _ hn => .bind (.accept _) fun _ _ => ?_
    have hall := List.forall_mem_cons.mpr ⟨hn, hseen⟩
    exact .ite (.see fun _ => .ite (.pure (Keeps.forall_mem_reverse hall)) (.pure hall))
      (.pure (Keeps.forall_mem_reverse hall))
  exact .here fun _ hstart => .bind (.iterate (hround b) (hround true) _ (by simp)) fun _ hns =>
    .finish hstart hns rfl

/-- A multiple assignment carries its targets and its values. -/
lemma multipleAssignment (h : Keeping g) : Keeps e b true e.Apt g.multipleAssignment := by
  refine .here fun _ hstart => .bind (h.targets _) fun _ hleft => .bind (.discard (.expect _)) ?_
  refine fun _ _ => .here fun _ hvalues =>
    .bind (.separated (.pure trivial) h.assignedValue _) fun _ hns => ?_
  exact .bind (.arrayOf hvalues hns) fun _ hn => .finish hstart (forall_mem_pair hleft hn) rfl

/-- A `not` carries the expression behind it. -/
lemma notExpression (h : Keeping g) : Keeps e b true e.Apt g.notExpression := by
  refine .see fun _ => .ite (.here fun _ hstart => .bind .drop fun _ _ => ?_)
    (h.expression.mono fun _ => .of_deeper)
  exact .bind (.nested (h.parse e.deeper .notExpression)) fun _ hn =>
    .finishItems hstart (List.forall_mem_singleton.mpr (.of_deeper hn)) rfl

/-- Expressions are joined to the left, each junction beginning where the first expression does. -/
lemma junctions (h : Keeping g) : Keeps e b true e.Apt g.junctions := by
  refine .here fun start hstart => .bind h.notExpression fun _ hfirst =>
    .rounds (I := e.Apt) (fun left hleft => .see fun _ => ?_) _ hfirst
  split
  · rename_i k hk
    refine .bind .drop fun _ _ => .bind h.notExpression fun _ hright => ?_
    refine .bind (.finish hstart (forall_mem_pair hleft hright) ?_) fun _ hn => .pure hn
    unfold junctionKind? at hk
    split at hk
    all_goals cases hk
    · rfl
    · rfl
  · exact .pure hleft

/-- A statement is a multiple assignment, or a junction of expressions. -/
lemma expressionStatement (h : Keeping g) : Keeps e b true e.Apt g.expressionStatement :=
  .see fun _ => .ite h.multipleAssignment h.junctions

/-- A statement is read one level deeper, and its modifiers stand around it. -/
lemma statement (h : Keeping g) : Keeps e b true e.deeper.Apt g.statement := by
  refine .nested (.here fun start hstart => .bind h.expressionStatement fun _ hfirst =>
    .rounds (I := e.deeper.Apt) (fun inner hinner => .see fun _ => ?_) _ hfirst)
  split
  · rename_i k hk
    refine .bind .drop fun _ _ => .bind h.expressionStatement fun _ hoperand => ?_
    refine .bind (.finish hstart (forall_mem_pair hinner hoperand) ?_) fun _ hn => .pure hn
    unfold modifierKind? at hk
    split at hk
    all_goals cases hk
    all_goals rfl
  · exact .pure hinner

/-! ### Lists -/

/-- What is given up is one leaf, which may stand one level deeper. -/
lemma giveUp {first : Token} (hfirst : e.Begins first.span.start) :
    Keeps e b b e.deeper.Apt (giveUp first) := by
  refine .bind (.move Tape.steps_synchronize) (fun _ _ => .view fun s _ => ?_)
  refine .of_children ?_ rfl (by simp [State.errorNode, Node.inner])
  unfold State.errorNode
  split
  · exact hfirst
  · exact hfirst

/-- What is gathered in a list is one level deeper than the list, also where it is given up. -/
lemma listedStatement (h : Keeping g) (stops : List TokenKind) {seen : List Node}
    (hseen : ∀ m ∈ seen, e.deeper.Apt m) :
    Keeps e b b (Keeps.Listed e.deeper.Apt) (g.listedStatement stops seen) := by
  refine .current (fun first hfirst => .recover h.statement (fun node hnode => ?_) ?_)
  · have hall := List.forall_mem_cons.mpr ⟨hnode, hseen⟩
    refine .see fun _ => .ite (.pure hall) (.bind (.reportUnexpected _) fun _ _ => ?_)
    exact .current fun first hfirst => .bind (giveUp hfirst) fun _ hn =>
      .pure (List.forall_mem_cons.mpr ⟨hn, hall⟩)
  · exact fun f hf => .bind (.report hf) (fun _ _ => .bind (giveUp hfirst) (fun _ hn =>
      .pure (List.forall_mem_cons.mpr ⟨hn, hseen⟩)))

/-- A list of statements may end before anything was read. -/
lemma statementRound (h : Keeping g) (stops : List TokenKind) {seen : List Node}
    (hseen : ∀ m ∈ seen, e.deeper.Apt m) :
    Keeps e b b (Keeps.Listed e.deeper.Apt) (g.statementRound stops seen) := by
  refine .bind .skipTerminators (fun _ _ => .see (fun _ => .ite ?_ (.ite ?_ ?_)))
  · exact .pure (Keeps.forall_mem_reverse hseen)
  · exact .bind (.reportUnexpected _)
      (fun _ _ => .bind (.move Tape.steps_advance) (fun _ _ => .pure hseen))
  · exact h.listedStatement stops hseen

/-- Statements are one node, and each of them is read one level deeper. -/
lemma statements (h : Keeping g) (stops : List TokenKind) :
    Keeps e b b e.deeper.Apt (g.statements stops) := by
  refine .here (fun start hstart => .bind (.list (fun _ => h.statementRound stops) _) ?_)
  refine fun nodes hnodes => .pure (.of_children ?_ rfl hnodes)
  cases nodes with
  | nil => exact hstart
  | cons n ns =>
    cases hlast : (n :: ns).getLast? with
    | none => simp at hlast
    | some last =>
      simp only [Node.inner, spanOfEach, List.head?_cons, hlast]
      exact (hnodes n List.mem_cons_self).begins

/-! ### All goals -/

/-- Every goal keeps what is given for it. -/
lemma step (h : Keeping g) (e : Place) (goal : Goal) :
    Keeps e true true (goal.Given e) (g.step goal) := by
  cases goal with
  | statements stops => exact h.statements stops
  | statement => exact h.statement
  | expressionStatement => exact h.expressionStatement
  | notExpression => exact h.notExpression
  | expression => exact h.expression
  | ternary => exact h.ternary
  | binary level => exact h.binary level
  | unary => exact h.unary
  | chain => exact h.chain
  | targets closer => exact h.targets closer
  | argument => exact h.argument
  | parameter inBlock => exact h.parameter inBlock
  | branch keyword => exact h.branch keyword

end Keeping

/-- However many levels the grammar goes in, its productions stay at their places. -/
theorem keeping_production (levels rounds : ℕ) : Keeping ⟨rounds, production levels⟩ := by
  induction levels generalizing rounds with
  | zero => exact ⟨fun _ _ => ⟨id, fun _ _ => trivial⟩⟩
  | succ levels ih => exact ⟨(ih _).step⟩

end RubyCheck.Grammar
