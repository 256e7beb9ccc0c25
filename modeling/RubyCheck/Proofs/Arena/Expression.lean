import RubyCheck.Proofs.Arena.Construct
import RubyCheck.Proofs.Arena.Context

/-!
# Expressions and statements over an arena

Operands and what is chained to them, operations, assignments and statements, production by production.
-/

namespace RubyCheck.Arena

open Grammar (Round)

variable {greatest : Option ℕ} {w : Array Cell} {base : ℕ} {g : Productions} {g' : Grammar}
  {start : Position} {id : ℕ} {t : Node}

/-- One node for another, again and again. -/
abbrev NodeRounds (greatest : Option ℕ) (w : Array Cell) (base : ℕ) :
    Round ℕ ℕ → Round Node Node → Prop :=
  Turns (Own greatest w base) (Own greatest w base)

/-- What is put around a node again and again. -/
lemma Makes.growing {first : Parser NodeId} {first' : Grammar.Parser Node}
    {body : NodeId → Parser (Round NodeId NodeId)}
    {body' : Node → Grammar.Parser (Round Node Node)} (hfirst : Makes greatest first first')
    (hbody : ∀ w base id t, Own greatest w base id t →
      Runs greatest w base (fun w' => NodeRounds greatest w' base) (body id) (body' t))
    (rounds : ℕ) :
    Makes greatest (do iterate body rounds (← first)) (do Grammar.iterate body' rounds (← first')) :=
  fun _ => hfirst.bind fun _ _ _ _ hid => .iterate (fun w' => hbody w' _) rounds hid

/-- The name of a called method is read alike. -/
lemma Exact.calledName : Exact greatest Arena.calledName Grammar.calledName :=
  kind.bind fun _ => .ite (pure _) <| .ite (advance.bind fun _ => pure _) fun _ _ => .refuse _

namespace Matched

/-! ### Operands -/

/-- A constant behind a leading `::` makes one leaf. -/
lemma outermostConstant : Makes greatest Arena.outermostConstant Grammar.outermostConstant :=
  fun _ => Exact.here.runs fun _ => Exact.drop.runs fun _ => (Exact.expect _).runs fun _ =>
    .finishNamed .nil

/-- A minus before a number makes one leaf. -/
lemma negation (h : Matched greatest g g') :
    Makes greatest (Arena.negation g) (Grammar.negation g') := fun _ =>
  Exact.here.runs fun _ => Exact.drop.runs fun _ => (h.parse _).bind fun _ _ _ _ hid =>
    .finish (.cons hid .nil)

/-- Every operand that a keyword begins makes one node. -/
lemma keywordOperand (h : Matched greatest g g') (word : Keyword) :
    Makes greatest (Arena.keywordOperand g word) (Grammar.keywordOperand g' word) := by
  cases word with
  | nil_ | true_ | false_ | self_ | redo_ | retry_ => exact .takeAs
  | def_ => exact h.method
  | class_ => exact h.classDefinition
  | module_ => exact h.moduleDefinition
  | alias_ => exact .alias_
  | undef_ => exact h.undef
  | beginHook => exact h.hook _
  | endHook => exact h.hook _
  | if_ => exact h.conditional
  | unless_ => exact h.negatedConditional
  | while_ => exact h.conditionLoop _
  | until_ => exact h.conditionLoop _
  | for_ => exact h.iteration
  | case_ => exact h.choice
  | begin_ => exact h.protectedBody
  | return_ | break_ | next_ => exact h.jump _
  | yield_ | super_ => exact h.keywordCall _
  | defined_ => exact h.definedTest
  | not_ => exact h.negation
  | _ => exact fun _ => .refuse _

/-- Every operand that a mark begins makes one node. -/
lemma markOperand (h : Matched greatest g g') (mark : Punct) :
    Makes greatest (Arena.markOperand g mark) (Grammar.markOperand g' mark) := by
  cases mark with
  | colonColon => exact outermostConstant
  | lBracket => exact h.array
  | lBrace => exact h.hash
  | lParen => exact h.paren
  | arrow => exact h.lambda
  | _ => exact fun _ => .refuse _

/-- Every operand makes one node, whatever token begins it. -/
lemma operand (h : Matched greatest g g') :
    Makes greatest (Arena.operand g) (Grammar.operand g') := by
  refine fun w => Exact.kind.runs fun k => ?_
  cases k with
  | integer | legacyOctal | float | character | instanceVariable | classVariable |
    globalVariable => exact Makes.takeLeaf w
  | percentLiteral => exact Makes.percentLiteral w
  | stringBegin => exact h.quoted _ w
  | regexBegin => exact h.quoted _ w
  | symbol => exact Makes.symbol w
  | identifier => exact h.bareName w
  | constant => exact h.constant w
  | keyword word => exact h.keywordOperand word w
  | punct mark => exact h.markOperand mark w
  | _ => exact .refuse _

/-! ### Chains -/

/-- A call takes up the receiver that both machines own. -/
lemma methodCall (h : Matched greatest g g') (hid : Own greatest w base id t) :
    Runs greatest w base (fun w' id t => Own greatest w' base id t) (Arena.methodCall g id start)
      (Grammar.methodCall g' t start) :=
  Exact.calledName.runs fun _ => h.callArguments.bindAll fun _ _ _ hw hids =>
    .finishNamed (.cons (hid.grown hw) hids)

/-- A name behind `::` takes up its scope. -/
lemma scopedName (h : Matched greatest g g') (hid : Own greatest w base id t) :
    Runs greatest w base (fun w' id t => Own greatest w' base id t) (Arena.scopedName g id start)
      (Grammar.scopedName g' t start) :=
  Exact.next.runs fun _ => Exact.kind.runs fun _ =>
    .ite (Exact.advance.runs fun _ => .finishNamed (.cons hid .nil)) <|
      .ite (h.methodCall hid) (.refuse _)

/-- An index in brackets takes up what it is read from. -/
lemma element (h : Matched greatest g g') (hid : Own greatest w base id t) :
    Runs greatest w base (fun w' id t => Own greatest w' base id t) (Arena.element g id start)
      (Grammar.element g' t start) :=
  Exact.advance.runs fun _ => (h.items (h.parse _)).allowingDo.bindAll fun _ _ _ hw hids =>
    .behindFinish hids fun _ _ _ hw' harguments =>
      .finish (.cons ((hid.grown hw).grown hw') (.cons harguments .nil))

/-- A block without parameters before it makes one node. -/
lemma openerlessBlock (h : Matched greatest g g') :
    Makes greatest (Arena.openerlessBlock g) (Grammar.openerlessBlock g') := fun w =>
  Exact.current.runs fun _ => (Exact.report _).runs fun _ => h.doBlockBehind w

/-- A block behind a node that may take one. -/
lemma attached {block : Parser NodeId} {block' : Grammar.Parser Node}
    (hblock : Makes greatest block block') (hid : Own greatest w base id t) :
    Runs greatest w base (fun w' => NodeRounds greatest w' base)
      (do let block ← block; attach id block; return .again id)
      (do return .again (Grammar.withBlock t (← block'))) := fun hbase =>
  Runs.bind (hblock w) (fun _ _ _ hw hu =>
    .attach hid hw hu hbase fun _ hid => .pure (.again hid)) hbase

/-- A link takes up the chain so far, or ends it. -/
lemma link (h : Matched greatest g g') (hid : Own greatest w base id t) :
    Runs greatest w base (fun w' => NodeRounds greatest w' base) (Arena.link g start id)
      (Grammar.link g' start t) := by
  refine .sight (q := fun t => Grammar.link g' start t) hid fun c t hpeek hid _ => ?_
  refine Exact.current.runs fun u => ?_
  have hdone : Runs greatest w base (fun w' => NodeRounds greatest w' base)
      (pure (Round.done id)) (pure (Round.done t)) := .pure (.done hid)
  have htakes (m : Machine) (hnodes : m.nodes = w) :
      takesBlock id m = .ok (Grammar.takesBlock t) m := takesBlock_eq (hnodes ▸ hpeek)
  have hcall : Runs greatest w base (fun w' => NodeRounds greatest w' base)
      (do drop; return .again (← Arena.methodCall g id start))
      (do Grammar.drop; return .again (← Grammar.methodCall g' t start)) :=
    Exact.drop.runs fun _ => (h.methodCall hid).seq fun _ _ _ _ hid => .pure (.again hid)
  generalize u.kind = k
  cases k with
  | keyword word =>
    cases word with
    | do_ =>
      exact .known htakes (Exact.doAllowed.runs fun _ => .ite (attached h.doBlock hid) hdone)
    | _ => exact hdone
  | punct mark =>
    cases mark with
    | dot => exact hcall
    | ampDot => exact hcall
    | colonColon =>
      exact .ite hdone (Exact.drop.runs fun _ => (h.scopedName hid).seq fun _ _ _ _ hid =>
        .pure (.again hid))
    | lBracket =>
      refine .known (fun m hnodes => node_eq (hnodes ▸ hpeek.cell)) ?_
      rw [hpeek.kind]
      exact .ite hdone ((h.element hid).seq fun _ _ _ _ hid => .pure (.again hid))
    | lBrace => exact .known htakes (.ite (attached h.braceBlock hid) hdone)
    | pipe =>
      exact .known htakes (Exact.lacksBlockOpener.runs fun _ =>
        .ite (attached h.openerlessBlock hid) hdone)
    | _ => exact hdone
  | _ => exact hdone

/-- A chain of calls makes one node from its operand outwards. -/
lemma chain (h : Matched greatest g g') : Makes greatest (Arena.chain g) (Grammar.chain g') := by
  refine fun w => Exact.here.runs fun _ => ?_
  rw [h.rounds]
  exact h.operand.growing (fun _ _ _ _ hid => h.link hid) _ w

/-! ### Operations -/

/-- A power makes one node over base and exponent. -/
lemma power (h : Matched greatest g g') : Makes greatest (Arena.power g) (Grammar.power g') :=
  fun _ => Exact.here.runs fun _ => h.chain.bind fun _ _ _ _ hbase => (Exact.accept _).runs
    fun _ => .ite ((h.parse _).nested.bind fun _ _ _ hw hexponent =>
      .finishNamed (.cons (hbase.grown hw) (.cons hexponent .nil))) (.pure hbase)

/-- A unary operation makes one node over its operand. -/
lemma unary (h : Matched greatest g g') : Makes greatest (Arena.unary g) (Grammar.unary g') := by
  refine fun w => Exact.here.runs fun start => Exact.kind.runs fun k => ?_
  have hsign : Runs greatest w w.size (fun w' => Own greatest w' w.size)
      (do
        let operator := (← advance).text
        finishNamed .unary start operator [← nested (g.parse .unary)])
      (do
        let operator := (← Grammar.advance).text
        Grammar.finishNamed .unary start operator [← Grammar.nested (g'.parse .unary)]) :=
    Exact.advance.runs fun _ => (h.parse _).nested.bind fun _ _ _ _ hid =>
      .finishNamed (.cons hid .nil)
  cases k with
  | punct mark =>
    cases mark with
    | bang =>
      exact Exact.drop.runs fun _ => (h.parse _).nested.bind fun _ _ _ _ hid =>
        .finish (.cons hid .nil)
    | minus => exact hsign
    | plus => exact hsign
    | tilde => exact hsign
    | _ => exact h.power w
  | _ => exact h.power w

/-- Two owned operands are joined under one node. -/
lemma joined {operator : Punct} {left right : ℕ} {left' right' : Node}
    (hleft : Own greatest w base left left') (hright : Own greatest w base right right') :
    Runs greatest w base (fun w' id t => Own greatest w' base id t)
      (Arena.joined start operator left right) (Grammar.joined start operator left' right') := by
  have hboth : Owns greatest w base [left, right] [left', right'] := .cons hleft (.cons hright .nil)
  cases operator with
  | ampAmp => exact .finish hboth
  | pipePipe => exact .finish hboth
  | _ => exact .finishNamed hboth

/-- A round of operators joins the next operand or ends. -/
lemma operatorRound (h : Matched greatest g g') (least : Grammar.Level)
    (hid : Own greatest w base id t) :
    Runs greatest w base (fun w' => NodeRounds greatest w' base)
      (Arena.operatorRound g least start id) (Grammar.operatorRound g' least start t) := by
  refine Exact.kind.runs fun k => ?_
  cases Grammar.Level.ofToken? k with
  | none => exact .pure (.done hid)
  | some found =>
    exact .ite (.pure (.done hid)) (Exact.drop.runs fun _ => (h.parse _).nested.bind
      fun _ _ _ hw hright => (joined (hid.grown hw) hright).seq fun _ _ _ _ hid =>
        .pure (.again hid))

/-- Binary operations of one level and above make one node. -/
lemma binary (h : Matched greatest g g') (least : Grammar.Level) :
    Makes greatest (Arena.binary g least) (Grammar.binary g' least) := by
  refine fun w => Exact.here.runs fun _ => ?_
  rw [h.rounds]
  exact h.unary.growing (fun _ _ _ _ hid => h.operatorRound least hid) _ w

/-- A range makes one node over the ends it has. -/
lemma range (h : Matched greatest g g') : Makes greatest (Arena.range g) (Grammar.range g') := by
  refine fun _ => Exact.here.runs fun _ => Exact.kind.runs fun _ => .ite ?_ ?_
  · exact Exact.advance.runs fun _ => (h.binary _).bind fun _ _ _ _ hid =>
      .finishNamed (.cons hid .nil)
  · refine (h.binary _).bind fun _ _ _ _ hlower => Exact.kind.runs fun _ => .ite ?_ (.pure hlower)
    exact Exact.advance.runs fun _ => Exact.atOperand.runs fun _ =>
      (h.binary _).one.either .nil fun _ _ _ hw hupper => .finishNamed (.cons (hlower.grown hw) hupper)

/-- A choice by a question mark makes one node over its three parts. -/
lemma ternary (h : Matched greatest g g') :
    Makes greatest (Arena.ternary g) (Grammar.ternary g') := by
  refine fun _ => Exact.here.runs fun _ => h.range.bind fun _ _ _ _ htest =>
    (Exact.accept _).runs fun _ => .ite (Exact.skipBreaks.runs fun _ => ?_) (.pure htest)
  exact (h.parse _).nested.bind fun _ _ _ hw hyes => Exact.skipBreaks.runs fun _ =>
    (Exact.expect _).discard.runs fun _ => Exact.skipBreaks.runs fun _ =>
      (h.parse _).nested.bind fun _ _ _ hw' hno => .finish
        (.cons ((htest.grown hw).grown hw') (.cons (hyes.grown hw') (.cons hno .nil)))

/-! ### Expressions and arguments -/

/-- What is assigned makes one node, or an array where several values stand. -/
lemma assignedValue (h : Matched greatest g g') :
    Makes greatest (Arena.assignedValue g) (Grammar.assignedValue g') := fun w =>
  (Exact.check _).runs fun _ => .ite
    (Exact.here.runs fun _ => Exact.drop.runs fun _ => (h.parse _).bind fun _ _ _ _ hid =>
      .finish (.cons hid .nil))
    (h.parse _ w)

/-- An assignment makes one node over its target and its value. -/
lemma assignment (h : Matched greatest g g') :
    Makes greatest (Arena.assignment g) (Grammar.assignment g') := by
  refine fun _ => Exact.here.runs fun _ => h.ternary.bind fun _ _ _ _ hleft =>
    Exact.kind.runs fun k => ?_
  cases k with
  | punct mark =>
    cases mark with
    | eq =>
      exact (Runs.assignable hleft).seq fun _ _ _ _ htarget => Exact.drop.runs fun _ =>
        h.assignedValue.bind fun _ _ _ hw hvalue =>
          .finish (.cons (htarget.grown hw) (.cons hvalue .nil))
    | _ => exact .pure hleft
  | opAssign =>
    exact (Runs.assignable hleft).seq fun _ _ _ _ htarget => Exact.advance.runs fun _ =>
      h.assignedValue.bind fun _ _ _ hw hvalue =>
        .finishNamed (.cons (htarget.grown hw) (.cons hvalue .nil))
  | _ => exact .pure hleft

/-- An expression is made under the limit of the nesting. -/
lemma expression (h : Matched greatest g g') :
    Makes greatest (Arena.expression g) (Grammar.expression g') := h.assignment.nested

/-- An argument makes one node of the form its tokens show. -/
lemma argument (h : Matched greatest g g') :
    Makes greatest (Arena.argument g) (Grammar.argument g') := by
  refine fun w => Exact.kind.runs fun k => ?_
  cases Grammar.spreadKind? k with
  | some spread =>
    exact Exact.here.runs fun _ => Exact.drop.runs fun _ => Exact.atOperand.runs fun _ => .ite
      ((h.parse _).bind fun _ _ _ _ hid => .finish (.cons hid .nil)) (.finish .nil)
  | none =>
    refine .ite (h.labelPair w) (Exact.here.runs fun _ => h.expression.bind fun _ _ _ _ hkey => ?_)
    exact (Exact.accept _).runs fun _ => .ite
      (Exact.skipBreaks.runs fun _ => (h.parse _).bind fun _ _ _ hw hvalue =>
        .finish (.cons (hkey.grown hw) (.cons hvalue .nil)))
      (.pure hkey)

/-! ### Multiple assignment -/

/-- A target of a multiple assignment makes one node. -/
lemma target (h : Matched greatest g g') : Makes greatest (Arena.target g) (Grammar.target g') := by
  have htarget : Makes greatest (do assignable (← Arena.chain g))
      (do Grammar.assignable (← Grammar.chain g')) := fun _ =>
    h.chain.bind fun _ _ _ _ hid => .assignable hid
  refine fun w => Exact.here.runs fun _ => Exact.kind.runs fun k => ?_
  cases k with
  | punct mark =>
    cases mark with
    | star =>
      exact Exact.drop.runs fun _ => Exact.kind.runs fun _ => .ite (.finish .nil)
        (h.chain.bind fun _ _ _ _ hid => (Runs.assignable hid).seq fun _ _ _ _ hid =>
          .finish (.cons hid .nil))
    | lParen =>
      exact Exact.drop.runs fun _ => (h.parse _).bind fun _ _ _ _ hid =>
        (Exact.expect _).discard.runs fun _ => .pure hid
    | _ => exact htarget w
  | _ => exact htarget w

/-- The targets of a multiple assignment make one node, in parentheses or without. -/
lemma targets (h : Matched greatest g g') (closer : Option TokenKind) :
    Makes greatest (Arena.targets g closer) (Grammar.targets g' closer) := by
  refine fun _ => Exact.here.runs fun _ => ?_
  rw [h.rounds]
  refine (MakesAll.listing (fun w base seen seen' hseen => ?_) _).bindAll
    fun _ _ _ _ hids => .finish hids
  refine h.target.bind fun _ _ _ hw hid => ?_
  have hmore := List.Forall₂.cons hid (hseen.grown hw)
  exact (Exact.accept _).runs fun _ => .ite
    (Exact.kind.runs fun _ => .ite (.done hmore) (.again hmore)) (.done hmore)

/-- A multiple assignment makes one node over its targets and its value. -/
lemma multipleAssignment (h : Matched greatest g g') :
    Makes greatest (Arena.multipleAssignment g) (Grammar.multipleAssignment g') := by
  refine fun _ => Exact.here.runs fun _ => (h.targets none).bind fun _ _ _ _ hleft =>
    (Exact.expect _).discard.runs fun _ => Exact.here.runs fun _ => ?_
  rw [h.rounds]
  exact (MakesAll.separated (.pure ()) h.assignedValue _).bindAll fun _ _ _ hw hids =>
    (Runs.arrayOf hids).seq fun _ _ _ _ hvalue =>
      .finish (.cons ((hleft.grown hw).grown hvalue.1) (.cons hvalue.2 .nil))

/-! ### Single statements -/

/-- A `not` makes one node over its operand. -/
lemma notExpression (h : Matched greatest g g') :
    Makes greatest (Arena.notExpression g) (Grammar.notExpression g') := fun w =>
  (Exact.check _).runs fun _ => .ite
    (Exact.here.runs fun _ => Exact.drop.runs fun _ => (h.parse _).nested.bind
      fun _ _ _ _ hid => .finish (.cons hid .nil))
    (h.expression w)

/-- Expressions joined by `and` and `or` make one node. -/
lemma junctions (h : Matched greatest g g') :
    Makes greatest (Arena.junctions g) (Grammar.junctions g') := by
  refine fun w => Exact.here.runs fun _ => ?_
  rw [h.rounds]
  refine h.notExpression.growing (fun _ _ _ _ hid => Exact.kind.runs fun k => ?_) _ w
  cases Grammar.junctionKind? k with
  | none => exact .pure (.done hid)
  | some k =>
    exact Exact.drop.runs fun _ => h.notExpression.bind fun _ _ _ hw hright =>
      .behindFinish (.cons (hid.grown hw) (.cons hright .nil)) fun _ _ _ _ hid => .pure (.again hid)

/-- An expression with the modifiers behind it makes one node. -/
lemma expressionStatement (h : Matched greatest g g') :
    Makes greatest (Arena.expressionStatement g) (Grammar.expressionStatement g') := fun w =>
  Exact.assignsSeveral.runs fun _ => .ite (h.multipleAssignment w) (h.junctions w)

/-- Every statement makes one node, whatever token begins it. -/
lemma statement (h : Matched greatest g g') :
    Makes greatest (Arena.statement g) (Grammar.statement g') := by
  refine Yields.nested fun w => Exact.here.runs fun _ => ?_
  rw [h.rounds]
  refine h.expressionStatement.growing (fun _ _ _ _ hid => Exact.kind.runs fun k => ?_) _ w
  cases Grammar.modifierKind? k with
  | none => exact .pure (.done hid)
  | some k =>
    exact Exact.drop.runs fun _ => h.expressionStatement.bind fun _ _ _ hw hright =>
      .behindFinish (.cons (hid.grown hw) (.cons hright .nil)) fun _ _ _ _ hid => .pure (.again hid)

end Matched

end RubyCheck.Arena
