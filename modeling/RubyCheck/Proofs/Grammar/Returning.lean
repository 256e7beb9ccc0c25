import Mathlib.Data.List.Forall2
import RubyCheck.Proofs.Grammar.Climbing
import RubyCheck.Proofs.Grammar.Composing
import RubyCheck.Proofs.Grammar.Production

/-!
# What a production leaves behind

Constructs around, withheld `do`s and the scopes around are put back behind every production, whether it
gives a result or fails, so what is read next is read in the same context: scopes only gain names
(`State.SameContext`).  Every production of the grammar gives a result or fails with a fault, and leaves
the context as it was (`Production.returns`); so does every round of a list of statements, in which
failures are recovered from.
-/

namespace RubyCheck.Grammar

variable {α β : Type} {s s' s'' : State} {n : ℕ} {g : Grammar}

/-! ### Contexts -/

/-- A scope that became another one by gaining names. -/
structure LocalScope.Grows (scope scope' : LocalScope) : Prop where
  closed : scope'.closed = scope.closed
  names : scope.names ⊆ scope'.names

/-- A scope may gain nothing. -/
lemma LocalScope.Grows.refl (scope : LocalScope) : scope.Grows scope := ⟨rfl, List.Subset.refl _⟩

/-- Names that are gained one after the other are gained. -/
lemma LocalScope.Grows.trans {scope scope' scope'' : LocalScope} (h : scope.Grows scope')
    (h' : scope'.Grows scope'') : scope.Grows scope'' :=
  ⟨h'.closed.trans h.closed, List.Subset.trans h.names h'.names⟩

/-- Scopes that became others by gaining names. -/
def GrowEach : List LocalScope → List LocalScope → Prop := List.Forall₂ LocalScope.Grows

namespace GrowEach

/-- Scopes may gain nothing. -/
lemma refl (scopes : List LocalScope) : GrowEach scopes scopes :=
  List.forall₂_same.mpr fun scope _ => .refl scope

/-- Scopes that gain names twice have gained them. -/
lemma trans {scopes scopes' scopes'' : List LocalScope} (h : GrowEach scopes scopes')
    (h' : GrowEach scopes' scopes'') : GrowEach scopes scopes'' := by
  induction h generalizing scopes'' with
  | nil => exact h'
  | cons hscope _ ih =>
    cases h' with
    | cons hscope' h' => exact .cons (hscope.trans hscope') (ih h')

end GrowEach

/-- A state in the context of another one: as many constructs and withheld `do`s are around, and the
same scopes, which may have gained names. -/
structure State.SameContext (s s' : State) : Prop where
  depth : s'.depth = s.depth
  doWithheld : s'.doWithheld = s.doWithheld
  scopes : GrowEach s.scopes s'.scopes

namespace State.SameContext

/-- A state is in its own context. -/
lemma refl (s : State) : s.SameContext s := ⟨rfl, rfl, .refl s.scopes⟩

/-- The context of a context is the same one. -/
lemma trans (h : s.SameContext s') (h' : s'.SameContext s'') : s.SameContext s'' :=
  ⟨h'.depth.trans h.depth, h'.doWithheld.trans h.doWithheld, h.scopes.trans h'.scopes⟩

/-- A state with the same constructs, withheld `do`s and scopes around is in the same context. -/
lemma of_eq (hdepth : s'.depth = s.depth) (hdo : s'.doWithheld = s.doWithheld)
    (hscopes : s'.scopes = s.scopes) : s.SameContext s' := by
  refine ⟨hdepth, hdo, ?_⟩
  rw [hscopes]
  exact .refl s.scopes

/-- A report looks at nothing around. -/
lemma report (s : State) (f : Fault) : s.SameContext (s.report f) := by
  obtain ⟨hdepth, hscopes⟩ := s.context_report f
  refine of_eq hdepth ?_ hscopes
  unfold State.report
  split
  · rfl
  · dsimp only
    split
    · rfl
    · rfl

/-- A name that is declared is gained by the innermost scope. -/
lemma declare (s : State) (name : String) : s.SameContext (s.declare name) := by
  unfold State.declare
  split
  · exact refl s
  · rename_i scope outer hscopes
    split
    · exact refl s
    · refine ⟨rfl, rfl, ?_⟩
      rw [hscopes]
      have hgrows : scope.Grows { scope with names := name :: scope.names } :=
        ⟨rfl, List.subset_cons_self name scope.names⟩
      exact .cons hgrows (GrowEach.refl outer)

/-- What is put around a production is taken back behind it. -/
lemma leave (c : Context) (h : (c.enter s).SameContext s') : s.SameContext (c.leave s s') := by
  cases c with
  | deeper => exact ⟨congrArg (· - 1) h.depth, h.doWithheld, h.scopes⟩
  | allowingDo => exact ⟨h.depth, rfl, h.scopes⟩
  | withholdingDo => exact ⟨h.depth, congrArg (· - 1) h.doWithheld, h.scopes⟩

/-- A scope that is entered is left behind what stands in it, with the scopes around as they were. -/
lemma leaveScope {closed : Bool} (h : (s.enterScope closed).SameContext s') :
    s.SameContext s'.leaveScope := by
  refine ⟨h.depth, h.doWithheld, ?_⟩
  have hscopes := h.scopes
  change GrowEach s.scopes s'.scopes.tail
  rw [State.enterScope] at hscopes
  generalize s'.scopes = scopes' at hscopes
  cases hscopes with
  | cons _ hrest => exact hrest

end State.SameContext

/-- Whatever a production does, it does it in the context that it stands in. -/
theorem Passes.sameContext (h : Passes s s') : s.SameContext s' := by
  induction h with
  | steps _ => exact .of_eq rfl rfl rfl
  | report s f => exact .report s f
  | declare s name => exact .declare s name
  | within c _ ih => exact .leave c ih
  | inScope closed _ ih => exact .leaveScope ih
  | trans _ _ ih ih' => exact ih.trans ih'

/-! ### Productions that return -/

/-- Where fewer than `n` tokens are left a production gives a result or fails with a fault. -/
def Timely (n : ℕ) (p : Parser α) : Prop :=
  ∀ ⦃s : State⦄, s.tape.Ends → s.tape.left < n → Gives (Passes s) (fun _ s' => Passes s s') p s

namespace Timely

/-- One production behind another: the first leaves no more tokens than there were. -/
lemma bind {p : Parser β} {f : β → Parser α} (hp : Timely n p) (hf : ∀ a, Timely n (f a)) :
    Timely n (p >>= f) := by
  intro s hends hleft
  refine (hp hends hleft).bind fun a s' hs => ?_
  have hleft' : s'.tape.left < n := Nat.lt_of_le_of_lt hs.left_le hleft
  exact (hf a (hs.ends hends) hleft').mono (fun _ hs' => hs.trans hs') fun _ _ hs' => hs.trans hs'

/-- Giving a result at once. -/
lemma pure (a : α) : Timely n (Pure.pure a : Parser α) := fun s _ _ => Passes.refl s

/-- Looking at the state gives what is seen. -/
lemma view (f : State → α) : Timely n (Grammar.view f) := fun s _ _ => Passes.refl s

/-- A failure by a fault is a way to return. -/
lemma fail (f : Fault) : Timely n (Grammar.fail f : Parser α) := fun s _ _ => Gives.fail (.refl s)

/-- To refuse a token is a way to return. -/
lemma refuse (expected : String) : Timely n (Grammar.refuse expected : Parser α) :=
  fun s _ _ => Gives.refuse (.refl s)

/-- A production that is one of two. -/
lemma ite {c : Prop} [Decidable c] {p q : Parser α} (hp : Timely n p) (hq : Timely n q) :
    Timely n (if c then p else q) := by
  split
  · exact hp
  · exact hq

/-- Whatever reads a node returns. -/
lemma reader {least : ℕ} {c : NodeClass} {p : Parser Node} (h : Reader least n c p) : Timely n p :=
  fun _ hends hleft => (h hends hleft).mono (fun _ hs => hs) fun _ _ hm => hm.2.1.passes

/-- Whatever reads a list of nodes returns. -/
lemma list {parts : List Part} {p : Parser (List Node)} (h : ListReader n parts p) : Timely n p :=
  fun _ hends hleft => (h hends hleft).mono (fun _ hs => hs) fun _ _ hms => hms.2.passes

/-- Whatever consumes tokens for no node returns. -/
lemma skipper {p : Parser α} (h : Skipper n p) : Timely n p :=
  fun _ hends hleft => (h hends hleft).mono (fun _ hs => hs) fun _ _ hs => hs.passes

/-! #### Steps -/

/-- A token is consumed, also at the end of the text. -/
lemma advance : Timely n advance := skipper .advance

/-- A token is forgotten, also at the end of the text. -/
lemma drop : Timely n drop := fun s _ _ => Passes.steps s.tape.steps_advance

/-- A mark is consumed if it is there. -/
lemma accept (mark : TokenKind) : Timely n (accept mark) := skipper (.accept mark)

/-- A mark is consumed, or refused. -/
lemma expect (mark : TokenKind) : Timely n (expect mark) := skipper (.expect mark)

/-- A closer is consumed, or its absence is the fault. -/
lemma expectCloser (opener : Token) (closer : TokenKind) : Timely n (expectCloser opener closer) :=
  skipper (.expectCloser opener closer)

/-- An `end` is consumed, or its absence is the fault. -/
lemma expectEnd (opener : Token) : Timely n (expectEnd opener) := expectCloser opener _

/-- A node is put together without reading. -/
lemma finish (k : NodeKind) (start : Position) (ns : List Node) : Timely n (finish k start ns) :=
  view _

/-- A node with a text is put together without reading. -/
lemma finishNamed (k : NodeKind) (start : Position) (text : String) (ns : List Node) :
    Timely n (finishNamed k start text ns) := bind (finish k start ns) fun _ => pure _

/-- A leaf is put together without reading. -/
lemma leaf (k : NodeKind) (text : String) : Timely n (leaf k text) := view _

/-- A node in a list of its own. -/
lemma one {p : Parser Node} (h : Timely n p) : Timely n (do return [← p]) := bind h fun _ => pure _

/-- Whatever cannot be assigned to is the fault, and everything else a result. -/
lemma assignable (m : Node) : Timely n (assignable m) := by
  unfold Grammar.assignable
  split
  case h_9 =>
    refine ite (bind ?_ fun _ => pure _) (ite (pure _) (fail _))
    exact fun s _ _ => Passes.declare s _
  case h_10 => exact fail _
  all_goals exact pure _

/-- Values are put into an array without reading. -/
lemma arrayOf (start : Position) (ns : List Node) : Timely n (arrayOf start ns) := by
  unfold Grammar.arrayOf
  split
  · exact pure _
  · exact finish _ _ _

/-! #### Contexts -/

/-- What is put around a production is taken back whether it gives a result or fails. -/
lemma within (c : Context) {p : Parser α} (h : Timely n p) (hends : s.tape.Ends)
    (hleft : s.tape.left < n) :
    Gives (Passes s) (fun _ s' => Passes s s') (around c.enter (c.leave s) p) s := by
  refine Gives.around (h (s := c.enter s) ?_ ?_) (fun _ hs => .within c hs) fun _ _ hs => .within c hs
  · rwa [c.tape_enter]
  · rwa [c.tape_enter]

/-- Between brackets a `do` is free for the length of a production. -/
lemma allowingDo {p : Parser α} (h : Timely n p) : Timely n (allowingDo p) :=
  fun _ hends hleft => h.within .allowingDo hends hleft

/-- A scope stands around a production, whether it gives a result or fails. -/
lemma inScope (closed : Bool) {p : Parser α} (h : Timely n p) : Timely n (inScope closed p) :=
  fun s hends hleft => Gives.around (h (s := s.enterScope closed) hends hleft)
    (fun _ hs => .inScope closed hs) fun _ _ hs => .inScope closed hs

end Timely

/-! ### The productions of the grammar -/

/-- The productions of the grammar, each against the goals further in. -/
inductive Production (g : Grammar) : {α : Type} → Parser α → Prop
  -- Statements
  | statements (stops : List TokenKind) : Production g (statements g stops)
  | statement : Production g (statement g)
  | expressionStatement : Production g (expressionStatement g)
  | notExpression : Production g (notExpression g)
  | multipleAssignment : Production g (multipleAssignment g)
  | targets (closer : Option TokenKind) : Production g (targets g closer)
  -- Expressions
  | expression : Production g (expression g)
  | assignment : Production g (assignment g)
  | assignedValue : Production g (assignedValue g)
  | assignable (n : Node) : Production g (assignable n)
  -- Operations
  | ternary : Production g (ternary g)
  | range : Production g (range g)
  | binary (least : Level) : Production g (binary g least)
  | unary : Production g (unary g)
  | power : Production g (power g)
  -- Chains
  | chain : Production g (chain g)
  | methodCall (receiver : Node) (start : Position) : Production g (methodCall g receiver start)
  | scopedName (scope : Node) (start : Position) : Production g (scopedName g scope start)
  | element (receiver : Node) (start : Position) : Production g (element g receiver start)
  -- Operands and literals
  | operand : Production g (operand g)
  | quoted (k : NodeKind) : Production g (quoted g k)
  | constant : Production g (constant g)
  | paren : Production g (paren g)
  | array : Production g (array g)
  | hash : Production g (hash g)
  | hashItem : Production g (hashItem g)
  | items (opener : Token) {closer : TokenKind} {item : Parser Node} : closer ≠ .eof →
      item = g.parse .argument ∨ item = hashItem g ∨ item = g.parse (.parameter false) →
      Production g (items g opener closer item)
  -- Calls and blocks
  | bareName : Production g (bareName g)
  | callArguments : Production g (callArguments g)
  | parenArguments : Production g (parenArguments g)
  | commandArguments : Production g (commandArguments g)
  | argument : Production g (argument g)
  | labelPair : Production g (labelPair g)
  | braceBlock : Production g (braceBlock g)
  | doBlock : Production g (doBlock g)
  | doBlockBehind (opener : Token) : Production g (doBlockBehind g opener)
  | blockParameters : Production g (blockParameters g)
  | lambda : Production g (lambda g)
  | lambdaParameters : Production g (lambdaParameters g)
  | lambdaBody : Production g (lambdaBody g)
  -- Control flow
  | conditional : Production g (conditional g)
  | branch (keyword : Token) : Production g (branch g keyword)
  | negatedConditional : Production g (negatedConditional g)
  | clause (k : NodeKind) (stops : List TokenKind) : Production g (clause g k stops)
  | condition (keyword : Token) (doMayStand : Bool) : Production g (condition g keyword doMayStand)
  | separator (keyword : Token) (doMayStand : Bool) : Production g (separator keyword doMayStand)
  | conditionLoop (k : NodeKind) : Production g (conditionLoop g k)
  | iteration : Production g (iteration g)
  | choice : Production g (choice g)
  | valueClause : Production g (valueClause g)
  | patternClause : Production g (patternClause g)
  | protectedBody : Production g (protectedBody g)
  | body (opener : Token) : Production g (body g opener)
  | rescueClause : Production g (rescueClause g)
  | jump (k : NodeKind) : Production g (jump g k)
  | keywordCall (k : NodeKind) : Production g (keywordCall g k)
  | definedTest : Production g (definedTest g)
  -- Definitions
  | method : Production g (method g)
  | methodName : Production g methodName
  | methodParameters : Production g (methodParameters g)
  | methodBody (opener : Token) : Production g (methodBody g opener)
  | parameterList (opener : Token) : Production g (parameterList g opener)
  | parameter (inBlock : Bool) : Production g (parameter g inBlock)
  | defaultValue (inBlock : Bool) : Production g (defaultValue g inBlock)
  | classDefinition : Production g (classDefinition g)
  | moduleDefinition : Production g (moduleDefinition g)
  | constantPath : Production g (constantPath g)
  | scopedBody (opener : Token) : Production g (scopedBody g opener)
  | alias_ : Production g alias_
  | undef : Production g (undef g)
  | methodReference : Production g methodReference
  | hook (k : NodeKind) : Production g (hook g k)

/-- A production gives a result or fails with a fault, in the context that it began in. -/
def Returns (p : Parser α) (s : State) : Prop :=
  ∃ s', ((∃ a, p s = .ok a s') ∨ ∃ f, p s = .error (.fault f) s') ∧ s.SameContext s'

/-- Where few enough tokens are left, a production that is timely there returns. -/
lemma Timely.returns {p : Parser α} (h : Timely n p) (hends : s.tape.Ends) (hleft : s.tape.left < n) :
    Returns p s := by
  have hrun := h hends hleft
  unfold Gives at hrun
  unfold Returns
  cases hresult : p s with
  | ok a s' =>
    rw [hresult] at hrun
    exact ⟨s', .inl ⟨a, rfl⟩, hrun.sameContext⟩
  | error e s' =>
    rw [hresult] at hrun
    cases e with
    | fault f => exact ⟨s', .inr ⟨f, rfl⟩, hrun.sameContext⟩
    | exhausted => exact hrun.elim

namespace Timely

/-! #### Calls -/

/-- An argument of a call. -/
lemma argument (h : Inner g n) : Timely n g.argument := reader (h.argument.lower (Nat.le_succ n))

/-- The arguments behind a name. -/
lemma callArguments (h : Inner g n) : Timely n g.callArguments := list h.callArguments

/-- The arguments between parentheses: the opening one is consumed before they are asked for. -/
lemma parenArguments (h : Inner g n) : Timely n g.parenArguments :=
  bind advance fun _ => bind (allowingDo (list (h.items (h.parse .argument) (by decide)))) fun _ =>
    finish _ _ _

/-- A bare name is consumed before its arguments are asked for. -/
lemma bareName (h : Inner g n) : Timely n g.bareName :=
  bind (view _) fun _ => bind advance fun _ => bind (view _) fun _ =>
    ite (leaf _ _) (bind (callArguments h) fun _ => finishNamed _ _ _ _)

/-- A constant is consumed before its arguments are asked for. -/
lemma constant (h : Inner g n) : Timely n g.constant :=
  bind (view _) fun _ => bind advance fun _ => bind (view _) fun _ =>
    ite (bind (parenArguments h) fun _ => finishNamed _ _ _ _) (leaf _ _)

/-- A keyword that calls is consumed before its arguments are asked for. -/
lemma keywordCall (h : Inner g n) (k : NodeKind) : Timely n (g.keywordCall k) :=
  bind (view _) fun _ => bind drop fun _ => bind (callArguments h) fun _ => finish _ _ _

/-- A label is consumed before its value is asked for, if it has one. -/
lemma labelPair (h : Inner g n) : Timely n g.labelPair := by
  refine bind (view _) fun _ => bind advance fun _ => bind (leaf _ _) fun _ => bind (view _) fun _ => ?_
  refine ite ?_ (bind (reader (h.parse .expression)) fun _ => finish _ _ _)
  exact bind (view _) fun _ => bind (leaf _ _) fun _ => finish _ _ _

/-! #### Bodies -/

/-- A condition with its separator. -/
lemma condition (h : Inner g n) (keyword : Token) (doMayStand : Bool) :
    Timely n (g.condition keyword doMayStand) := reader (h.condition keyword doMayStand)

/-- What separates a condition from its statements: if it is missing, that is only reported. -/
lemma separator (keyword : Token) (doMayStand : Bool) : Timely n (separator keyword doMayStand) :=
  skipper (.separator keyword doMayStand)

/-- The statements inside a construct. -/
lemma statements (h : Inner g n) (stops : List TokenKind) :
    Timely n (g.parse (.statements stops)) := reader (h.statements stops)

/-- A keyword and the statements behind it. -/
lemma clause (h : Inner g n) (k : NodeKind) (stops : List TokenKind) : Timely n (g.clause k stops) :=
  bind (view _) fun _ => bind drop fun _ => bind (statements h stops) fun _ => finish _ _ _

/-- What stands behind `else`, if anything does. -/
lemma elseBranch (h : Inner g n) : Timely n g.elseBranch := list h.elseBranch

/-- A body with its clauses and its `end`. -/
lemma body (h : Inner g n) (opener : Token) : Timely n (g.body opener) := list (h.body opener)

/-- A `rescue` clause, with classes or without, and with a variable or without. -/
lemma rescueClause (h : Inner g n) : Timely n g.rescueClause := by
  have hclasses : Timely n (separated g.rounds skipBreaks (g.parse .ternary)) :=
    list (h.separated .skipBreaks (h.parse .ternary))
  have htarget : Timely n (do return [← Grammar.assignable (← g.parse .chain)]) :=
    list (.target (h.parse .chain))
  refine bind advance fun keyword => bind (view _) fun start => bind (view _) fun k => ?_
  have hbody (ns : List Node) : Timely n (do
      Grammar.separator keyword false
      let body ← g.parse (.statements bodyStops)
      Grammar.finish .rescueClause keyword.span.start (ns ++ [body])) :=
    bind (separator _ _) fun _ => bind (statements h _) fun _ => finish _ _ _
  have hbehind (classes : List Node) : Timely n (do
      let classes ← Grammar.finish .arguments start classes
      let target ←
        if ← Grammar.accept (.punct .fatArrow) then (do
          return [← Grammar.assignable (← g.parse .chain)]) else Pure.pure []
      Grammar.separator keyword false
      let body ← g.parse (.statements bodyStops)
      Grammar.finish .rescueClause keyword.span.start (classes :: target ++ [body])) := by
    refine bind (finish _ _ _) fun classes => bind (accept _) fun _ => ite ?_ ?_
    · exact bind htarget fun target => hbody (classes :: target)
    · exact bind (pure []) fun target => hbody (classes :: target)
  exact ite (bind (pure []) hbehind) (bind hclasses hbehind)

/-! #### Parameters and blocks -/

/-- The parameters between parentheses. -/
lemma parameterList (h : Inner g n) (opener : Token) : Timely n (g.parameterList opener) :=
  list (h.parameterList opener)

/-- The parameters between bars, if there are any. -/
lemma blockParameters (h : Inner g n) : Timely n g.blockParameters := list h.blockParameters

/-- The statements between braces. -/
lemma bracedStatements (h : Inner g n) (opener : Token) : Timely n (g.bracedStatements opener) :=
  reader (h.bracedStatements opener)

/-- A block between braces: a scope stands around it that is left in any case. -/
lemma braceBlock (h : Inner g n) : Timely n g.braceBlock :=
  bind advance fun _ => inScope _ <| allowingDo <| bind (blockParameters h) fun _ =>
    bind (bracedStatements h _) fun _ => finish _ _ _

/-- A block behind its `do`: a scope stands around it that is left in any case. -/
lemma doBlockBehind (h : Inner g n) (opener : Token) : Timely n (g.doBlockBehind opener) :=
  inScope _ <| allowingDo <| bind (blockParameters h) fun _ => bind (body h opener) fun _ =>
    finish _ _ _

/-- A block with its `do`. -/
lemma doBlock (h : Inner g n) : Timely n g.doBlock := bind advance fun _ => doBlockBehind h _

/-- An anonymous function: a scope stands around it that is left in any case. -/
lemma lambda (h : Inner g n) : Timely n g.lambda :=
  bind advance fun _ => inScope _ <| allowingDo <| bind (list h.lambdaParameters) fun _ =>
    bind (list h.lambdaBody) fun _ => finish _ _ _

/-! #### Control flow -/

/-- Another condition is asked for behind the keyword that begins it. -/
lemma nestedBranch (h : Inner g n) {p : List Node → Parser Node} (hp : ∀ ns, Timely n (p ns)) :
    Timely n (do
      let otherwise ←
        if ← check (.keyword .elsif_) then
          let keyword ← Grammar.advance
          (do return [← Grammar.nested (g.parse (.branch keyword))])
        else g.elseBranch
      p otherwise) := by
  intro s hends hleft
  refine .view (.ite (fun helsif => ?_) fun _ => bind (elseBranch h) hp hends hleft)
  have hkind : s.tape.kind ≠ .eof := by
    rw [eq_of_beq helsif]
    simp
  have course : Course (Passes s) n n s [] s := .begin hends hleft
  refine course.take hkind fun course' => ?_
  refine (h.nestedBranch course hkind).one fun m s' hm => ?_
  have hpasses : Passes s s' := hm.2.1.passes
  exact (hp [m] (hpasses.ends hends) (Nat.lt_trans hm.2.2 hleft)).mono
    (fun _ hs => hpasses.trans hs) fun _ _ hs => hpasses.trans hs

/-- A condition with its branches, those behind `elsif` included. -/
lemma branch (h : Inner g n) (keyword : Token) : Timely n (g.branch keyword) :=
  bind (condition h _ _) fun _ => bind (statements h _) fun _ => nestedBranch h fun _ => finish _ _ _

/-- An `if` with its branches. -/
lemma conditional (h : Inner g n) : Timely n g.conditional :=
  bind advance fun _ => bind (branch h _) fun _ => bind (expectEnd _) fun _ => bind (view _) fun _ =>
    pure _

/-- An `unless` with its branches. -/
lemma negatedConditional (h : Inner g n) : Timely n g.negatedConditional :=
  bind advance fun _ => bind (condition h _ _) fun _ => bind (statements h _) fun _ =>
    bind (elseBranch h) fun _ => bind (expectEnd _) fun _ => finish _ _ _

/-- A `while` or `until` with its body. -/
lemma conditionLoop (h : Inner g n) (k : NodeKind) : Timely n (g.conditionLoop k) :=
  bind advance fun _ => bind (condition h _ _) fun _ => bind (reader (h.loopBody _)) fun _ =>
    finish _ _ _

/-- A `for` with its variables and its body. -/
lemma iteration (h : Inner g n) : Timely n g.iteration :=
  bind advance fun _ => bind (reader h.loopTarget) fun _ =>
    bind (skipper (.discard (.expect _))) fun _ => bind (condition h _ _) fun _ =>
      bind (reader (h.loopBody _)) fun _ => finish _ _ _

/-- A `when` with its values. -/
lemma valueClause (h : Inner g n) : Timely n g.valueClause :=
  bind advance fun _ => bind (view _) fun _ =>
    bind (list (h.separated .skipBreaks (h.parse .argument))) fun _ => bind (finish _ _ _) fun _ =>
      bind (reader (h.clauseBody _)) fun _ => finish _ _ _

/-- A pattern with the guard behind it, if there is one. -/
lemma guarded (h : Inner g n) (start : Position) (pattern : Node) :
    Timely n (g.guarded start pattern) := by
  refine bind (view _) fun _ => ?_
  split
  · exact bind drop fun _ => bind (reader (h.parse .expression)) fun _ => finish _ _ _
  · exact pure _

/-- An `in` with its pattern. -/
lemma patternClause (h : Inner g n) : Timely n g.patternClause :=
  bind advance fun _ => bind (view _) fun _ =>
    bind (list (h.separated (.pure ()) (h.parse .argument))) fun _ => bind (arrayOf _ _) fun _ =>
      bind (guarded h _ _) fun _ => bind (reader (h.clauseBody _)) fun _ => finish _ _ _

/-- A `case`, with a subject or without. -/
lemma choice (h : Inner g n) : Timely n g.choice := by
  refine bind advance fun opener => bind (view _) fun _ => ?_
  have hbehind (subject : List Node) : Timely n (do
      skipTerminators
      let clauses ← Grammar.clauses g
      let otherwise ← Grammar.elseBranch g
      Grammar.expectEnd opener
      Grammar.finish .case_ opener.span.start (subject ++ clauses ++ otherwise)) :=
    bind (skipper .skipTerminators) fun _ => bind (list h.clauses) fun _ =>
      bind (elseBranch h) fun _ => bind (expectEnd _) fun _ => finish _ _ _
  exact ite (bind (pure []) hbehind) (bind (one (reader (h.parse .expressionStatement))) hbehind)

/-- A `begin` with its clauses. -/
lemma protectedBody (h : Inner g n) : Timely n g.protectedBody :=
  bind advance fun _ => bind (body h _) fun _ => finish _ _ _

/-- A keyword that leaves a construct, with values or without. -/
lemma jump (h : Inner g n) (k : NodeKind) : Timely n (g.jump k) := by
  refine bind (view _) fun _ => bind drop fun _ => bind (view _) fun _ => ite ?_ (finish _ _ _)
  exact bind (view _) fun _ => bind (list (h.separated .skipBreaks (h.parse .argument))) fun _ =>
    bind (arrayOf _ _) fun _ => finish _ _ _

/-- What is tested between parentheses. -/
lemma definedOperand (h : Inner g n) : Timely n g.definedOperand :=
  bind advance fun _ => bind (allowingDo (reader (h.parse .expressionStatement))) fun _ =>
    bind (skipper .skipBreaks) fun _ => bind (expectCloser _ _) fun _ => pure _

/-- A `defined?`, with parentheses or without. -/
lemma definedTest (h : Inner g n) : Timely n g.definedTest := by
  refine bind (view _) fun _ => bind drop fun _ => bind (view _) fun _ => ite ?_ ?_
  · exact bind (definedOperand h) fun _ => finish _ _ _
  · exact bind (reader (h.parse .unary)) fun _ => finish _ _ _

/-! #### Literals -/

/-- The pieces of a literal end with it, whatever stands in front of them. -/
lemma quoted (h : Inner g n) (k : NodeKind) : Timely n (g.quoted k) := by
  have hpieces : Timely n (iterate g.piece g.rounds ("", [])) := by
    intro s hends hleft
    have course : Course (Passes s) n n s [] s := .begin hends hleft
    refine (Gives.iterate (fun _ _ hseen => h.piece hseen) (Nat.lt_trans hleft h.rounds)
      ⟨course, by simp⟩).mono (fun _ hs => hs) fun _ _ hcode => ?_
    exact hcode.2.passes
  exact bind (view _) fun _ => bind drop fun _ => bind hpieces fun _ =>
    ite (finishNamed _ _ _ _) (finish _ _ _)

/-- An array: the opening bracket is consumed before the elements are asked for. -/
lemma array (h : Inner g n) : Timely n g.array :=
  bind advance fun _ => bind (allowingDo (list (h.items (h.parse .argument) (by decide)))) fun _ =>
    finish _ _ _

/-- A hash: the opening brace is consumed before the pairs are asked for. -/
lemma hash (h : Inner g n) : Timely n g.hash :=
  bind advance fun _ => bind (allowingDo (list (h.items h.hashItem (by decide)))) fun _ =>
    finish _ _ _

/-- Statements in parentheses: the opening one is consumed before they are asked for. -/
lemma paren (h : Inner g n) : Timely n g.paren :=
  bind advance fun _ => bind (allowingDo (statements h _)) fun _ => bind (expectCloser _ _) fun _ =>
    finish _ _ _

/-! #### Definitions -/

/-- The parameters of a method, in parentheses or without. -/
lemma methodParameters (h : Inner g n) : Timely n g.methodParameters := reader h.methodParameters

/-- The body of a method, or the statement that it is. -/
lemma methodBody (h : Inner g n) (opener : Token) : Timely n (g.methodBody opener) :=
  list (h.methodBody opener)

/-- A method: a closed scope stands around it that is left in any case. -/
lemma method (h : Inner g n) : Timely n g.method :=
  bind advance fun _ => bind (skipper .methodName) fun _ => inScope _ <| allowingDo <|
    bind (methodParameters h) fun _ => bind (methodBody h _) fun _ => finishNamed _ _ _ _

/-- The body of a class or module: a closed scope stands around it that is left in any case. -/
lemma scopedBody (h : Inner g n) (opener : Token) : Timely n (g.scopedBody opener) :=
  inScope _ (allowingDo (body h opener))

/-- A class, or the body of an object's own class. -/
lemma classDefinition (h : Inner g n) : Timely n g.classDefinition := by
  refine bind advance fun opener => bind (accept _) fun _ => ite ?_ ?_
  · exact bind (reader (h.parse .expression)) fun _ => bind (scopedBody h _) fun _ => finish _ _ _
  · refine bind (skipper h.constantPath) fun _ => bind (accept _) fun _ => ite ?_ ?_
    · exact bind (one (reader (h.parse .expression))) fun _ => bind (scopedBody h _) fun _ =>
        finishNamed _ _ _ _
    · exact bind (pure _) fun _ => bind (scopedBody h _) fun _ => finishNamed _ _ _ _

/-- A module with its body. -/
lemma moduleDefinition (h : Inner g n) : Timely n g.moduleDefinition :=
  bind advance fun _ => bind (skipper h.constantPath) fun _ => bind (scopedBody h _) fun _ =>
    finishNamed _ _ _ _

/-- A method that is named. -/
lemma methodReference : Timely n methodReference :=
  reader (reader_methodReference.lower (Nat.le_succ n))

/-- An `alias` with its two names. -/
lemma alias_ : Timely n alias_ :=
  bind (view _) fun _ => bind drop fun _ => bind methodReference fun _ =>
    bind methodReference fun _ => finish _ _ _

/-- An `undef` with its names. -/
lemma undef (h : Inner g n) : Timely n g.undef :=
  bind (view _) fun _ => bind drop fun _ =>
    bind (list (h.separated (.pure ()) (reader_methodReference.lower (Nat.le_succ n)))) fun _ =>
      finish _ _ _

/-- A hook: a scope stands around its statements that is left in any case. -/
lemma hook (h : Inner g n) (k : NodeKind) : Timely n (g.hook k) :=
  bind advance fun _ => bind (expect _) fun _ => bind (inScope _ (allowingDo (statements h _))) fun _ =>
    bind (expectCloser _ _) fun _ => finish _ _ _

/-! #### Chains -/

/-- A call behind its dot. -/
lemma methodCall (h : Inner g n) (receiver : Node) (start : Position) :
    Timely n (g.methodCall receiver start) :=
  bind (skipper .calledName) fun _ => bind (callArguments h) fun _ => finishNamed _ _ _ _

/-- What stands behind two colons, or its refusal. -/
lemma scopedName (h : Inner g n) (scope : Node) (start : Position) :
    Timely n (g.scopedName scope start) :=
  bind (view _) fun _ => bind (view _) fun _ => ite (bind advance fun _ => finishNamed _ _ _ _)
    (ite (methodCall h scope start) (refuse _))

/-- An element: the opening bracket is consumed before the indices are asked for. -/
lemma element (h : Inner g n) (receiver : Node) (start : Position) :
    Timely n (g.element receiver start) :=
  bind advance fun _ => bind (allowingDo (list (h.items (h.parse .argument) (by decide)))) fun _ =>
    bind (finish _ _ _) fun _ => finish _ _ _

end Timely

/-- Every production gives a result or fails with a fault, if the goals further in do. -/
theorem Production.timely (h : Inner g n) {p : Parser α} (hp : Production g p) : Timely n p := by
  have hle : n ≤ n + 1 := Nat.le_succ n
  cases hp with
  | statements stops =>
    intro s hends hleft
    exact (h.statements_listed stops hends (Nat.le_of_lt hleft)).mono (fun _ hs => hs)
      fun _ _ hm => hm.reads_node.2.passes
  | statement => exact .reader (h.statement.lower hle)
  | expressionStatement => exact .reader (h.expressionStatement.lower hle)
  | notExpression => exact .reader (h.notExpression.lower hle)
  | multipleAssignment => exact .reader (h.multipleAssignment.lower hle)
  | targets closer => exact .reader ((h.targets closer).lower hle)
  | expression => exact .reader (h.expression.lower hle)
  | assignment => exact .reader (h.assignment.lower hle)
  | assignedValue => exact .reader h.assignedValue
  | assignable m => exact .assignable m
  | ternary => exact .reader (h.ternary.lower hle)
  | range => exact .reader (h.range.lower hle)
  | binary least => exact .reader ((h.binary least).lower hle)
  | unary => exact .reader (h.unary.lower hle)
  | power => exact .reader (h.power.lower hle)
  | chain => exact .reader (h.chain.lower hle)
  | methodCall receiver start => exact .methodCall h receiver start
  | scopedName scope start => exact .scopedName h scope start
  | element receiver start => exact .element h receiver start
  | operand => exact .reader (h.operand.lower hle)
  | quoted k => exact .quoted h k
  | constant => exact .constant h
  | paren => exact .paren h
  | array => exact .array h
  | hash => exact .hash h
  | hashItem => exact .reader h.hashItem
  | items opener hcloser hitem =>
    obtain rfl | rfl | rfl := hitem
    · exact .list (h.items (h.parse .argument) hcloser)
    · exact .list (h.items h.hashItem hcloser)
    · exact .list (h.items (h.parse (.parameter false)) hcloser)
  | bareName => exact .bareName h
  | callArguments => exact .callArguments h
  | parenArguments => exact .parenArguments h
  | commandArguments => exact .reader h.commandArguments
  | argument => exact .argument h
  | labelPair => exact .labelPair h
  | braceBlock => exact .braceBlock h
  | doBlock => exact .doBlock h
  | doBlockBehind opener => exact .doBlockBehind h opener
  | blockParameters => exact .blockParameters h
  | lambda => exact .lambda h
  | lambdaParameters => exact .list h.lambdaParameters
  | lambdaBody => exact .list h.lambdaBody
  | conditional => exact .conditional h
  | branch keyword => exact .branch h keyword
  | negatedConditional => exact .negatedConditional h
  | clause k stops => exact .clause h k stops
  | condition keyword doMayStand => exact .condition h keyword doMayStand
  | separator keyword doMayStand => exact .separator keyword doMayStand
  | conditionLoop k => exact .conditionLoop h k
  | iteration => exact .iteration h
  | choice => exact .choice h
  | valueClause => exact .valueClause h
  | patternClause => exact .patternClause h
  | protectedBody => exact .protectedBody h
  | body opener => exact .body h opener
  | rescueClause => exact .rescueClause h
  | jump k => exact .jump h k
  | keywordCall k => exact .keywordCall h k
  | definedTest => exact .definedTest h
  | method => exact .method h
  | methodName => exact .skipper .methodName
  | methodParameters => exact .methodParameters h
  | methodBody opener => exact .methodBody h opener
  | parameterList opener => exact .parameterList h opener
  | parameter inBlock => exact .reader ((h.parameter inBlock).lower hle)
  | defaultValue inBlock => exact .reader (h.defaultValue inBlock)
  | classDefinition => exact .classDefinition h
  | moduleDefinition => exact .moduleDefinition h
  | constantPath => exact .skipper h.constantPath
  | scopedBody opener => exact .scopedBody h opener
  | alias_ => exact .alias_
  | undef => exact .undef h
  | methodReference => exact .methodReference
  | hook k => exact .hook h k

/-- In front of every round of a list of statements reading stands in the context that the list began
in, also behind a statement that failed. -/
theorem Goes.sameContext {stops : List TokenKind} (h : Composing g) {rounds : ℕ}
    {seen seen' : List Node} (hgoes : Goes (g.statementRound stops) rounds seen s seen' s') :
    s.SameContext s' := by
  induction hgoes with
  | refl seen s => exact .refl s
  | @round _ _ seen _ _ before after _ hround ih =>
    have hpasses : Passes before (stateBehind (g.statementRound stops seen before)) :=
      (h.statementRound stops seen).passes before
    rw [hround] at hpasses
    exact ih.trans hpasses.sameContext

/-- Wherever reading stands on tokens that end, every production gives a result or fails with a fault
and leaves the context as it was, and so do the rounds of a list of statements, which recover from
faults. -/
theorem production_returns {levels : ℕ} (hends : s.tape.Ends) (hleft : s.tape.left < levels) :
    (∀ {α : Type} {p : Parser α}, Production ⟨levels + 1, production levels⟩ p → Returns p s) ∧
      ∀ stops rounds seen seen' s',
        Goes (statementRound ⟨levels + 1, production levels⟩ stops) rounds seen s seen' s' →
          s.SameContext s' := by
  have hinner : Inner ⟨levels + 1, production levels⟩ levels :=
    ⟨Nat.lt_succ_self levels, production_spec levels⟩
  constructor
  · intro α p hp
    exact (hp.timely hinner).returns hends hleft
  · intro stops rounds seen seen' s' hgoes
    exact hgoes.sameContext (composing_production levels (levels + 1))

/-- An opening parenthesis that nothing closes. -/
theorem production_returns_unclosed :
    let token (kind : TokenKind) (text : String) (i : ℕ) : Token :=
      ⟨kind, text, ⟨⟨i, 0, i⟩, ⟨i + 1, 0, i + 1⟩⟩, false, false⟩
    let s := State.ofTokens .standard
      [token (.punct .lParen) "(" 0, token .identifier "x" 1, token .eof "" 2]
    s.tape.Ends ∧ s.tape.left < 3 ∧ Returns (paren ⟨4, production 3⟩) s := by
  intro token s
  have hends : s.tape.Ends := rfl
  have hleft : s.tape.left < 3 := Nat.lt_succ_self 2
  exact ⟨hends, hleft, (production_returns hends hleft).1 .paren⟩

end RubyCheck.Grammar
