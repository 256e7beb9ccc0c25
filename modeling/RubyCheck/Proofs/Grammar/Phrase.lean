import RubyCheck.Grammar.Program
import RubyCheck.Proofs.Grammar.Course

/-!
# The phrases that productions are made of

What the goals of the grammar come to is said by `Goal.Spec`: which nodes are read for each of them,
and that a token is consumed.  `Inner` supposes that of the goals inside a production, and here is
what follows for the pieces that several productions share: tokens that make no node, items between
brackets, arguments, targets, bodies, parameters and blocks.  There is one lemma for each piece.
-/

namespace RubyCheck.Grammar

variable {α : Type} {F : State → Prop} {Q : α → State → Prop} {s s' s₀ s₁ : State} {n b : ℕ}
variable {c : NodeClass} {ns seen : List Node} {g : Grammar}

/-! ### Goals -/

/-- Statements that were read from a state on, up to the end of the text or a token that stops
them. -/
structure Listed (stops : List TokenKind) (s₀ : State) (m : Node) (s : State) : Prop where
  reads : ∃ ns, m = .inner .statements (spanOfEach s₀.start ns) ns ∧
    Fits NodeKind.statements.layout ns ∧ Reads s₀ ns s
  stops : s.tape.kind = .eof ∨ stops.contains s.tape.kind = true

/-- What a production for a goal comes to where fewer than `n` tokens are left. -/
def Goal.Spec (n : ℕ) : Goal → Parser Node → Prop
  | .statements stops, p => ∀ ⦃s : State⦄, s.tape.Ends → s.tape.left < n →
      Gives (fun _ => False) (Listed stops s) p s
  | .statement, p | .expressionStatement, p => Reader 1 n .statement p
  | .notExpression, p | .expression, p | .ternary, p | .binary _, p | .unary, p | .chain, p =>
    Reader 1 n .expression p
  | .targets _, p => Reader 1 n .targets p
  | .argument, p => Reader 1 n .argument p
  | .parameter _, p => Reader 1 n .parameter p
  | .branch keyword, p => ∀ ⦃s : State⦄, s.tape.Ends → s.tape.left < n → s.tape.kind ≠ .eof →
      s.tape.current = keyword → Gives (Passes s) (Yields (.of .if_) s.tape.left s) p s.advanced

/-- The goals inside a production come to what they should. -/
structure Inner (g : Grammar) (n : ℕ) : Prop where
  rounds : n < g.rounds
  parse (goal : Goal) : goal.Spec n (g.parse goal)

/-- Statements that were listed are one node, which is read as a whole. -/
lemma Listed.reads_node {stops : List TokenKind} {m : Node} (h : Listed stops s m s') :
    NodeClass.has (.of .statements) m = true ∧ Reads s [m] s' := by
  obtain ⟨ns, rfl, hfits, hreads⟩ := h.reads
  exact ⟨rfl, .statements hreads hfits⟩

namespace Inner

/-- Statements as one of the nodes of a construct. -/
lemma statements (h : Inner g n) (stops : List TokenKind) :
    Reader 0 n (.of .statements) (g.parse (.statements stops)) := by
  intro s hends hleft
  refine (h.parse (.statements stops) hends hleft).mono (fun _ hs => hs.elim) fun m s' hm => ?_
  obtain ⟨hclass, hreads⟩ := hm.reads_node
  exact ⟨hclass, hreads, hreads.passes.left_le⟩

end Inner

/-! ### Tokens that make no node -/

namespace Skipper

/-- A move along the tape makes no node. -/
lemma move {f : Tape → Tape} (hf : ∀ tape, Tape.Steps tape (f tape)) : Skipper n (move f) :=
  fun s _ _ => Reads.steps (hf s.tape)

/-- Line breaks make no node. -/
lemma skipBreaks : Skipper n skipBreaks := move (Tape.steps_passOver rfl)

/-- Terminators make no node. -/
lemma skipTerminators : Skipper n skipTerminators := move (Tape.steps_passOver rfl)

/-- Reporting a fault makes no node. -/
lemma report (f : Fault) : Skipper n (report f) := fun s _ _ => Reads.report s f

/-- A result given back makes no node. -/
lemma pure (a : α) : Skipper n (Pure.pure a : Parser α) := fun s _ _ => Reads.refl s

/-- A token that is taken makes no node. -/
lemma advance : Skipper n advance :=
  fun s _ _ => Reads.steps s.tape.steps_advance

/-- A result thrown away makes no node. -/
lemma discard {p : Parser α} (h : Skipper n p) : Skipper n (discard p) :=
  fun _ hends hleft => (h hends hleft).bind fun _ _ hs => Gives.pure hs

/-- A token that is required makes no node. -/
lemma expect (mark : TokenKind) : Skipper n (expect mark) := by
  intro s hends hleft
  refine .view (.ite (fun _ => advance hends hleft) fun _ => .refuse (.refl s))

/-- A token that may stand here makes no node. -/
lemma accept (mark : TokenKind) : Skipper n (accept mark) := by
  refine .of fun s c => .view (.ite (fun _ => ?_) fun _ => Reads.refl s)
  exact c.drop fun c => c.reads

/-- The closer of a construct makes no node. -/
lemma expectCloser (opener : Token) (mark : TokenKind) : Skipper n (expectCloser opener mark) := by
  intro s hends hleft
  refine .view (.ite (fun _ => .fail (.refl s)) fun _ => ?_)
  exact (expect mark).discard hends hleft

/-- The `end` of a construct makes no node. -/
lemma expectEnd (opener : Token) : Skipper n (expectEnd opener) := expectCloser _ _

/-- What separates a condition from its body. -/
lemma separator (keyword : Token) (doMayStand : Bool) :
    Skipper n (separator keyword doMayStand) := by
  refine .of fun s c => .view ?_
  have hbreaks : Gives (Passes s) (fun _ s' => Reads s [] s') (do
      Grammar.skipTerminators
      Functor.discard <| Grammar.accept (.keyword .then_)) s :=
    c.silent skipTerminators fun _ s' c =>
      ((accept _).discard c.ends c.left_lt).mono c.fails fun _ _ hs => c.reads.append hs
  split
  · exact .steps s.tape.steps_advance
  · exact hbreaks
  · exact hbreaks
  · exact c.reads
  · exact .ite (fun _ => .steps s.tape.steps_advance) fun _ => .view (Reads.report s _)

end Skipper

/-! ### Lists -/

namespace Seen

variable {opener : Token} {closer : TokenKind}

/-- Behind an item, a comma leads to another one and anything else ends the list. -/
lemma unlessComma {behindComma : Parser Unit} (h : Seen F n b s₀ c seen s') (hb : b ≤ s.tape.left)
    (hcomma : Skipper n behindComma) :
    Gives F (Seen.Post F n s₀ c s) (unlessComma behindComma seen seen.reverse) s' := by
  refine h.course.accept (by decide) (fun _ hcourse => ?_) h.done
  exact hcourse.silent hcomma fun _ _ hcourse => again ⟨hcourse, h.each⟩ hb

/-- Behind an item another round may follow. -/
lemma behindBreak (h : Seen F n b s₀ c seen s') (hb : b ≤ s.tape.left) :
    Gives F (Seen.Post F n s₀ c s) (behindBreak opener closer seen) s' := by
  refine .view (.ite (fun _ => h.again hb) fun _ => .ite (fun _ => ?_) fun _ => ?_)
  · exact h.silent .skipBreaks fun _ _ h => h.drop fun h => h.again hb
  · refine .ite (fun _ => h.course.fail) fun _ => ?_
    exact h.silent (.report _) fun _ _ h => h.done

/-- The same between brackets, where line breaks may stand behind the item and the closer ends the
list. -/
lemma behindItem (h : Seen F n b s₀ c seen s') (hb : b ≤ s.tape.left) :
    Gives F (Seen.Post F n s₀ c s) (behindItem opener closer seen) s' := by
  refine .view (.ite (fun _ => h.drop fun h => h.again hb) fun _ => ?_)
  refine .ite (fun _ => h.again hb) fun _ => .ite (fun _ => h.behindBreak hb) fun _ => ?_
  exact .ite (fun _ => h.course.fail) fun _ => h.course.refuse

/-- An item leaves fewer tokens than there were in front of the line breaks that precede it. -/
lemma itemOrCloser {item : Parser Node} (h : Seen F n (s.tape.left + 1) s₀ c seen s)
    (hitem : Reader 1 n c item) (hcloser : closer ≠ .eof) :
    Gives F (Seen.Post F n s₀ c s) (itemOrCloser opener closer item seen) s := by
  refine h.silent .skipBreaks fun _ s₁ h => ?_
  refine h.course.accept hcloser (fun _ hcourse => done ⟨hcourse, h.each⟩) ?_
  refine .view (.ite (fun _ => h.course.fail) fun _ => ?_)
  refine h.course.node' hitem fun m s₂ hm hcourse => ?_
  exact (h.cons hm hcourse).behindItem (Nat.le_of_lt_succ h.course.left)

end Seen

namespace ListReader

/-- Items with commas between them. -/
lemma separated {rounds : ℕ} {behindComma : Parser Unit} {item : Parser Node} (hrounds : n ≤ rounds)
    (hcomma : Skipper n behindComma) (hitem : Reader 1 n c item) :
    ListReader n [.many c] (separated rounds behindComma item) := by
  refine iterate hrounds fun s₀ seen s h => ?_
  refine h.course.node' hitem fun m s' hm hcourse => ?_
  exact (h.cons hm hcourse).unlessComma (Nat.le_refl _) hcomma

/-- One node as a list. -/
lemma one {least : ℕ} {p : Parser Node} (hp : Reader least n c p) :
    ListReader n [.maybe c] (do return [← p]) :=
  .of fun _ course => course.node hp fun _ _ hm course => ⟨.some hm, course.reads⟩

end ListReader

namespace Inner

/-- Items between brackets. -/
lemma items (h : Inner g n) {opener : Token} {closer : TokenKind} {item : Parser Node}
    (hitem : Reader 1 n c item) (hcloser : closer ≠ .eof) :
    ListReader n [.many c] (items g opener closer item) :=
  .iterate (Nat.le_of_lt h.rounds) fun _ _ _ hseen => hseen.itemOrCloser hitem hcloser

/-- Items with commas between them are any number of nodes of the items' class. -/
lemma separated (h : Inner g n) {behindComma : Parser Unit} {item : Parser Node}
    (hcomma : Skipper n behindComma) (hitem : Reader 1 n c item) :
    ListReader n [.many c] (Grammar.separated g.rounds behindComma item) :=
  .separated (Nat.le_of_lt h.rounds) hcomma hitem

/-! ### Arguments -/

/-- Arguments in parentheses are one node, and the opener is consumed. -/
lemma parenArguments (h : Inner g n) (r : Ready F n s) (hkind : s.tape.kind ≠ .eof) :
    Gives F (Yields (.of .arguments) s.tape.left s) g.parenArguments s := by
  refine r.take hkind fun course => ?_
  refine course.nodes (h.items (h.parse .argument) (by decide)).allowingDo fun ms _ hms course => ?_
  exact course.finish rfl hms (fun _ => rfl) fun _ => rfl

/-- Arguments without parentheses are one node; where there are none, no token is consumed. -/
lemma commandArguments (h : Inner g n) : Reader 0 n (.of .arguments) g.commandArguments := by
  refine .ofCourse fun s course => .view ?_
  have hitems := (h.separated .skipBreaks (h.parse .argument)).withholdingDo
  refine course.nodes hitems fun ms _ hms course => ?_
  exact course.finish rfl hms (fun _ => rfl) fun _ => rfl

/-- No arguments leave the state as it was, in front of no parenthesis. -/
lemma callArguments_of (h : Inner g n) (course : Course F n b s₀ ns s) :
    Gives F (fun ms s' => Fits [.maybe (.of .arguments)] ms ∧ Course F n b s₀ (ns ++ ms) s' ∧
      (ms = [] → s' = s ∧ opensArguments s.tape.current = false)) g.callArguments s := by
  refine .view (.ite (fun hopens => ?_) fun hopens => .view (.ite (fun _ => ?_) fun _ => ?_))
  · have hkind : s.tape.kind = .punct .lParen := by
      simp only [opensArguments, Bool.and_eq_true, beq_iff_eq] at hopens
      exact hopens.1
    exact course.own (h.parenArguments course.ready (by simp [hkind])) fun m _ hm course =>
      ⟨.some hm, course, by simp⟩
  · exact course.node h.commandArguments fun m _ hm course => ⟨.some hm, course, by simp⟩
  · exact ⟨.none, by simpa using course, fun _ => ⟨rfl, by simpa using hopens⟩⟩

/-- Behind a name stand arguments of either form, or none. -/
lemma callArguments (h : Inner g n) : ListReader n [.maybe (.of .arguments)] g.callArguments :=
  .of fun _ course => (h.callArguments_of course).mono (fun _ hs => hs) fun _ _ hms =>
    ⟨hms.1, hms.2.1.reads⟩

/-- A bare name is an expression, whether it is a variable or a call. -/
lemma bareName (h : Inner g n) (r : Ready F n s) (hkind : s.tape.kind = .identifier) :
    Gives F (Yields .expression s.tape.left s) g.bareName s := by
  have hmore := r.ends.consumable (by simp [hkind])
  refine .view (r.take hmore.kind fun course => .view (.ite (fun huse => ?_) fun hcall => ?_))
  · have hlocal : s.isLocal s.tape.current.text = true := (Bool.and_eq_true_iff.mp huse).1
    change Yields _ _ s (.leaf .localVariable s.tape.advance.previous.span s.tape.current.text)
      s.advanced
    rw [hmore.previous_advance]
    exact ⟨rfl, .use hmore hkind hlocal, course.left⟩
  · refine (h.callArguments_of course).bind fun ms s' hms => ?_
    obtain ⟨hfits, course', hnone⟩ := hms
    rcases hfits.eq_nil_or_singleton with rfl | ⟨m, rfl, hm⟩
    · obtain ⟨rfl, hopens⟩ := hnone rfl
      have hlocal : s.isLocal s.tape.current.text = false := by
        rw [hopens, Bool.not_false, Bool.and_true, Bool.not_eq_true] at hcall
        exact hcall
      exact ⟨rfl, .bareCall hmore hkind hlocal, course.left⟩
    · exact course'.finishNamed rfl (.absent (.present hm .none)) (fun _ => rfl) fun _ => rfl

/-- A constant is an expression, whether it is called or not. -/
lemma constant (h : Inner g n) (r : Ready F n s) (hkind : s.tape.kind ≠ .eof) :
    Gives F (Yields .expression s.tape.left s) g.constant s := by
  refine .view (r.take hkind fun course => .view (.ite (fun hopens => ?_) fun _ => ?_))
  · have hparen : s.advanced.tape.kind = .punct .lParen := by
      simp only [opensArguments, Bool.and_eq_true, beq_iff_eq] at hopens
      exact hopens.1
    refine course.own (h.parenArguments course.ready (by simp [hparen])) fun m _ hm course => ?_
    exact course.finishNamed rfl (.absent (.present hm .none)) (fun _ => rfl) fun _ => rfl
  · exact r.leaf hkind .nil (fun _ => rfl) (fun _ => rfl) nofun

/-- A `yield` or a `super` is an expression. -/
lemma keywordCall (h : Inner g n) (r : Ready F n s) (hkind : s.tape.kind ≠ .eof) {k : NodeKind}
    (hk : k = .yield_ ∨ k = .super_) :
    Gives F (Yields .expression s.tape.left s) (g.keywordCall k) s := by
  refine .view (r.drop hkind fun course => ?_)
  refine course.nodes h.callArguments fun ms _ hms course => ?_
  rcases hk with rfl | rfl
  · exact course.finish rfl hms (fun _ => rfl) fun _ => rfl
  · exact course.finish rfl hms.append_none (fun _ => rfl) fun _ => rfl

/-- A pair stands where a label is read. -/
lemma labelPair (h : Inner g n) (r : Ready F n s) (hkind : s.tape.kind = .label) :
    Gives F (Yields (.of .pair) s.tape.left s) g.labelPair s := by
  have hmore := r.ends.consumable (by simp [hkind])
  refine .view (r.take hmore.kind fun course => r.leafThen hmore.kind (.view ?_))
  refine .ite (fun _ => .view ?_) fun _ => ?_
  · refine r.leafThen hmore.kind ?_
    have hpair := course.retold (.shorthand hmore hkind rfl)
    refine hpair.finish rfl (.one rfl (.one ?_ .nil)) (fun _ => rfl) fun _ => rfl
    change NodeKind.isExpression (if _ then _ else _) = true
    split
    · rfl
    · rfl
  · have hmarks : s.Marks .symbol := fun _ => ⟨hmore, congrArg TokenKind.isWritten hkind⟩
    have hkey := course.retold (.leaf .symbol (labelName s.tape.current.text) hmore .nil rfl hmarks)
    refine hkey.node (h.parse .expression) fun m _ hm course => ?_
    exact course.finish rfl (.one rfl (.one hm .nil)) (fun _ => rfl) fun _ => rfl

end Inner

/-! ### Targets -/

namespace Course

variable {m : Node}

/-- What was read as an expression becomes a target. -/
lemma assign (course : Course F n b s₀ [m] s) :
    Gives F (fun m s' => NodeClass.has .target m = true ∧ Course F n b s₀ [m] s') (assignable m)
      s := by
  unfold assignable
  split
  case h_1 hkind => exact ⟨rfl, course.retold (.retarget course.reads hkind)⟩
  case h_2 hkind =>
    have heq : { m with kind := .localTarget } = m := by
      cases m
      simpa using hkind.symm
    rw [heq]
    exact ⟨by simp [NodeClass.has, hkind], course⟩
  case h_9 hkind =>
    refine .ite (fun hname => ?_) fun _ => .ite (fun hattribute => ?_) fun _ => course.fail
    · have hchildren : m.children = [] := by
        simp only [Bool.and_eq_true, List.isEmpty_iff] at hname
        exact hname.1
      have hends : (s.declare m.name).tape.Ends := by
        rw [State.tape_declare]
        exact course.ends
      have hleft : (s.declare m.name).tape.left < b := by
        rw [State.tape_declare]
        exact course.left
      exact ⟨rfl, .target course.reads hkind hchildren, hends, hleft, course.le,
        fun _ hs => course.fails _ (.trans (.declare _ _) hs)⟩
    · exact ⟨by simpa [NodeClass.has, hkind] using hattribute, course⟩
  case h_10 => exact course.fail
  all_goals
    rename_i hkind
    exact ⟨by simp [NodeClass.has, hkind], course⟩

end Course

/-- An expression in the place of a target. -/
lemma Reader.assignable {p : Parser Node} (hp : Reader 1 n .expression p) :
    Reader 1 n .target (p >>= Grammar.assignable) := by
  intro s hends hleft
  refine (Course.begin hends hleft).node' hp fun m s' _ course => ?_
  exact course.assign.mono (fun _ hs => hs) fun m s' hm => ⟨hm.1, hm.2.reads, hm.2.left⟩

/-- A target among the nodes of a construct. -/
lemma Course.target {p : Parser Node} {f : Node → Parser α} (course : Course F n b s₀ ns s)
    (hp : Reader 1 n .expression p)
    (hf : ∀ m s', NodeClass.has .target m = true → Course F n b s₀ (ns ++ [m]) s' →
      Gives F Q (f m) s') : Gives F Q (p >>= fun m => assignable m >>= f) s := by
  refine course.fresh.node hp fun m s' _ course' => ?_
  exact course'.assign.bind fun m s' hm => hf m s' hm.1 (course.join hm.2)

/-- An expression becomes a target where it may stand as one. -/
lemma ListReader.target {p : Parser Node} (hp : Reader 1 n .expression p) :
    ListReader n [.maybe .target] (do return [← assignable (← p)]) :=
  .of fun _ course => course.target hp fun _ _ hm course => ⟨.some hm, course.reads⟩

namespace Inner

/-! ### Bodies -/

/-- A condition is one node of statements. -/
lemma condition (h : Inner g n) (keyword : Token) (doMayStand : Bool) :
    Reader 1 n .statement (g.condition keyword doMayStand) := by
  have hrest {p : Parser Node} (hp : Reader 1 n .statement p) : Reader 1 n .statement (do
      let node ← p
      separator keyword doMayStand
      return node) := by
    intro s hends hleft
    refine (Course.begin hends hleft).node' hp fun m s' hm course => ?_
    refine course.silent (.separator keyword doMayStand) fun _ s' course => ?_
    exact ⟨hm, course.reads, course.left⟩
  unfold Grammar.condition
  cases doMayStand with
  | true => exact hrest (Reader.withholdingDo (h.parse .expressionStatement))
  | false => exact hrest (h.parse .expressionStatement)

/-- A clause is one node of its kind, and its keyword is consumed. -/
lemma clause (h : Inner g n) (r : Ready F n s) (hkind : s.tape.kind ≠ .eof) {k : NodeKind}
    (hk : k = .else_ ∨ k = .ensureClause) (stops : List TokenKind) :
    Gives F (Yields (.of k) s.tape.left s) (g.clause k stops) s := by
  refine .view (r.drop hkind fun course => ?_)
  refine course.node (h.statements stops) fun m _ hm course => ?_
  rcases hk with rfl | rfl
  · exact course.finish rfl (.one hm .nil) (fun _ => rfl) fun _ => rfl
  · exact course.finish rfl (.one hm .nil) (fun _ => rfl) fun _ => rfl

/-- A clause that may be missing is at most one node. -/
lemma clauseIf (h : Inner g n) (keyword : Keyword) {k : NodeKind}
    (hk : k = .else_ ∨ k = .ensureClause) (stops : List TokenKind) :
    ListReader n [.maybe (.of k)] (g.clauseIf keyword k stops) := by
  refine .of fun s course => .view (.ite (fun hkeyword => ?_) fun _ => ⟨.none, course.reads⟩)
  have hkind : s.tape.kind ≠ .eof := by
    rw [eq_of_beq hkeyword]
    simp
  exact course.own (h.clause course.ready hkind hk stops) fun _ _ hm course =>
    ⟨.some hm, course.reads⟩

/-- There is at most one `else` branch. -/
lemma elseBranch (h : Inner g n) : ListReader n [.maybe (.of .else_)] g.elseBranch :=
  h.clauseIf .else_ (.inl rfl) _

/-- The classes close to a node of their own, also if there are none. -/
lemma rescueClause (h : Inner g n) (r : Ready F n s) (hkind : s.tape.kind ≠ .eof) :
    Gives F (Yields (.of .rescueClause) s.tape.left s) g.rescueClause s := by
  refine r.take hkind fun course => .view (.view ?_)
  have hbehind (classes : List Node) (s₁ : State)
      (hclasses : Fits NodeKind.arguments.layout classes)
      (course' : Course F n s.tape.left s.advanced classes s₁) :
      Gives F (Yields (.of .rescueClause) s.tape.left s) (do
        let classes ← finish .arguments s.advanced.start classes
        let target ←
          if ← accept (.punct .fatArrow) then (do return [← assignable (← g.parse .chain)])
          else pure []
        separator s.tape.current false
        let body ← g.parse (.statements bodyStops)
        finish .rescueClause s.tape.current.span.start (classes :: target ++ [body])) s₁ := by
    refine course.wrap rfl course' hclasses (fun _ => rfl) fun m hm course => ?_
    have hbody (target : List Node) (s₂ : State) (htarget : Fits [.maybe .target] target)
        (course : Course F n s.tape.left s ([m] ++ target) s₂) :
        Gives F (Yields (.of .rescueClause) s.tape.left s) (do
          separator s.tape.current false
          let body ← g.parse (.statements bodyStops)
          finish .rescueClause s.tape.current.span.start (m :: target ++ [body])) s₂ := by
      refine course.silent (.separator _ _) fun _ _ course => ?_
      refine course.node (h.statements _) fun body _ hbody course => ?_
      have hfits : Fits NodeKind.rescueClause.layout ([m] ++ target ++ [body]) :=
        ((Fits.one (by simp [NodeClass.has, hm]) .nil).append htarget).append (.one hbody .nil)
      exact course.finish rfl hfits (fun _ => rfl) fun _ => rfl
    refine course.accept (by decide) (fun _ course => ?_) (hbody [] s₁ .none course)
    exact course.nodes (.target (h.parse .chain)) fun target s₂ htarget course =>
      hbody target s₂ htarget course
  refine .ite (fun _ => ?_) fun _ => ?_
  · exact hbehind [] _ (.many (by simp)) course.fresh
  · have hclass : Reader 1 n .argument (g.parse .ternary) :=
      Reader.mono (h.parse .ternary) NodeClass.expression_within_argument
    refine course.fresh.nodes (h.separated .skipBreaks hclass) fun ms s₁ hms course => ?_
    exact hbehind ms s₁ hms course

/-- Any number of `rescue` clauses, each a node of its kind. -/
lemma rescueClauses (h : Inner g n) : ListReader n [.many (.of .rescueClause)] g.rescueClauses := by
  refine .iterate (Nat.le_of_lt h.rounds) fun s₀ seen s hseen => .view (.ite (fun hrescue => ?_) ?_)
  · have hkind : s.tape.kind ≠ .eof := by
      rw [eq_of_beq hrescue]
      simp
    refine hseen.course.own' (h.rescueClause hseen.course.ready hkind) fun m s' hm course => ?_
    exact (hseen.cons hm course).again (Nat.le_refl _)
  · exact fun _ => hseen.done

/-- The statements of a body and the clauses behind them. -/
lemma body (h : Inner g n) (opener : Token) : ListReader n NodeKind.bodyLayout (g.body opener) := by
  refine .of fun s course => course.node (h.statements _) fun m _ hm course => ?_
  refine course.nodes h.rescueClauses fun rescues _ hrescues course => ?_
  refine course.nodes (h.clauseIf .else_ (.inl rfl) _) fun otherwise _ hotherwise course => ?_
  refine course.nodes (h.clauseIf .ensure_ (.inr rfl) _) fun ensures _ hensures course => ?_
  refine course.silent (.expectEnd opener) fun _ _ course => ?_
  exact ⟨.one hm ((hrescues.append hotherwise).append hensures), course.reads⟩

/-! ### Parameters -/

/-- A default value is an expression. -/
lemma defaultValue (h : Inner g n) (inBlock : Bool) :
    Reader 1 n .expression (g.defaultValue inBlock) := by
  cases inBlock with
  | true => exact h.parse .unary
  | false => exact h.parse .ternary

/-- Parameters in parentheses are any number of parameters. -/
lemma parameterList (h : Inner g n) (opener : Token) :
    ListReader n [.many .parameter] (g.parameterList opener) :=
  h.items (h.parse (.parameter false)) (by decide)

end Inner

/-- The course behind a name that was declared. -/
lemma Ready.declared (r : Ready F n s) (hmore : s.tape.Consumable) (name : String) :
    Course F n s.tape.left (s.advanced.declare name) [] (s.advanced.declare name) := by
  have hpasses : Passes s (s.advanced.declare name) :=
    .trans (.steps hmore.steps) (.declare _ _)
  refine ⟨.refl _, hpasses.ends r.ends, ?_, r.left, fun _ hs => r.fails _ (hpasses.trans hs)⟩
  rw [State.tape_declare]
  exact hmore.left_advance

/-- A parameter ends behind its name, or behind its default value. -/
lemma gives_parameter {s₁ s₂ : State} {name : String} (hbefore : Reads s [] s₁)
    (hmore : s₁.tape.Consumable) (hbinds : Binds s₁.tape.current name)
    (hfits : Fits NodeKind.parameter.layout ns)
    (course : Course (Passes s) n s₁.tape.left (s₁.advanced.declare name) ns s₂) :
    Gives (Passes s) (Yields .parameter s.tape.left s)
      (finishNamed .parameter s.tape.current.span.start name ns) s₂ :=
  ⟨rfl, .parameter hbefore hmore hbinds course.reads hfits,
    Nat.lt_of_lt_of_le course.left hbefore.passes.left_le⟩

/-- The parameter behind a star or an ampersand has a name or none. -/
lemma gives_spreadParameter (r : Ready (Passes s) n s) (hkind : s.tape.kind ≠ .eof) :
    Gives (Passes s) (Yields .parameter s.tape.left s) (do
      drop
      if ← check .identifier then
        let name := (← advance).text
        declare name
        finishNamed .parameter s.tape.current.span.start name []
      else finishNamed .parameter s.tape.current.span.start "" []) s := by
  refine r.drop hkind fun course => .view (.ite (fun hname => ?_) fun _ => ?_)
  · have hidentifier : s.advanced.tape.kind = .identifier := eq_of_beq hname
    have hmore := course.ends.consumable (by simp [hidentifier])
    refine course.take hmore.kind fun _ => .declare ?_
    have hnamed := course.ready.declared hmore s.advanced.tape.current.text
    exact gives_parameter course.reads hmore (.identifier hidentifier) .none hnamed
  · exact course.finishNamed rfl .none (fun _ => rfl) fun _ => rfl

namespace Inner

/-- A parameter declares its name before its default value is read. -/
lemma parameter (h : Inner g n) (inBlock : Bool) :
    Reader 1 (n + 1) .parameter (g.parameter inBlock) := by
  refine .of fun s r => .view (.view ?_)
  have hvalue := ListReader.one (h.defaultValue inBlock)
  split
  case h_1 hkind =>
    have hmore := r.ends.consumable (by simp [hkind])
    have course := r.declared hmore s.tape.current.text
    refine r.take hmore.kind fun _ => .declare ?_
    refine course.accept (by decide) (fun _ course => ?_) ?_
    · exact course.nodes hvalue fun _ _ hns course =>
        gives_parameter (.refl s) hmore (.identifier hkind) hns course
    · exact gives_parameter (.refl s) hmore (.identifier hkind) .none course
  case h_2 hkind =>
    have hmore := r.ends.consumable (by simp [hkind])
    have course := r.declared hmore (labelName s.tape.current.text)
    refine r.take hmore.kind fun _ => .declare (.view (.ite (fun _ => ?_) fun _ => ?_))
    · exact gives_parameter (.refl s) hmore (.label hkind) .none course
    · exact course.nodes hvalue fun _ _ hns course =>
        gives_parameter (.refl s) hmore (.label hkind) hns course
  case h_3 hkind => exact gives_spreadParameter r (by simp [hkind])
  case h_4 hkind => exact gives_spreadParameter r (by simp [hkind])
  case h_5 hkind => exact gives_spreadParameter r (by simp [hkind])
  case h_6 hkind =>
    refine r.drop (by simp [hkind]) fun _ => ?_
    exact r.leaf (by simp [hkind]) .none (fun _ => rfl) (fun _ => rfl) nofun
  case h_7 hkind =>
    refine r.take (by simp [hkind]) fun course => ?_
    refine course.nodes (h.parameterList _) fun ms _ hms course => ?_
    exact course.finish rfl (hms.mono (NodeClass.within_right _ _)) (fun _ => rfl) fun _ => rfl
  case h_8 => exact r.refuse

/-- Parameters without parentheses are any number of parameters. -/
lemma bareParameters (h : Inner g n) : ListReader n [.many .parameter] g.bareParameters :=
  h.separated (.pure ()) ((h.parameter false).lower (Nat.le_succ n))

/-! ### Blocks -/

/-- Parameters between bars are any number of parameters. -/
lemma barredParameters (h : Inner g n) : ListReader n [.many .parameter] g.barredParameters := by
  have hparameter := (h.parameter true).lower (Nat.le_succ n)
  refine .iterate (Nat.le_of_lt h.rounds) fun s₀ seen s hseen => ?_
  refine .view (.ite (fun _ => hseen.done) fun _ => ?_)
  refine hseen.course.node' hparameter fun m s' hm course => ?_
  exact (hseen.cons hm course).unlessComma (Nat.le_refl _) (.pure ())

end Inner

/-- A variable of a block is one leaf. -/
lemma reader_blockLocal : Reader 1 (n + 1) (.of .blockLocal) blockLocal := by
  refine .of fun s r => r.expect (by decide) fun hkind course => .declare ?_
  have hmore := r.ends.consumable (by simp [hkind])
  have hleft := (r.declared hmore s.tape.current.text).left
  set name := s.tape.current.text
  change Yields _ _ s (.leaf .blockLocal (s.advanced.declare name).tape.previous.span name)
    (s.advanced.declare name)
  rw [State.tape_declare, State.advanced, hmore.previous_advance]
  exact ⟨rfl, .blockLocal hmore hkind, hleft⟩

/-- The bar behind a block's parameters makes no node. -/
lemma Skipper.closingBar (opener : Token) : Skipper n (closingBar opener) := by
  intro s hends hleft
  refine .view (.ite (fun _ => Skipper.report _ hends hleft) fun _ => ?_)
  exact (Skipper.expect _).discard hends hleft

namespace Inner

/-- The variables of a block are any number of such leaves. -/
lemma blockLocals (h : Inner g n) : ListReader n [.many (.of .blockLocal)] g.blockLocals := by
  refine .of fun s course => course.accept (by decide) (fun _ course => ?_) ?_
  · exact course.tail (h.separated (.pure ()) (reader_blockLocal.lower (Nat.le_succ n)))
  · exact ⟨.many (by simp), course.reads⟩

/-- A bar in front of the parameters is consumed. -/
lemma blockParameters_of (h : Inner g n) {b' : ℕ} (course : Course F n b s₀ ns s) (hb : b' ≤ n)
    (hless : s.tape.left < b' ∨ s.tape.left ≤ b' ∧ s.tape.kind = .punct .pipe) :
    Gives F (fun ms s' => Fits [.maybe (.of .blockParameters)] ms ∧ Course F n b' s₀ (ns ++ ms) s')
      g.blockParameters s := by
  have hof {m : Node} (hm : m.kind = .blockParameters) :
      Fits [.maybe (.of .blockParameters)] [m] := .some (by simp [NodeClass.has, hm])
  refine .view (course.accept (by decide) (fun hpipes _ => ?_) (.view (.ite (fun hpipe => ?_) ?_)))
  · have hleft := hless.resolve_right (by simp [hpipes])
    refine (course.bounded hleft hb).wrap rfl (course.fresh.advanced (by simp [hpipes])) ?_ ?_ ?_
    · exact .enough (.enough .nil)
    · exact fun _ => rfl
    · exact fun m hm course => ⟨hof hm, course⟩
  · have hkind : s.tape.kind ≠ .eof := by
      rw [eq_of_beq hpipe]
      simp
    have hle : s.tape.left ≤ b' := hless.elim Nat.le_of_lt And.left
    have hinside := course.fresh.advanced' hkind
    replace hinside := hinside.bounded (Nat.lt_of_lt_of_le hinside.left hle) hb
    refine course.take hkind fun _ => ?_
    refine hinside.nodes h.barredParameters fun _ _ hparameters hinside => ?_
    refine hinside.nodes h.blockLocals fun _ _ hlocals hinside => ?_
    refine hinside.silent (.closingBar _) fun _ s' hinside => ?_
    refine course.wrap rfl hinside (hparameters.append hlocals) (fun _ => rfl) fun m hm course => ?_
    exact ⟨hof hm, course.bounded hinside.left hb⟩
  · intro hnone
    have hleft := hless.resolve_right fun hpipe => hnone (by simp [hpipe.2])
    exact ⟨.none, by simpa using course.bounded hleft hb⟩

/-- A block has at most one node of parameters. -/
lemma blockParameters (h : Inner g n) :
    ListReader n [.maybe (.of .blockParameters)] g.blockParameters := by
  refine .of fun s course => ?_
  refine (h.blockParameters_of course (Nat.le_refl n) (.inl course.left)).mono (fun _ hs => hs) ?_
  exact fun _ _ hms => ⟨hms.1, hms.2.reads⟩

/-- Statements between braces are one node. -/
lemma bracedStatements (h : Inner g n) (opener : Token) :
    Reader 0 n (.of .statements) (g.bracedStatements opener) := by
  refine .ofCourse fun s course => course.node (h.statements _) fun m _ hm course => ?_
  exact course.silent (.expectCloser opener _) fun _ _ course => course.yield hm

/-- A block between braces is one node, and its brace is consumed. -/
lemma braceBlock (h : Inner g n) (r : Ready F n s) (hkind : s.tape.kind ≠ .eof) :
    Gives F (Yields (.of .block) s.tape.left s) g.braceBlock s := by
  refine r.take hkind fun course => course.inScope fun s₁ _ course => ?_
  refine course.nodes h.blockParameters fun _ _ hparameters course => ?_
  refine course.node (h.bracedStatements _) fun m _ hm course => ?_
  exact course.built rfl (hparameters.append (.bareBody hm)) (fun _ => rfl) fun _ => rfl

/-- A block behind its opener, or behind the bar that stands in its place. -/
lemma doBlockBehind (h : Inner g n) {opener : Token} {b' : ℕ} (course : Course F n b s₀ [] s)
    (hopener : opener.span.start = s₀.start) (hb : b' ≤ n)
    (hless : s.tape.left < b' ∨ s.tape.left ≤ b' ∧ s.tape.kind = .punct .pipe) :
    Gives F (Yields (.of .block) b' s₀) (g.doBlockBehind opener) s := by
  refine course.inScope fun s₁ htape course => ?_
  rw [← htape] at hless
  refine (h.blockParameters_of course hb hless).bind fun parameters s₂ hparameters => ?_
  obtain ⟨hfits, course⟩ := hparameters
  refine course.nodes (h.body opener) fun body _ hbody course => ?_
  rw [hopener]
  exact course.built rfl (hfits.append hbody) (fun _ => rfl) fun _ => rfl

/-- A block behind `do` is one node, and its keyword is consumed. -/
lemma doBlock (h : Inner g n) (r : Ready F n s) (hkind : s.tape.kind ≠ .eof) :
    Gives F (Yields (.of .block) s.tape.left s) g.doBlock s := by
  refine r.take hkind fun course => ?_
  exact h.doBlockBehind course rfl r.left (.inl course.left)

/-- An anonymous function has at most one node of parameters. -/
lemma lambdaParameters (h : Inner g n) :
    ListReader n [.maybe (.of .blockParameters)] g.lambdaParameters := by
  have hclose {s s' : State} {ms : List Node} (hms : Fits [.many .parameter] ms)
      (course : Course (Passes s) n n s [] s) (course' : Course (Passes s) n n s ms s') :
      Gives (Passes s) (fun ms s' => Fits [.maybe (.of .blockParameters)] ms ∧ Reads s ms s')
        (do return [← finish .blockParameters s.start ms]) s' :=
    course.wrap rfl course' hms.append_enough (fun _ => rfl) fun m hm course =>
      ⟨.some (by simp [NodeClass.has, hm]), course.reads⟩
  refine .of fun s course => .view (.view (.ite (fun hparen => ?_) fun _ => .ite (fun _ => ?_) ?_))
  · have hkind : s.tape.kind ≠ .eof := by
      rw [eq_of_beq hparen]
      simp
    refine course.take hkind fun course' => ?_
    exact course'.nodes (h.parameterList _) fun _ _ hms course' => hclose hms course course'
  · exact ⟨.none, course.reads⟩
  · exact fun _ => course.nodes h.bareParameters fun _ _ hms course' => hclose hms course course'

/-- The body of an anonymous function is laid out as a body is, in either of its forms. -/
lemma lambdaBody (h : Inner g n) : ListReader n NodeKind.bodyLayout g.lambdaBody := by
  refine .of fun s course => .view ?_
  split
  case h_1 hkind =>
    refine course.take (by simp [hkind]) fun course => ?_
    exact course.node (h.bracedStatements _) fun _ _ hm course => ⟨.bareBody hm, course.reads⟩
  case h_2 hkind =>
    exact course.take (by simp [hkind]) fun course => course.tail (h.body _)
  case h_3 => exact course.refuse

/-- An anonymous function is an expression. -/
lemma lambda (h : Inner g n) (r : Ready F n s) (hkind : s.tape.kind ≠ .eof) :
    Gives F (Yields .expression s.tape.left s) g.lambda s := by
  refine r.take hkind fun course => course.inScope fun s₁ _ course => ?_
  refine course.nodes h.lambdaParameters fun _ _ hparameters course => ?_
  refine course.nodes h.lambdaBody fun _ _ hbody course => ?_
  exact course.built rfl (hparameters.append hbody) (fun _ => rfl) fun _ => rfl

end Inner

end RubyCheck.Grammar
