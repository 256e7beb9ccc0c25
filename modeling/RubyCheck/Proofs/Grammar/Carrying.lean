import RubyCheck.Proofs.Grammar.Carries
import RubyCheck.Proofs.Grammar.Composing

/-!
# Every production carries over

Each production reads the same in front of other tokens as in front of the end of its own text
(`Carries`), provided that the goals inside it do.  There is one lemma for each production, and it
follows the parts that the production is composed of: looks ahead that stop at a line break or at the
bracket that is open, and tokens that turn the number of open brackets.
-/

namespace RubyCheck.Grammar

variable {α σ : Type} {K : Tape → Prop} {c c' : Footing} {n n' : ℕ} {k mark : TokenKind}
  {p p' : Parser Node}

/-! ### Looking ahead -/

/-- Looking for the bar that ends the parameters of a block stops at a line break. -/
lemma endsBareParameters_append {ts : List Token} (hne : ts ≠ [])
    (hbreak : ∀ t ∈ ts.getLast?, t.kind = .newline) (us us' : List Token) :
    endsBareParameters (ts ++ us) = endsBareParameters (ts ++ us') := by
  induction ts with
  | nil => exact absurd rfl hne
  | cons t ts ih =>
    simp only [List.cons_append, endsBareParameters]
    cases ts with
    | nil => rw [hbreak t rfl]
    | cons v vs =>
      have ih := ih (List.cons_ne_nil _ _) (by simpa using hbreak)
      split
      all_goals first | exact ih | rfl

/-- Whether a block lost its opener is seen among the tokens of the text. -/
lemma lacksBlockOpener_before {tape outer : Tape} (hbreak : tape.EndsInBreak)
    (h : tape.ahead ≠ []) (hkind : tape.kind ≠ .newline) :
    lacksBlockOpener (tape.before outer).ahead = lacksBlockOpener tape.ahead := by
  obtain ⟨consumed, t, ahead⟩ := tape
  obtain ⟨u, us, rfl⟩ := List.exists_cons_of_ne_nil h
  obtain ⟨v, vs, rfl⟩ := List.exists_cons_of_ne_nil (hbreak.next hkind)
  have hlast : ∀ x ∈ (u :: v :: vs).dropLast.getLast?, x.kind = .newline := by
    intro x hx
    refine hbreak x ?_
    rw [Tape.pending, List.dropLast_cons_of_ne_nil (List.cons_ne_nil _ _), List.getLast?_cons]
    rw [Option.mem_def] at hx
    rw [hx]
    rfl
  have hsame := endsBareParameters_append (by simp) hlast (outer.current :: outer.ahead)
    [(u :: v :: vs).getLast (List.cons_ne_nil _ _)]
  rw [List.dropLast_append_getLast] at hsame
  exact congrArg (u.kind != .punct .pipe && ·) hsame

/-- Looking for the equals sign behind several targets stops at a line break that stands in no
brackets. -/
lemma assignsSeveral_append {ts : List Token} {d : ℕ} (hne : ts ≠ [])
    (hbreak : ∀ t ∈ ts.getLast?, t.kind = .newline) (hcloses : Tape.openBehind d ts = 0)
    (comma afterName : Bool) (us us' : List Token) :
    assignsSeveral d comma afterName (ts ++ us) = assignsSeveral d comma afterName (ts ++ us') := by
  induction ts generalizing d comma afterName with
  | nil => exact absurd rfl hne
  | cons t ts ih =>
    simp only [List.cons_append, assignsSeveral]
    rw [Tape.openBehind_cons] at hcloses
    cases ts with
    | nil =>
      have ht := hbreak t rfl
      rw [ht] at hcloses ⊢
      have hd : d = 0 := hcloses
      subst hd
      rfl
    | cons v vs =>
      have ih {d : ℕ} (hcloses : Tape.openBehind d (v :: vs) = 0) (comma afterName : Bool) :=
        ih (List.cons_ne_nil _ _) (by simpa using hbreak) hcloses comma afterName
      by_cases hd : 0 < d
      · rw [if_pos hd, if_pos hd]
        split
        case h_5 => rfl
        case h_6 =>
          have hturn : t.kind.turn d = d := by
            unfold TokenKind.turn
            split
            all_goals first | rfl | exact absurd ‹_› ‹_›
          exact ih (hturn ▸ hcloses) _ _
        all_goals
          rename_i hk
          rw [hk] at hcloses
          exact ih hcloses _ _
      · obtain rfl : d = 0 := Nat.eq_zero_of_not_pos hd
        rw [if_neg hd, if_neg hd]
        split
        all_goals first
          | rfl
          | rename_i hk
            rw [hk] at hcloses
            first
            | exact ih hcloses _ _
            | exact congrArg (!afterName && ·) (ih hcloses _ _)

/-- Whether several targets stand here is seen among the tokens of the text. -/
lemma assignsSeveral_before {tape outer : Tape} (hbreak : tape.EndsInBreak)
    (hcloses : tape.Closes) (h : tape.ahead ≠ []) :
    assignsSeveral 0 false false ((tape.before outer).current :: (tape.before outer).ahead) =
      assignsSeveral 0 false false (tape.current :: tape.ahead) := by
  have hpending : tape.pending ≠ [] := fun hnone => h (Tape.pending_eq_nil.mp hnone)
  rw [Tape.tokens_before, assignsSeveral_append hpending hbreak hcloses _ _ _
    [(tape.current :: tape.ahead).getLast (List.cons_ne_nil _ _)], Tape.pending,
    List.dropLast_append_getLast]

namespace Carries

/-- What would come behind a fault that is reported. -/
lemma stop {x : α} {Q : α → Stage} {p' : Parser α} :
    Carries .never Q (Pure.pure x) p' :=
  .unreachable fun s => .refl s

/-! ### Lists -/

/-- A comma is no line break, and what is read behind it decides where the next round begins. -/
lemma unlessComma {s : σ} {x : α} {b : Parser Unit}
    (hb : Carries ⟨Anything, .solid, n⟩ (reach c n) b b) :
    Carries ⟨K, .solid, n⟩ (Round.stage ⟨Anything, c, n⟩ (reach .solid n))
      (unlessComma b s x) (unlessComma b s x) :=
  .bind (.accept rfl) fun _ => .ite (hb.bind fun _ => .again) .ended

/-- A list with commas leaves off behind its last item. -/
lemma separated [Footing.begun.Below c] {b : Parser Unit} {rounds rounds' : ℕ}
    (hb : Carries ⟨Anything, .solid, n⟩ (reach .begun n) b b)
    (hp : Carries ⟨Anything, .begun, n⟩ (reach .solid n) p p') (hrounds : rounds ≤ rounds')
    :
    Carries ⟨K, c, n⟩ (reach .solid n) (separated rounds b p) (separated rounds' b p') :=
  .weaken (c := .begun) (.iterate (fun _ => hp.bind fun _ => unlessComma hb) hrounds _)

/-- An array of values ends where the last of them does. -/
lemma arrayOf {start : Position} (ns : List Node) :
    Carries ⟨K, .solid, n⟩ (reach .solid n) (arrayOf start ns) (arrayOf start ns) := by
  unfold Grammar.arrayOf
  split
  · exact .done
  · exact .finish

/-! ### Items -/

/-- Behind line breaks the end of the text is a fault, so if there is none, what is seen behind them
is the same. -/
lemma behindBreak {opener : Token} {closer : TokenKind} (hcloser : closer.isSolid = true)
    (seen : List Node) :
    Carries ⟨AtKind k, .solid, n⟩ (Round.stage ⟨Anything, .begun, n⟩ (reach .solid n'))
      (behindBreak opener closer seen) (behindBreak opener closer seen) := by
  refine .learn (P := fun k tape => (tape.passOver (· == .newline)).kind = k)
    (fun s outer ha hhosts hahead => ?_) (fun _ _ => rfl) fun k => ?_
  · by_cases hnone : (s.tape.passOver (· == .newline)).ahead = []
    · right
      intro x s' hrun
      have hends : (s.tape.passOver (· == .newline)).Ends :=
        Tape.onward_ends.steps (Tape.steps_passOver rfl _) hhosts.ends
      have heof : s.tape.kindBehindBreaks = .eof := by
        rwa [Tape.Ends, hnone] at hends
      have hnot : (TokenKind.eof == closer) = false :=
        beq_eq_false_iff_ne.mpr (TokenKind.ne_eof_of_isSolid hcloser).symm
      simp only [heof, hnot] at hrun
      cases hrun
    · left
      change ((s.tape.before outer.tape).passOver _).kind = _
      rw [Tape.before_passOver hnone, Tape.kind_before hnone]
      rfl
  · refine .ite .again (.dite (fun hk => ?_) (.ite .fail (.bind .report fun _ => stop)))
    rw [eq_of_beq hk]
    exact .bind (.skipBreaksKnown (P := AtKind _) fun _ h => h) fun _ =>
      .bind (.drop rfl) fun _ => .again

/-- Behind an item the list goes on behind its comma, or its closer is consumed. -/
lemma behindItem {opener : Token} {closer : TokenKind} (hcloser : closer.isSolid = true)
    (seen : List Node) :
    Carries ⟨K, .solid, n⟩ (Round.stage ⟨Anything, .begun, n⟩ (reach .solid n'))
      (behindItem opener closer seen) (behindItem opener closer seen) := by
  refine .kind fun k => .dite (fun hk => ?_) ?_
  · rw [eq_of_beq hk]
    exact .bind (.drop rfl) fun _ => .again
  · exact .ite .again (.ite (.behindBreak hcloser _) (.ite .fail .refuse))

/-- An item keeps its brackets balanced, and a closer closes the one that was opened for it. -/
lemma itemOrCloser {opener : Token} {closer : TokenKind} (hcloser : closer.isSolid = true)
    (hturns : closer.Turns n n') (hp : Carries ⟨Anything, .begun, n⟩ (reach .solid n) p p')
    (seen : List Node) :
    Carries ⟨Anything, .begun, n⟩ (Round.stage ⟨Anything, .begun, n⟩ (reach .solid n'))
      (itemOrCloser opener closer p seen) (itemOrCloser opener closer p' seen) := by
  refine .bind .skipBreaks fun _ => .bind (.acceptTurning hcloser hturns) fun found => ?_
  cases found with
  | true => exact .ended
  | false =>
    refine .see (fun _ _ _ _ hahead => congrArg Token.isEof (Tape.current_before hahead)) ?_
    exact fun _ => .ite .fail (hp.bind fun _ => .behindItem hcloser _)

/-- The items behind an opener and their closer, which closes what the opener opened. -/
lemma items {g g' : Grammar} {opener : Token} {closer : TokenKind} (hrounds : g.rounds ≤ g'.rounds)
    (hcloser : closer.isSolid = true) (hturns : closer.Turns n n')
    (hp : Carries ⟨Anything, .begun, n⟩ (reach .solid n) p p') :
    Carries ⟨Anything, .solid, n⟩ (reach .solid n') (items g opener closer p)
      (items g' opener closer p') :=
  .weaken (c := .begun) (.iterate (itemOrCloser hcloser hturns hp) hrounds [])

/-! ### Productions without goals -/

/-- What is known of the tape stays known. -/
lemma assignable (m : Node) :
    Carries ⟨K, c, n⟩ (fun _ => ⟨K, c, n⟩) (assignable m) (assignable m) := by
  have hpure (m : Node) :
      Carries ⟨K, c, n⟩ (fun _ => ⟨K, c, n⟩) (Pure.pure m) (Pure.pure m) := .pure (fun _ h => h) rfl
  unfold Grammar.assignable
  split
  case h_9 => exact .ite (.bind .declare fun _ => hpure _) (.ite (hpure _) .fail)
  case h_10 => exact .fail
  all_goals exact hpure _

/-- What separates a condition from the statements may be a line break. -/
lemma separator [Footing.begun.Below c] {keyword : Token} {doMayStand : Bool} :
    Carries ⟨K, c, n⟩ (reach .begun n) (separator keyword doMayStand)
      (separator keyword doMayStand) := by
  refine .weaken (c := .begun) (.kind fun k => ?_)
  split
  · exact .settle (.drop rfl)
  · exact .bind .skipTerminators fun _ => .discard (.accept rfl)
  · exact .bind .skipTerminators fun _ => .discard (.accept rfl)
  · exact .done
  · refine .dite (fun hk => ?_) (.current fun _ => .report)
    rw [eq_of_beq (Bool.and_eq_true_iff.mp hk).2]
    exact .settle (.drop rfl)

/-- The `end` of a construct is no bracket. -/
lemma expectEnd {opener : Token} :
    Carries ⟨K, c, n⟩ (reach .solid n) (expectEnd opener) (expectEnd opener) :=
  .expectCloser rfl fun _ => rfl

/-- A variable of a block is no bracket. -/
lemma blockLocal : Carries ⟨K, c, n⟩ (reach .solid n) blockLocal blockLocal :=
  .bind (.expect rfl) fun _ => .bind .declare fun _ => .leaf

/-- The bar that closes parameters is no bracket. -/
lemma closingBar {opener : Token} :
    Carries ⟨K, c, n⟩ (reach .solid n) (closingBar opener) (closingBar opener) :=
  .check .report (.discard (.expect rfl))

/-- A percent literal is one token. -/
lemma percentLiteral :
    Carries ⟨AtKind .percentLiteral, c, n⟩ (reach .solid n) percentLiteral percentLiteral :=
  .bind (.advance rfl) fun _ => .leaf

/-- A symbol is one token. -/
lemma symbol : Carries ⟨AtKind .symbol, c, n⟩ (reach .solid n) symbol symbol :=
  .bind (.advance rfl) fun _ => .leaf

/-- An owner is followed by a dot on its line. -/
lemma owner : Carries ⟨K, c, n⟩ (reach c n) owner owner := by
  refine .test (P := fun tape => namesOwner tape.current tape.next = true)
    (fun s outer _ hhosts hahead => ?_) (fun _ h => h) ?_ .done
  · change namesOwner (s.tape.before outer.tape).current (s.tape.before outer.tape).next = _
    rw [Tape.current_before hahead]
    by_cases hkind : s.tape.kind = .newline
    · have hnot (next : Token) : namesOwner s.tape.current next = false :=
        Bool.eq_false_iff.mpr fun h => absurd hkind
          (TokenKind.ne_newline_of_isSolid (TokenKind.isSolid_of_isFlat (isFlat_of_namesOwner h)))
      rw [hnot, hnot]
    · rw [Tape.next_before hhosts.endsInBreak hahead hkind]
  · have hsolid (tape : Tape) (h : namesOwner tape.current tape.next = true) :
        tape.kind.isSolid = true := TokenKind.isSolid_of_isFlat (isFlat_of_namesOwner h)
    refine .bind (.advanceKnown (P := AtKind (.punct .dot)) hsolid
      (fun _ h => TokenKind.turns_of_isFlat (isFlat_of_namesOwner h) n) fun tape h => ?_) fun _ =>
        .bind (.drop rfl) fun _ => .done
    obtain ⟨-, hnext⟩ := Bool.and_eq_true_iff.mp h
    exact (Tape.kind_advance (TokenKind.ne_eof_of_isSolid (hsolid tape h))).trans
      (eq_of_beq hnext)

/-- The name of a method is one token or two, with its owner in front. -/
lemma methodName : Carries ⟨K, c, n⟩ (reach .solid n) methodName methodName :=
  .bind owner fun _ => .kind fun _ => .dite
    (fun hk => .bind (.advance (isFlat_of_namesMethod hk)) fun _ => .done) .refuse

/-- The name of a method is one token. -/
lemma methodReference :
    Carries ⟨K, c, n⟩ (reach .solid n) methodReference methodReference := by
  refine .kind fun k => .dite (fun hk => ?_) (.dite (fun hk => ?_) (.dite (fun hk => ?_) .refuse))
  · rw [eq_of_beq hk]
    exact .takeLeaf rfl
  · rw [eq_of_beq hk]
    exact .symbol
  · exact .takeLeaf (isFlat_of_namesMethod hk)

/-- Two names behind a keyword. -/
lemma alias_ : Carries ⟨AtKind (.keyword .alias_), c, n⟩ (reach .solid n) alias_ alias_ :=
  .here fun _ => .bind (.drop rfl) fun _ => methodReference.bind fun _ => methodReference.bind fun _ =>
    .finish

/-- A constant behind two colons. -/
lemma outermostConstant :
    Carries ⟨AtKind (.punct .colonColon), c, n⟩ (reach .solid n) outermostConstant
      outermostConstant :=
  .here fun _ => .bind (.drop rfl) fun _ => .bind (.expect rfl) fun _ => .finishNamed

/-- A parenthesis behind the dot is left. -/
lemma calledName :
    Carries ⟨K, .solid, n⟩ (reach .solid n) calledName calledName :=
  .kind fun _ => .ite .done (.dite
    (fun hk => .bind (.advance (isFlat_of_namesMethod hk)) fun _ => .done) .refuse)

/-- An operation ends where its right operand does. -/
lemma joined {start : Position} {left right : Node} (operator : Punct) :
    Carries ⟨K, .solid, n⟩ (reach .solid n) (joined start operator left right)
      (joined start operator left right) := by
  unfold Grammar.joined
  split
  · exact .finish
  · exact .finish
  · exact .finishNamed

end Carries

/-! ### Goals -/

/-- Behind what kind of token a goal ends.  Lists of statements may end behind line breaks. -/
abbrev Goal.footing : Goal → Footing
  | .statements _ | .branch _ => .begun
  | _ => .solid

/-- The goals inside two productions, the second of which may go further, give the same inside other
texts.  The targets of a loop do not begin at a line break. -/
structure Carrying (g g' : Grammar) : Prop where
  rounds : g.rounds ≤ g'.rounds
  parse (goal : Goal) {K : Tape → Prop} {c : Footing} {n : ℕ} [Footing.begun.Below c] :
    Carries ⟨K, c, n⟩ (reach goal.footing n) (g.parse goal) (g'.parse goal)
  breaks (s : State) (hs : s.tape.kind = .newline) (m : Node) (s' : State) :
    g.parse .chain s ≠ .ok m s' ∧ g.parse (.targets none) s ≠ .ok m s'

namespace Carrying

variable {g g' : Grammar} {start : Position} {keyword opener : Token} {stops : List TokenKind}

/-! ### Arguments -/

/-- The bracket that the opening parenthesis opens is closed behind the arguments. -/
lemma parenArguments (h : Carrying g g') :
    Carries ⟨AtKind (.punct .lParen), c, n⟩ (reach .solid n) g.parenArguments g'.parenArguments :=
  .bind (.opening (.inl rfl)) fun _ =>
    .bind (.allowingDo (.items h.rounds rfl (fun _ => rfl) (h.parse .argument))) fun _ => .finish

/-- Arguments without parentheses leave off behind the last of them. -/
lemma commandArguments (h : Carrying g g') :
    Carries ⟨K, .solid, n⟩ (reach .solid n) g.commandArguments g'.commandArguments :=
  .here fun _ => .bind
    (.withholdingDo (.separated .skipBreaks (h.parse .argument) h.rounds)) fun _ => .finish

/-- No argument begins at a line break. -/
lemma beginsArgument_of_newline {t : Token} (next : Token) (h : t.kind = .newline) :
    beginsArgument t next = false := by
  rw [beginsArgument, h]
  exact Bool.and_false _

/-- Whether arguments follow is seen on the line of the name. -/
lemma callArguments (h : Carrying g g') :
    Carries ⟨K, .solid, n⟩ (reach .solid n) g.callArguments g'.callArguments := by
  refine .testCurrent (fun _ => kind_of_opensArguments) (.one h.parenArguments) ?_
  refine .see (fun s outer _ hhosts hahead => ?_) fun _ => .ite (.one h.commandArguments) .done
  change beginsArgument (s.tape.before outer.tape).current (s.tape.before outer.tape).next = _
  rw [Tape.current_before hahead]
  by_cases hkind : s.tape.kind = .newline
  · rw [beginsArgument_of_newline _ hkind, beginsArgument_of_newline _ hkind]
  · rw [Tape.next_before hhosts.endsInBreak hahead hkind]

/-- A name, and whether it is a variable is told by the scopes up to a closed one. -/
lemma bareName (h : Carrying g g') :
    Carries ⟨AtKind .identifier, c, n⟩ (reach .solid n) g.bareName g'.bareName := by
  refine .here fun _ => .bind (.advance rfl) fun t => .see (fun s outer _ hhosts hahead => ?_) fun _ =>
    .ite .leaf (.bind h.callArguments fun _ => .finishNamed)
  change ((s.inside outer).isLocal t.text &&
    !opensArguments (s.tape.before outer.tape).current) = _
  rw [State.isLocal_inside hhosts, Tape.current_before hahead]

/-- A constant and its arguments. -/
lemma constant (h : Carrying g g') :
    Carries ⟨AtKind .constant, c, n⟩ (reach .solid n) g.constant g'.constant :=
  .here fun _ => .bind (.advance rfl) fun _ => .testCurrent (fun _ => kind_of_opensArguments)
    (.bind h.parenArguments fun _ => .finishNamed) .leaf

/-- A keyword and its arguments. -/
lemma keywordCall (h : Carrying g g') {kind : NodeKind} (hk : k.isFlat = true) :
    Carries ⟨AtKind k, c, n⟩ (reach .solid n) (g.keywordCall kind) (g'.keywordCall kind) :=
  .here fun _ => .bind (.drop hk) fun _ => .bind h.callArguments fun _ => .finish

/-- A label and its value; whether its name is a variable is told by the scopes up to a closed one. -/
lemma labelPair (h : Carrying g g') :
    Carries ⟨AtKind .label, c, n⟩ (reach .solid n) g.labelPair g'.labelPair := by
  refine .here fun _ => .bind (.advance rfl) fun t => .bind .leaf fun _ => .kind fun _ => .ite ?_ ?_
  · refine .see (fun s outer _ hhosts _ => State.isLocal_inside hhosts _) fun c => ?_
    exact .bind .leaf fun _ => .finish
  · exact .bind (h.parse .expression) fun _ => .finish

/-! ### Bodies -/

/-- A condition leaves off behind its separator, which may be a line break. -/
lemma condition (h : Carrying g g') [Footing.begun.Below c] {doMayStand : Bool} :
    Carries ⟨K, c, n⟩ (reach .begun n) (g.condition keyword doMayStand)
      (g'.condition keyword doMayStand) := by
  unfold Grammar.condition
  exact .ite (.bind (.withholdingDo (h.parse .expressionStatement)) fun _ =>
      .bind .separator fun _ => .done)
    (.bind (h.parse .expressionStatement) fun _ => .bind .separator fun _ => .done)

/-- A clause leaves off behind its statements, perhaps behind a line break. -/
lemma clause (h : Carrying g g') {kind : NodeKind} (hk : k.isFlat = true) :
    Carries ⟨AtKind k, c, n⟩ (reach .begun n) (g.clause kind stops) (g'.clause kind stops) :=
  .here fun _ => .bind (.drop hk) fun _ => .bind (h.parse (.statements _)) fun _ => .finish

/-- A clause that is missing reads nothing. -/
lemma clauseIf (h : Carrying g g') {word : Keyword} {kind : NodeKind} :
    Carries ⟨K, .begun, n⟩ (reach .begun n) (g.clauseIf word kind stops)
      (g'.clauseIf word kind stops) :=
  .check (.one (h.clause rfl)) .done

/-- An `else` that is missing reads nothing. -/
lemma elseBranch (h : Carrying g g') :
    Carries ⟨K, .begun, n⟩ (reach .begun n) g.elseBranch g'.elseBranch :=
  h.clauseIf

/-- A `rescue` leaves off behind its statements, perhaps behind a line break. -/
lemma rescueClause (h : Carrying g g') :
    Carries ⟨AtKind (.keyword .rescue_), c, n⟩ (reach .begun n) g.rescueClause
      g'.rescueClause := by
  refine .bind (.advance rfl) fun keyword => .here fun start => .kind fun _ => ?_
  have hclasses (classes : List Node) : Carries ⟨Anything, .solid, n⟩ (reach .begun n) (do
        let classes ← Grammar.finish .arguments start classes
        let target ←
          if ← accept (.punct .fatArrow) then (do return [← assignable (← g.parse .chain)])
          else pure []
        separator keyword false
        let body ← g.parse (.statements bodyStops)
        Grammar.finish .rescueClause keyword.span.start (classes :: target ++ [body])) (do
        let classes ← Grammar.finish .arguments start classes
        let target ←
          if ← accept (.punct .fatArrow) then (do return [← assignable (← g'.parse .chain)])
          else pure []
        separator keyword false
        let body ← g'.parse (.statements bodyStops)
        Grammar.finish .rescueClause keyword.span.start (classes :: target ++ [body])) := by
    refine .bind .finish fun _ => .bind (.accept rfl) fun _ => .iteBind (R := reach .solid n) ?_ .done
      fun _ => .bind .separator fun _ => .bind (h.parse (.statements _)) fun _ => .finish
    exact .bind (h.parse .chain) fun _ => .one (.assignable _)
  exact .iteBind .done (.separated .skipBreaks (h.parse .ternary) h.rounds) hclasses

/-- As many `rescue` clauses are read, one after the other. -/
lemma rescueClauses (h : Carrying g g') :
    Carries ⟨K, .begun, n⟩ (reach .begun n) g.rescueClauses g'.rescueClauses :=
  .weaken (c := .begun)
    (.iterate (fun _ => .check (.bind h.rescueClause fun _ => .again) .ended) h.rounds _)

/-- A body leaves off behind its `end`. -/
lemma body (h : Carrying g g') :
    Carries ⟨K, .solid, n⟩ (reach .solid n) (g.body opener) (g'.body opener) :=
  .bind (h.parse (.statements _)) fun _ => .bind h.rescueClauses fun _ =>
    .bind h.clauseIf fun _ => .bind h.clauseIf fun _ => .bind .expectEnd fun _ => .done

/-! ### Parameters and blocks -/

/-- A default value leaves off behind itself. -/
lemma defaultValue (h : Carrying g g') (inBlock : Bool) :
    Carries ⟨K, .solid, n⟩ (reach .solid n) (g.defaultValue inBlock) (g'.defaultValue inBlock) := by
  cases inBlock with
  | true => exact h.parse .unary
  | false => exact h.parse .ternary

/-- The bracket in front of the parameters is closed behind them. -/
lemma parameterList (h : Carrying g g') :
    Carries ⟨Anything, .solid, n + 1⟩ (reach .solid n) (g.parameterList opener)
      (g'.parameterList opener) :=
  .items h.rounds rfl (fun _ => rfl) (h.parse (.parameter false))

/-- A star or two and a name. -/
lemma spreadParameter (hk : k.isFlat = true) :
    Carries ⟨AtKind k, c, n⟩ (reach .solid n) (do
      Grammar.drop
      if ← Grammar.check .identifier then
        let name := (← Grammar.advance).text
        Grammar.declare name
        Grammar.finishNamed .parameter start name []
      else Grammar.finishNamed .parameter start "" []) (do
      Grammar.drop
      if ← Grammar.check .identifier then
        let name := (← Grammar.advance).text
        Grammar.declare name
        Grammar.finishNamed .parameter start name []
      else Grammar.finishNamed .parameter start "" []) :=
  .bind (.drop hk) fun _ => .check
    (.bind (.advance rfl) fun _ => .bind .declare fun _ => .finishNamed) .finishNamed

/-- A parameter leaves off behind its name or its default value. -/
lemma parameter (h : Carrying g g') (inBlock : Bool) :
    Carries ⟨K, c, n⟩ (reach .solid n) (g.parameter inBlock) (g'.parameter inBlock) := by
  refine .here fun start => .kind fun k => ?_
  split
  · exact .bind (.advance rfl) fun _ => .bind .declare fun _ => .bind (.accept rfl) fun _ =>
      .iteBind (.one (h.defaultValue _)) .done fun _ => .finishNamed
  · exact .bind (.advance rfl) fun _ => .bind .declare fun _ => .kind fun _ =>
      .iteBind (R := reach .solid n) .done (.one (h.defaultValue _)) fun _ => .finishNamed
  · exact spreadParameter rfl
  · exact spreadParameter rfl
  · exact spreadParameter rfl
  · exact .takeAs rfl
  · exact .bind (.opening (.inl rfl)) fun _ => .bind h.parameterList fun _ => .finish
  · exact .refuse

/-- Parameters without parentheses leave off behind the last of them. -/
lemma bareParameters (h : Carrying g g') :
    Carries ⟨K, .solid, n⟩ (reach .solid n) g.bareParameters g'.bareParameters :=
  .separated .done (h.parameter _) h.rounds

/-- Parameters between bars leave off in front of the bar. -/
lemma barredParameters (h : Carrying g g') :
    Carries ⟨K, .solid, n⟩ (reach .solid n) g.barredParameters g'.barredParameters := by
  refine .weaken (c := .solid) (.iterate (fun seen => .kind fun _ => .ite .ended ?_) h.rounds _)
  exact .bind (h.parameter _) fun _ => .unlessComma .done

/-- The variables of a block leave off in front of the bar. -/
lemma blockLocals (h : Carrying g g') :
    Carries ⟨K, .solid, n⟩ (reach .solid n) g.blockLocals g'.blockLocals :=
  .bind (.accept rfl) fun _ => .ite (.separated .done .blockLocal h.rounds) .done

/-- Bars are no brackets. -/
lemma blockParameters (h : Carrying g g') :
    Carries ⟨K, .solid, n⟩ (reach .solid n) g.blockParameters g'.blockParameters := by
  refine .here fun _ => .bind (.accept rfl) fun _ => .ite (.one .finish) (.check ?_ .done)
  exact .bind (.advance rfl) fun _ => .bind h.barredParameters fun _ => .bind h.blockLocals fun _ =>
    .bind .closingBar fun _ => .one .finish

/-- The brace behind statements closes the one in front of them. -/
lemma bracedStatements (h : Carrying g g') :
    Carries ⟨K, .solid, n⟩ (reach .solid n) (g.bracedStatements opener)
      (g'.bracedStatements opener) :=
  .bind (h.parse (.statements _)) fun _ => .bind (.expectCloser rfl fun _ => rfl) fun _ => .done

/-- The brace that opens a block is closed with it. -/
lemma braceBlock (h : Carrying g g') :
    Carries ⟨AtKind (.punct .lBrace), c, n⟩ (reach .solid n) g.braceBlock g'.braceBlock :=
  .bind (.advance rfl) fun _ => .inScope <| .allowingDo <| .bind h.blockParameters fun _ =>
    .bind h.bracedStatements fun _ => .finish

/-- A block behind `do` leaves off behind its `end`. -/
lemma doBlockBehind (h : Carrying g g') :
    Carries ⟨K, .solid, n⟩ (reach .solid n) (g.doBlockBehind opener) (g'.doBlockBehind opener) :=
  .inScope <| .allowingDo <| .bind h.blockParameters fun _ => .bind h.body fun _ => .finish

/-- A block between `do` and `end`. -/
lemma doBlock (h : Carrying g g') :
    Carries ⟨AtKind (.keyword .do_), c, n⟩ (reach .solid n) g.doBlock g'.doBlock :=
  .bind (.advance rfl) fun _ => h.doBlockBehind

/-- The parameters of an anonymous function, or none. -/
lemma lambdaParameters (h : Carrying g g') :
    Carries ⟨K, .solid, n⟩ (reach .solid n) g.lambdaParameters g'.lambdaParameters := by
  refine .here fun _ => .kind fun k => .dite (fun hk => ?_) (.ite .done ?_)
  · rw [eq_of_beq hk]
    exact .bind (.opening (.inl rfl)) fun _ => .bind h.parameterList fun _ => .one .finish
  · exact .bind h.bareParameters fun _ => .one .finish

/-- The body of an anonymous function closes what it opens. -/
lemma lambdaBody (h : Carrying g g') :
    Carries ⟨K, .solid, n⟩ (reach .solid n) g.lambdaBody g'.lambdaBody := by
  refine .kind fun k => ?_
  split
  · exact .bind (.advance rfl) fun _ => .one h.bracedStatements
  · exact .bind (.advance rfl) fun _ => h.body
  · exact .refuse

/-- An anonymous function closes what it opens. -/
lemma lambda (h : Carrying g g') :
    Carries ⟨AtKind (.punct .arrow), c, n⟩ (reach .solid n) g.lambda g'.lambda :=
  .bind (.advance rfl) fun _ => .inScope <| .allowingDo <| .bind h.lambdaParameters fun _ =>
    .bind h.lambdaBody fun _ => .finish

/-! ### Control flow -/

/-- A branch leaves off behind its statements, perhaps behind a line break. -/
lemma branch (h : Carrying g g') [Footing.begun.Below c] :
    Carries ⟨K, c, n⟩ (reach .begun n) (g.branch keyword) (g'.branch keyword) := by
  refine .bind h.condition fun _ => .bind (h.parse (.statements _)) fun _ => .check ?_ ?_
  · exact .bind (.advance rfl) fun _ => .bind (R := reach .begun n)
      (.one (.nested (h.parse (.branch _)))) fun _ => .finish
  · exact .bind h.elseBranch fun _ => .finish

/-- An `if` leaves off behind its `end`. -/
lemma conditional (h : Carrying g g') :
    Carries ⟨AtKind (.keyword .if_), c, n⟩ (reach .solid n) g.conditional g'.conditional :=
  .bind (.advance rfl) fun _ => .bind h.branch fun _ => .bind .expectEnd fun _ =>
    .bind (.seePrevious (f := id)) fun _ => .done

/-- An `unless` leaves off behind its `end`. -/
lemma negatedConditional (h : Carrying g g') :
    Carries ⟨AtKind (.keyword .unless_), c, n⟩ (reach .solid n) g.negatedConditional
      g'.negatedConditional :=
  .bind (.advance rfl) fun _ => .bind h.condition fun _ => .bind (h.parse (.statements _)) fun _ =>
    .bind h.elseBranch fun _ => .bind .expectEnd fun _ => .finish

/-- The body of a loop leaves off behind its `end`. -/
lemma loopBody (h : Carrying g g') :
    Carries ⟨K, .begun, n⟩ (reach .solid n) (g.loopBody opener) (g'.loopBody opener) :=
  .bind (h.parse (.statements _)) fun _ => .bind .expectEnd fun _ => .done

/-- A `while` or `until` leaves off behind its `end`. -/
lemma conditionLoop (h : Carrying g g') {kind : NodeKind} (hk : k.isFlat = true) :
    Carries ⟨AtKind k, c, n⟩ (reach .solid n) (g.conditionLoop kind) (g'.conditionLoop kind) :=
  .bind (.advance hk) fun _ => .bind h.condition fun _ => .bind h.loopBody fun _ => .finish

/-- Whether a comma follows is seen on the line of the first target. -/
lemma loopTarget (h : Carrying g g') :
    Carries ⟨K, .solid, n⟩ (reach .solid n) g.loopTarget g'.loopTarget := by
  refine .learn (P := fun _ => K) (fun s outer _ hhosts hahead => ?_) (fun _ h => h) fun _ =>
    .ite (h.parse (.targets none)) (.bind (h.parse .chain) fun _ => .assignable _)
  by_cases hkind : s.tape.kind = .newline
  · right
    intro x s' hrun
    split at hrun
    · exact (h.breaks s hkind _ _).2 hrun
    · obtain ⟨m, s₁, hchain, -⟩ := exists_of_bind hrun
      exact (h.breaks s hkind _ _).1 hchain
  · left
    exact congrArg (·.kind == .punct .comma) (Tape.next_before hhosts.endsInBreak hahead hkind)

/-- A `for` leaves off behind its `end`. -/
lemma iteration (h : Carrying g g') :
    Carries ⟨AtKind (.keyword .for_), c, n⟩ (reach .solid n) g.iteration g'.iteration :=
  .bind (.advance rfl) fun _ => .bind h.loopTarget fun _ => .bind (.discard (.expect rfl)) fun _ =>
    .bind h.condition fun _ => .bind h.loopBody fun _ => .finish

/-- What stands in a clause leaves off behind its statements, perhaps behind a line break. -/
lemma clauseBody (h : Carrying g g') :
    Carries ⟨K, .solid, n⟩ (reach .begun n) (g.clauseBody keyword) (g'.clauseBody keyword) :=
  .bind .separator fun _ => h.parse (.statements _)

/-- A `when` leaves off behind its statements, perhaps behind a line break. -/
lemma valueClause (h : Carrying g g') :
    Carries ⟨AtKind (.keyword .when_), c, n⟩ (reach .begun n) g.valueClause g'.valueClause :=
  .bind (.advance rfl) fun _ => .here fun _ =>
    .bind (.separated .skipBreaks (h.parse .argument) h.rounds) fun _ => .bind .finish fun _ =>
      .bind h.clauseBody fun _ => .finish

/-- A keyword for a guard is no bracket. -/
lemma isFlat_of_guardKind? {kind : NodeKind} (h : guardKind? k = some kind) : k.isFlat = true := by
  unfold guardKind? at h
  split at h
  all_goals first | rfl | cases h

/-- A pattern with its guard leaves off behind the guard. -/
lemma guarded (h : Carrying g g') {pattern : Node} :
    Carries ⟨K, .solid, n⟩ (reach .solid n) (g.guarded start pattern)
      (g'.guarded start pattern) := by
  refine .kind fun k => ?_
  split
  · rename_i hk
    exact .bind (.drop (isFlat_of_guardKind? hk)) fun _ => .bind (h.parse .expression) fun _ =>
      .finish
  · exact .done

/-- An `in` leaves off behind its statements, perhaps behind a line break. -/
lemma patternClause (h : Carrying g g') :
    Carries ⟨AtKind (.keyword .in_), c, n⟩ (reach .begun n) g.patternClause g'.patternClause :=
  .bind (.advance rfl) fun _ => .here fun _ =>
    .bind (.separated .done (h.parse .argument) h.rounds) fun _ => .bind (.arrayOf _) fun _ =>
      .bind h.guarded fun _ => .bind h.clauseBody fun _ => .finish

/-- As many clauses are read, one after the other. -/
lemma clauses (h : Carrying g g') :
    Carries ⟨K, .begun, n⟩ (reach .begun n) g.clauses g'.clauses := by
  refine .weaken (c := .begun) (.iterate (fun seen => .kind fun k => ?_) h.rounds _)
  split
  · exact .bind h.valueClause fun _ => .again
  · exact .bind h.patternClause fun _ => .again
  · exact .ended

/-- A `case` leaves off behind its `end`. -/
lemma choice (h : Carrying g g') :
    Carries ⟨AtKind (.keyword .case_), c, n⟩ (reach .solid n) g.choice g'.choice := by
  refine .bind (.advance rfl) fun _ => .kind fun _ => .iteBind (R := reach .solid n) .done
    (.one (h.parse .expressionStatement)) fun _ => ?_
  exact .bind .skipTerminators fun _ => .bind h.clauses fun _ => .bind h.elseBranch fun _ =>
    .bind .expectEnd fun _ => .finish

/-- A `begin` leaves off behind its `end`. -/
lemma protectedBody (h : Carrying g g') :
    Carries ⟨AtKind (.keyword .begin_), c, n⟩ (reach .solid n) g.protectedBody g'.protectedBody :=
  .bind (.advance rfl) fun _ => .bind h.body fun _ => .finish

/-- A keyword that leaves a construct leaves off behind its last value, or behind itself. -/
lemma jump (h : Carrying g g') {kind : NodeKind} (hk : k.isFlat = true) :
    Carries ⟨AtKind k, c, n⟩ (reach .solid n) (g.jump kind) (g'.jump kind) := by
  refine .here fun _ => .bind (.drop hk) fun _ =>
    .see (fun _ _ _ _ hahead => congrArg startsOperand (Tape.kind_before hahead)) fun _ =>
      .ite (.here fun _ => ?_) .finish
  exact .bind (.separated .skipBreaks (h.parse .argument) h.rounds) fun _ =>
    .bind (.arrayOf _) fun _ => .finish

/-- The parenthesis in front of what is tested is closed behind it. -/
lemma definedOperand (h : Carrying g g') :
    Carries ⟨AtKind (.punct .lParen), c, n⟩ (reach .solid n) g.definedOperand g'.definedOperand :=
  .bind (.opening (.inl rfl)) fun _ => .bind (.allowingDo (h.parse .expressionStatement)) fun _ =>
    .bind .skipBreaks fun _ => .bind (.expectCloser rfl fun _ => rfl) fun _ => .done

/-- A `defined?` leaves off behind its operand. -/
lemma definedTest (h : Carrying g g') :
    Carries ⟨AtKind (.keyword .defined_), c, n⟩ (reach .solid n) g.definedTest g'.definedTest :=
  .here fun _ => .bind (.drop rfl) fun _ => .check (.bind h.definedOperand fun _ => .finish)
    (.bind (h.parse .unary) fun _ => .finish)

/-! ### Literals -/

/-- Code inside a literal is closed by its brace. -/
lemma interpolation (h : Carrying g g') :
    Carries ⟨AtKind .interpolationBegin, c, n⟩ (reach .solid n) g.interpolation g'.interpolation :=
  .here fun _ => .bind (.drop rfl) fun _ => .bind (.allowingDo (h.parse (.statements _))) fun _ =>
    .bind (.discard (.expect rfl)) fun _ => .finish

/-- A piece of a literal closes what it opens. -/
lemma piece (h : Carrying g g') (seen : String × List Node) :
    Carries ⟨K, .solid, n⟩ (Round.stage ⟨Anything, .solid, n⟩ (reach .solid n)) (g.piece seen)
      (g'.piece seen) := by
  refine .kind fun k => ?_
  split
  · exact .bind (.advance rfl) fun _ => .again
  · exact .bind h.interpolation fun _ => .again
  · exact .bind (.drop rfl) fun _ => .ended
  · exact .refuse

/-- A literal leaves off behind its end. -/
lemma quoted (h : Carrying g g') {kind : NodeKind} (hk : k.isFlat = true) :
    Carries ⟨AtKind k, c, n⟩ (reach .solid n) (g.quoted kind) (g'.quoted kind) := by
  refine .here fun _ => .bind (.drop hk) fun _ => .bind (.iterate h.piece h.rounds _) fun _ => ?_
  exact .ite .finishNamed .finish

/-- The bracket in front of an array is closed behind it. -/
lemma array (h : Carrying g g') :
    Carries ⟨AtKind (.punct .lBracket), c, n⟩ (reach .solid n) g.array g'.array :=
  .bind (.opening (.inr rfl)) fun _ =>
    .bind (.allowingDo (.items h.rounds rfl (fun _ => rfl) (h.parse .argument))) fun _ => .finish

/-- A pair of a hash leaves off behind its value. -/
lemma hashItem (h : Carrying g g') :
    Carries ⟨K, .begun, n⟩ (reach .solid n) g.hashItem g'.hashItem := by
  refine .here fun _ => .kind fun k => ?_
  split
  · exact h.labelPair
  · exact .bind (.drop rfl) fun _ => .bind (h.parse .ternary) fun _ => .finish
  · exact .bind (h.parse .expression) fun _ => .bind (.discard (.expect rfl)) fun _ =>
      .bind .skipBreaks fun _ => .bind (h.parse .expression) fun _ => .finish

/-- Braces are not counted among the brackets. -/
lemma hash (h : Carrying g g') :
    Carries ⟨AtKind (.punct .lBrace), c, n⟩ (reach .solid n) g.hash g'.hash :=
  .bind (.advance rfl) fun _ =>
    .bind (.allowingDo (.items h.rounds rfl (fun _ => rfl) h.hashItem)) fun _ => .finish

/-- The parenthesis in front of statements is closed behind them. -/
lemma paren (h : Carrying g g') :
    Carries ⟨AtKind (.punct .lParen), c, n⟩ (reach .solid n) g.paren g'.paren :=
  .bind (.opening (.inl rfl)) fun _ => .bind (.allowingDo (h.parse (.statements _))) fun _ =>
    .bind (.expectCloser rfl fun _ => rfl) fun _ => .finish

/-! ### Definitions -/

/-- The parameters of a method close what they open. -/
lemma methodParameters (h : Carrying g g') :
    Carries ⟨K, .solid, n⟩ (reach .solid n) g.methodParameters g'.methodParameters := by
  refine .here fun _ => .kind fun k => .dite (fun hk => ?_) (.iteBind (R := reach .solid n) .done
    h.bareParameters fun _ => .finish)
  rw [eq_of_beq hk]
  exact .bind (.bind (.opening (.inl rfl)) fun _ => h.parameterList) fun _ => .finish

/-- The body of a method leaves off behind its `end`, or behind the statement that it is. -/
lemma methodBody (h : Carrying g g') :
    Carries ⟨K, .solid, n⟩ (reach .solid n) (g.methodBody opener) (g'.methodBody opener) :=
  .bind (.accept rfl) fun _ => .ite
    (.bind .skipBreaks fun _ => .bind (h.parse .statement) fun _ => .done) h.body

/-- A method reads behind a closed scope, so nothing around matters to it. -/
lemma method (h : Carrying g g') :
    Carries ⟨AtKind (.keyword .def_), c, n⟩ (reach .solid n) g.method g'.method :=
  .bind (.advance rfl) fun _ => .bind .methodName fun _ => .inScope <| .allowingDo <|
    .bind h.methodParameters fun _ => .bind h.methodBody fun _ => .finishNamed

/-- A path of constants leaves off behind its last name. -/
lemma constantPath (h : Carrying g g') :
    Carries ⟨K, .solid, n⟩ (reach .solid n) g.constantPath g'.constantPath := by
  refine .bind (.accept rfl) fun _ => .bind (.expect rfl) fun _ => .iterate (fun _ => ?_) h.rounds _
  refine .testCurrent (f := fun t => t.kind == .punct .colonColon && !t.spaced)
    (fun _ ht => eq_of_beq (Bool.and_eq_true_iff.mp ht).1) ?_ .ended
  exact .bind (.drop rfl) fun _ => .bind (.expect rfl) fun _ => .again

/-- A body behind a closed scope leaves off behind its `end`. -/
lemma scopedBody (h : Carrying g g') :
    Carries ⟨K, .solid, n⟩ (reach .solid n) (g.scopedBody opener) (g'.scopedBody opener) :=
  .inScope (.allowingDo h.body)

/-- A class leaves off behind its `end`. -/
lemma classDefinition (h : Carrying g g') :
    Carries ⟨AtKind (.keyword .class_), c, n⟩ (reach .solid n) g.classDefinition
      g'.classDefinition := by
  refine .bind (.advance rfl) fun _ => .bind (.accept rfl) fun _ => .ite ?_ ?_
  · exact .bind (h.parse .expression) fun _ => .bind h.scopedBody fun _ => .finish
  · exact .bind h.constantPath fun _ => .bind (.accept rfl) fun _ => .iteBind
      (R := reach .solid n) (.one (h.parse .expression)) .done fun _ =>
        .bind h.scopedBody fun _ => .finishNamed

/-- A module leaves off behind its `end`. -/
lemma moduleDefinition (h : Carrying g g') :
    Carries ⟨AtKind (.keyword .module_), c, n⟩ (reach .solid n) g.moduleDefinition
      g'.moduleDefinition :=
  .bind (.advance rfl) fun _ => .bind h.constantPath fun _ => .bind h.scopedBody fun _ =>
    .finishNamed

/-- An `undef` leaves off behind its last name. -/
lemma undef (h : Carrying g g') :
    Carries ⟨AtKind (.keyword .undef_), c, n⟩ (reach .solid n) g.undef g'.undef :=
  .here fun _ => .bind (.drop rfl) fun _ =>
    .bind (.separated .done .methodReference h.rounds) fun _ => .finish

/-- The brace in front of the statements of a hook is closed behind them. -/
lemma hook (h : Carrying g g') {kind : NodeKind} (hk : k.isFlat = true) :
    Carries ⟨AtKind k, c, n⟩ (reach .solid n) (g.hook kind) (g'.hook kind) :=
  .bind (.advance hk) fun _ => .bind (.expect rfl) fun _ =>
    .bind (.inScope (.allowingDo (h.parse (.statements _)))) fun _ =>
      .bind (.expectCloser rfl fun _ => rfl) fun _ => .finish

/-! ### Operands -/

/-- A `not` leaves off behind its operand. -/
lemma negation (h : Carrying g g') :
    Carries ⟨AtKind (.keyword .not_), c, n⟩ (reach .solid n) g.negation g'.negation :=
  .here fun _ => .bind (.drop rfl) fun _ => .bind (h.parse .expression) fun _ => .finish

/-- What a keyword begins closes what it opens. -/
lemma keywordOperand (h : Carrying g g') (word : Keyword) :
    Carries ⟨AtKind (.keyword word), c, n⟩ (reach .solid n) (g.keywordOperand word)
      (g'.keywordOperand word) := by
  cases word with
  | nil_ | true_ | false_ | self_ | redo_ | retry_ => exact .takeAs rfl
  | def_ => exact h.method
  | class_ => exact h.classDefinition
  | module_ => exact h.moduleDefinition
  | alias_ => exact .alias_
  | undef_ => exact h.undef
  | beginHook | endHook => exact h.hook rfl
  | if_ => exact h.conditional
  | unless_ => exact h.negatedConditional
  | while_ | until_ => exact h.conditionLoop rfl
  | for_ => exact h.iteration
  | case_ => exact h.choice
  | begin_ => exact h.protectedBody
  | return_ | break_ | next_ => exact h.jump rfl
  | yield_ | super_ => exact h.keywordCall rfl
  | defined_ => exact h.definedTest
  | not_ => exact h.negation
  | and_ | do_ | else_ | elsif_ | end_ | ensure_ | in_ | or_ | rescue_ | then_ | when_ =>
    exact .refuse

/-- What a mark begins closes what it opens, the mark itself included. -/
lemma markOperand (h : Carrying g g') (mark : Punct) :
    Carries ⟨AtKind (.punct mark), c, n⟩ (reach .solid n) (g.markOperand mark)
      (g'.markOperand mark) := by
  unfold Grammar.markOperand
  split
  · exact .outermostConstant
  · exact h.array
  · exact h.hash
  · exact h.paren
  · exact h.lambda
  · exact .refuse

/-- An operand closes what it opens. -/
lemma operand (h : Carrying g g') :
    Carries ⟨K, c, n⟩ (reach .solid n) g.operand g'.operand := by
  refine .kind fun k => ?_
  cases k with
  | integer | legacyOctal | float | character => exact .takeLeaf rfl
  | percentLiteral => exact .percentLiteral
  | stringBegin | regexBegin => exact h.quoted rfl
  | symbol => exact .symbol
  | identifier => exact h.bareName
  | constant => exact h.constant
  | instanceVariable | classVariable | globalVariable => exact .takeLeaf rfl
  | keyword word => exact h.keywordOperand word
  | punct mark => exact h.markOperand mark
  | stringContent | stringEnd | interpolationBegin | interpolationEnd => exact .refuse
  | label | opAssign | newline | eof => exact .refuse

/-! ### Chains and operations -/

/-- A call leaves off behind its name or its arguments. -/
lemma methodCall (h : Carrying g g') {receiver : Node} :
    Carries ⟨K, .solid, n⟩ (reach .solid n) (g.methodCall receiver start)
      (g'.methodCall receiver start) :=
  .bind .calledName fun _ => .bind h.callArguments fun _ => .finishNamed

/-- Whether a constant is called is seen on its line. -/
lemma scopedName (h : Carrying g g') {scope : Node} :
    Carries ⟨K, .solid, n⟩ (reach .solid n) (g.scopedName scope start)
      (g'.scopedName scope start) := by
  refine .learn (P := fun _ => K) (fun s outer _ hhosts hahead => ?_) (fun _ h => h) fun next =>
    .kind fun k => .dite (fun hk => ?_) (.ite h.methodCall .refuse)
  · by_cases hkind : s.tape.kind = .newline
    · right
      intro x s' hrun
      rw [Grammar.kind, view_bind_eq, hkind] at hrun
      cases hrun
    · exact .inl (Tape.next_before hhosts.endsInBreak hahead hkind)
  · rw [eq_of_beq (Bool.and_eq_true_iff.mp hk).1]
    exact .bind (.advance rfl) fun _ => .finishNamed

/-- The bracket in front of indices is closed behind them. -/
lemma element (h : Carrying g g') {receiver : Node} :
    Carries ⟨AtKind (.punct .lBracket), c, n⟩ (reach .solid n) (g.element receiver start)
      (g'.element receiver start) :=
  .bind (.opening (.inr rfl)) fun _ =>
    .bind (.allowingDo (.items h.rounds rfl (fun _ => rfl) (h.parse .argument))) fun _ =>
      .bind .finish fun _ => .finish

/-- A block that lost its opener is a fault, and nothing has to be the same behind it. -/
lemma openerlessBlock (h : Carrying g g') :
    Carries ⟨K, .solid, n⟩ (reach .solid n) g.openerlessBlock g'.openerlessBlock :=
  .current fun _ => .bind (R := reach .solid n) .report fun _ => h.doBlockBehind

/-- A link of a chain closes what it opens; a look ahead for a lost opener stays inside the text. -/
lemma link (h : Carrying g g') (m : Node) :
    Carries ⟨K, .solid, n⟩ (Round.stage ⟨Anything, .solid, n⟩ (reach .solid n))
      (g.link start m) (g'.link start m) := by
  refine .current fun t => ?_
  split
  case h_1 hk | h_2 hk =>
    rw [hk]
    exact .bind (.drop rfl) fun _ => .bind h.methodCall fun _ => .again
  case h_3 hk =>
    rw [hk]
    exact .ite .ended (.bind (.drop rfl) fun _ => .bind h.scopedName fun _ => .again)
  case h_4 hk =>
    rw [hk]
    exact .ite .ended (.bind h.element fun _ => .again)
  case h_5 hk =>
    rw [hk]
    exact .ite (.bind h.braceBlock fun _ => .again) .ended
  case h_6 hk =>
    rw [hk]
    exact .see (fun _ _ _ _ _ => rfl) fun _ => .ite (.bind h.doBlock fun _ => .again) .ended
  case h_7 hk =>
    rw [hk]
    refine .see (fun s outer ha hhosts hahead => ?_) fun _ =>
      .ite (.bind h.openerlessBlock fun _ => .again) .ended
    refine lacksBlockOpener_before hhosts.endsInBreak hahead ?_
    rw [ha.knows]
    decide
  case h_8 => exact .ended

/-- A chain leaves off behind its last link. -/
lemma chain (h : Carrying g g') : Carries ⟨K, c, n⟩ (reach .solid n) g.chain g'.chain :=
  .here fun _ => .bind h.operand fun _ => .iterate h.link h.rounds _

/-- A power leaves off behind its exponent. -/
lemma power (h : Carrying g g') : Carries ⟨K, c, n⟩ (reach .solid n) g.power g'.power :=
  .here fun _ => .bind h.chain fun _ => .bind (.accept rfl) fun _ =>
    .ite (.bind (.nested (h.parse .unary)) fun _ => .finishNamed) .done

/-- Prefix operators are no brackets. -/
lemma unary (h : Carrying g g') : Carries ⟨K, c, n⟩ (reach .solid n) g.unary g'.unary := by
  refine .here fun _ => .kind fun k => ?_
  split
  · exact .bind (.drop rfl) fun _ => .bind (.nested (h.parse .unary)) fun _ => .finish
  · exact .bind (.advance rfl) fun _ => .bind (.nested (h.parse .unary)) fun _ => .finishNamed
  · exact .bind (.advance rfl) fun _ => .bind (.nested (h.parse .unary)) fun _ => .finishNamed
  · exact .bind (.advance rfl) fun _ => .bind (.nested (h.parse .unary)) fun _ => .finishNamed
  · exact h.power

/-- A binary operator is no bracket. -/
lemma isFlat_of_ofToken? {l : Level × Punct} (h : Level.ofToken? k = some l) : k.isFlat = true := by
  cases k with
  | punct mark => cases mark with
    | lParen | rParen | lBracket | rBracket => cases h
    | _ => rfl
  | _ => cases h

/-- An operator with its right side leaves off behind that. -/
lemma operatorRound (h : Carrying g g') (least : Level) (left : Node) :
    Carries ⟨K, .solid, n⟩ (Round.stage ⟨Anything, .solid, n⟩ (reach .solid n))
      (g.operatorRound least start left) (g'.operatorRound least start left) := by
  have hright (l : Level) :
      Carries ⟨Anything, .solid, n⟩ (reach .solid n) (g.parse (rightGoal l))
        (g'.parse (rightGoal l)) := by
    unfold rightGoal
    split
    · exact h.parse (.binary _)
    · exact h.parse .unary
  refine .kind fun k => ?_
  split
  · rename_i hk
    exact .ite .ended (.bind (.drop (isFlat_of_ofToken? hk)) fun _ => .bind (.nested (hright _))
      fun _ => .bind (.joined _) fun _ => .again)
  · exact .ended

/-- An operation leaves off behind its last operand. -/
lemma binary (h : Carrying g g') (least : Level) :
    Carries ⟨K, c, n⟩ (reach .solid n) (g.binary least) (g'.binary least) :=
  .here fun _ => .bind h.unary fun _ => .iterate (h.operatorRound least) h.rounds _

/-- A range leaves off behind its upper end, or behind its dots if no operand follows. -/
lemma range (h : Carrying g g') : Carries ⟨K, c, n⟩ (reach .solid n) g.range g'.range := by
  refine .here fun _ => .kind fun k => .dite (fun hk => ?_) ?_
  · exact .bind (.advance (isFlat_of_isRangeOperator hk)) fun _ =>
      .bind (h.binary _) fun _ => .finishNamed
  · refine .bind (h.binary _) fun _ => .kind fun k => .dite (fun hk => ?_) .done
    refine .bind (.advance (isFlat_of_isRangeOperator hk)) fun _ =>
      .see (fun _ _ _ _ hahead => congrArg startsOperand (Tape.kind_before hahead)) fun _ => ?_
    exact .iteBind (R := reach .solid n) (.one (h.binary _)) .done fun _ => .finishNamed

/-- A choice leaves off behind its last value. -/
lemma ternary (h : Carrying g g') : Carries ⟨K, c, n⟩ (reach .solid n) g.ternary g'.ternary := by
  refine .here fun _ => .bind h.range fun _ => .bind (.accept rfl) fun _ => .ite ?_ .done
  exact .bind .skipBreaks fun _ => .bind (.nested (h.parse .ternary)) fun _ =>
    .bind .skipBreaks fun _ => .bind (.discard (.expect rfl)) fun _ => .bind .skipBreaks fun _ =>
      .bind (.nested (h.parse .ternary)) fun _ => .finish

/-! ### Expressions -/

/-- What is assigned leaves off behind itself. -/
lemma assignedValue (h : Carrying g g') [Footing.begun.Below c] :
    Carries ⟨K, c, n⟩ (reach .solid n) g.assignedValue g'.assignedValue :=
  .check (.here fun _ => .bind (.drop rfl) fun _ => .bind (h.parse .ternary) fun _ => .finish)
    (h.parse .expression)

/-- An assignment leaves off behind its value. -/
lemma assignment (h : Carrying g g') :
    Carries ⟨K, c, n⟩ (reach .solid n) g.assignment g'.assignment := by
  refine .here fun _ => .bind h.ternary fun left => .kind fun k => ?_
  split
  · exact .bind (.assignable _) fun _ => .bind (.drop rfl) fun _ => .bind h.assignedValue fun _ =>
      .finish
  · exact .bind (.assignable _) fun _ => .bind (.advance rfl) fun _ =>
      .bind h.assignedValue fun _ => .finishNamed
  · exact .done

/-- An expression closes what it opens. -/
lemma expression (h : Carrying g g') :
    Carries ⟨K, c, n⟩ (reach .solid n) g.expression g'.expression :=
  .nested h.assignment

/-- An operator that spreads is no bracket. -/
lemma isFlat_of_spreadKind? {kind : NodeKind} (h : spreadKind? k = some kind) :
    k.isFlat = true := by
  unfold spreadKind? at h
  split at h
  all_goals first | rfl | cases h

/-- An argument leaves off behind itself. -/
lemma argument (h : Carrying g g') :
    Carries ⟨K, c, n⟩ (reach .solid n) g.argument g'.argument := by
  refine .kind fun k => ?_
  split
  · rename_i spread hk
    refine .here fun _ => .bind (.drop (isFlat_of_spreadKind? hk)) fun _ =>
      .see (fun _ _ _ _ hahead => congrArg startsOperand (Tape.kind_before hahead)) fun _ => ?_
    exact .ite (.bind (h.parse .ternary) fun _ => .finish) .finish
  · refine .dite (fun hk => ?_) (.here fun _ => .bind h.expression fun _ =>
      .bind (.accept rfl) fun _ => .ite ?_ .done)
    · rw [eq_of_beq hk]
      exact h.labelPair
    · exact .bind .skipBreaks fun _ => .bind (h.parse .expression) fun _ => .finish

/-! ### Statements -/

/-- A target closes what it opens. -/
lemma target (h : Carrying g g') : Carries ⟨K, c, n⟩ (reach .solid n) g.target g'.target := by
  refine .here fun _ => .kind fun k => ?_
  split
  · refine .bind (.drop rfl) fun _ => .kind fun _ => .ite .finish ?_
    exact .bind h.chain fun _ => .bind (.assignable _) fun _ => .finish
  · exact .bind (R := reach .solid (n + 1)) (.take rfl fun _ => rfl) fun _ =>
      .bind (h.parse (.targets _)) fun _ =>
        .bind (.discard (.expectTurning rfl fun _ => rfl)) fun _ => .done
  · exact .bind h.chain fun _ => .assignable _

/-- Targets leave off behind the last of them, or behind the comma there. -/
lemma targets (h : Carrying g g') (closer : Option TokenKind) :
    Carries ⟨K, c, n⟩ (reach .solid n) (g.targets closer) (g'.targets closer) := by
  refine .here fun _ => .bind (R := reach .solid n) (.weaken (c := .anywhere)
    (.iterate (fun _ => ?_) h.rounds _)) fun _ => .finish
  exact .bind h.target fun _ => .bind (.accept rfl) fun _ =>
    .ite (.kind fun _ => .ite .ended .again) .ended

/-- A multiple assignment leaves off behind its last value. -/
lemma multipleAssignment (h : Carrying g g') :
    Carries ⟨K, c, n⟩ (reach .solid n) g.multipleAssignment g'.multipleAssignment :=
  .here fun _ => .bind (h.targets _) fun _ => .bind (.discard (.expect rfl)) fun _ =>
    .here fun _ => .bind (.separated .done h.assignedValue h.rounds) fun _ =>
      .bind (.arrayOf _) fun _ => .finish

/-- A `not` with its expression leaves off behind that. -/
lemma notExpression (h : Carrying g g') :
    Carries ⟨K, c, n⟩ (reach .solid n) g.notExpression g'.notExpression :=
  .check (.here fun _ => .bind (.drop rfl) fun _ =>
    .bind (.nested (h.parse .notExpression)) fun _ => .finish) h.expression

/-- A keyword that joins expressions is no bracket. -/
lemma isFlat_of_junctionKind? {kind : NodeKind} (h : junctionKind? k = some kind) :
    k.isFlat = true := by
  unfold junctionKind? at h
  split at h
  all_goals first | rfl | cases h

/-- Junctions leave off behind the last expression. -/
lemma junctions (h : Carrying g g') :
    Carries ⟨K, c, n⟩ (reach .solid n) g.junctions g'.junctions := by
  refine .here fun _ => .bind h.notExpression fun _ =>
    .iterate (fun left => .kind fun k => ?_) h.rounds _
  split
  · rename_i hk
    exact .bind (.drop (isFlat_of_junctionKind? hk)) fun _ => .bind h.notExpression fun _ =>
      .bind .finish fun _ => .again
  · exact .ended

/-- Whether several targets are assigned to is seen among the tokens of the text. -/
lemma expressionStatement (h : Carrying g g') :
    Carries ⟨K, c, n⟩ (reach .solid n) g.expressionStatement g'.expressionStatement :=
  .see (fun _ _ _ hhosts hahead => assignsSeveral_before hhosts.endsInBreak hhosts.closes hahead)
    fun _ => .ite h.multipleAssignment h.junctions

/-- A keyword for a modifier is no bracket. -/
lemma isFlat_of_modifierKind? {kind : NodeKind} (h : modifierKind? k = some kind) :
    k.isFlat = true := by
  unfold modifierKind? at h
  split at h
  all_goals first | rfl | cases h

/-- A statement leaves off behind its last modifier. -/
lemma statement (h : Carrying g g') :
    Carries ⟨K, c, n⟩ (reach .solid n) g.statement g'.statement := by
  refine .nested (.here fun _ => .bind h.expressionStatement fun _ =>
    .iterate (fun inner => .kind fun k => ?_) h.rounds _)
  split
  · rename_i hk
    exact .bind (.drop (isFlat_of_modifierKind? hk)) fun _ => .bind h.expressionStatement fun _ =>
      .bind .finish fun _ => .again
  · exact .ended

/-! ### Lists -/

/-- Where more kinds of tokens end a list, what follows a statement is judged alike. -/
lemma behindStatement {stops stops' : List TokenKind} (hstops : stops ⊆ stops') (seen : List Node) :
    Carries ⟨K, .solid, n⟩ (Round.stage ⟨Anything, .solid, n⟩ Q) (behindStatement stops seen)
      (behindStatement stops' seen) := by
  refine .kind fun k => ?_
  by_cases hk : (k.isTerminator || stops.contains k) = true
  · have hk' : (k.isTerminator || stops'.contains k) = true := by
      rw [Bool.or_eq_true, List.contains_iff_mem] at hk ⊢
      exact hk.imp_right (hstops ·)
    rw [if_pos hk, if_pos hk']
    exact .again
  · rw [if_neg hk]
    refine .faulty (Composed.passes ?_)
    exact .bind .current fun _ => .bind (.giveUp _) fun _ => .pure _

/-- What is given up for a statement was reported. -/
lemma listedStatement (h : Carrying g g') {stops' : List TokenKind} (hstops : stops ⊆ stops')
    (seen : List Node) :
    Carries ⟨K, c, n⟩ (Round.stage ⟨Anything, .solid, n⟩ Q) (g.listedStatement stops seen)
      (g'.listedStatement stops' seen) := by
  refine .current fun first => .recover h.statement (fun _ => behindStatement hstops _)
    (fun _ => rfl) (Composed.passes ?_)
  exact .bind (.giveUp _) fun _ => .pure _

/-- A list may stop at more tokens inside another text than in its own one, if no statement begins
with those. -/
lemma statementRound (h : Carrying g g') {stops' : List TokenKind} (hstops : stops ⊆ stops')
    (hcloses : ∀ k ∈ stops', k ∈ stops ∨ closesConstruct k = true) (seen : List Node) :
    Carries ⟨K, c, n⟩ (Round.stage ⟨Anything, .solid, n⟩ (reach c.slack n))
      (g.statementRound stops seen) (g'.statementRound stops' seen) := by
  refine .bind .skipTerminators fun _ => .kind fun k => ?_
  by_cases hk : (k == .eof || stops.contains k) = true
  · have hk' : (k == .eof || stops'.contains k) = true := by
      rw [Bool.or_eq_true, List.contains_iff_mem] at hk ⊢
      exact hk.imp_right (hstops ·)
    rw [if_pos hk, if_pos hk']
    exact .ended
  · rw [if_neg hk]
    by_cases hclose : closesConstruct k = true
    · rw [if_pos hclose]
      refine .faulty (Composed.passes ?_)
      exact .bind .drop fun _ => .pure _
    · have hk' : ¬ (k == .eof || stops'.contains k) = true := by
        rw [Bool.or_eq_true, List.contains_iff_mem] at hk ⊢
        exact fun hk' => hk (hk'.imp_right fun hmem => (hcloses k hmem).resolve_right hclose)
      rw [if_neg hclose, if_neg hk', if_neg hclose]
      exact h.listedStatement hstops seen

/-- Statements leave off behind the last terminator. -/
lemma statements (h : Carrying g g') (stops : List TokenKind) [Footing.begun.Below c] :
    Carries ⟨K, c, n⟩ (reach .begun n) (g.statements stops) (g'.statements stops) := by
  have hround (seen : List Node) :
      Carries ⟨Anything, .begun, n⟩ (Round.stage ⟨Anything, .begun, n⟩ (reach .begun n))
        (g.statementRound stops seen) (g'.statementRound stops seen) := by
    refine (h.statementRound (List.Subset.refl _) (fun _ hk => .inl hk) seen).mono
      (fun round s hs => ?_) fun round => ?_
    · cases round with
      | again _ => exact ⟨trivial, Footing.Below.holds hs.footing⟩
      | done _ => exact hs
    · cases round with
      | again _ => rfl
      | done _ => rfl
  exact .here fun _ => .bind (.weaken (.iterate hround h.rounds _)) fun _ => .done

/-! ### All goals -/

/-- Every goal reads the same inside another text, if the goals inside it do. -/
lemma step (h : Carrying g g') (goal : Goal) [Footing.begun.Below c] :
    Carries ⟨K, c, n⟩ (reach goal.footing n) (g.step goal) (g'.step goal) := by
  cases goal with
  | statements stops => exact h.statements stops
  | statement => exact h.statement
  | expressionStatement => exact h.expressionStatement
  | notExpression => exact h.notExpression
  | expression => exact h.expression
  | ternary => exact h.ternary
  | binary level => exact h.binary level
  | unary => exact h.unary
  | chain => exact h.chain
  | targets closer => exact h.targets closer
  | argument => exact h.argument
  | parameter inBlock => exact h.parameter inBlock
  | branch keyword => exact h.branch

/-- No operand begins at a line break. -/
lemma operand_ne_ok {s s' : State} (hs : s.tape.kind = .newline) (m : Node) :
    g.operand s ≠ .ok m s' := by
  rw [Grammar.operand, Grammar.kind, view_bind_eq, hs]
  rintro ⟨⟩

/-- No chain begins at a line break. -/
lemma chain_ne_ok {s s' : State} (hs : s.tape.kind = .newline) (m : Node) :
    g.chain s ≠ .ok m s' := by
  intro hrun
  obtain ⟨start, s₁, hhere, hbehind⟩ := exists_of_bind hrun
  cases hhere
  obtain ⟨n, s₂, hoperand, -⟩ := exists_of_bind hbehind
  exact operand_ne_ok hs n hoperand

/-- No target begins at a line break. -/
lemma targets_ne_ok {s s' : State} (hs : s.tape.kind = .newline) (closer : Option TokenKind)
    (m : Node) : g.targets closer s ≠ .ok m s' := by
  intro hrun
  obtain ⟨start, s₁, hhere, hbehind⟩ := exists_of_bind hrun
  cases hhere
  obtain ⟨nodes, s₂, hnodes, -⟩ := exists_of_bind hbehind
  cases hrounds : g.rounds with
  | zero =>
    rw [hrounds] at hnodes
    cases hnodes
  | succ rounds =>
    rw [hrounds] at hnodes
    obtain ⟨round, s₃, hround, -⟩ := exists_of_bind hnodes
    obtain ⟨n, s₄, htarget, -⟩ := exists_of_bind hround
    rw [Grammar.target, Grammar.here, view_bind_eq, Grammar.kind, view_bind_eq, hs] at htarget
    obtain ⟨m, s₅, hchain, -⟩ := exists_of_bind htarget
    exact chain_ne_ok hs m hchain

end Carrying

/-- However many levels two grammars go in, what the first one reads within a text, the other one
reads inside other texts, if it goes in no fewer. -/
theorem carrying_production {levels levels' rounds rounds' : ℕ} (hlevels : levels ≤ levels')
    (hrounds : rounds ≤ rounds') :
    Carrying ⟨rounds, production levels⟩ ⟨rounds', production levels'⟩ := by
  induction levels generalizing levels' rounds rounds' with
  | zero => exact ⟨hrounds, fun _ => .fails, fun _ _ _ _ => ⟨nofun, nofun⟩⟩
  | succ levels ih =>
    obtain ⟨levels', rfl⟩ : ∃ l, levels' = l + 1 := Nat.exists_eq_add_one.mpr (by omega)
    have hle : levels ≤ levels' := Nat.le_of_succ_le_succ hlevels
    have h : Carrying ⟨levels + 1, production levels⟩ ⟨levels' + 1, production levels'⟩ :=
      ih hle (Nat.succ_le_succ hle)
    exact ⟨hrounds, fun goal _ _ _ _ => h.step goal, fun s hs m s' =>
      ⟨Carrying.chain_ne_ok hs m, Carrying.targets_ne_ok hs none m⟩⟩

end RubyCheck.Grammar
