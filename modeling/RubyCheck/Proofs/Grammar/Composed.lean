import RubyCheck.Grammar.Program
import RubyCheck.Proofs.Grammar.Reads

/-!
# How productions are put together

Every production is put together from the same few steps, and of these only two look at the limits
of reading: a report, and going one level deeper.  `Composed` has one rule for each step.  Whatever
is to be shown of two readings of the same tokens is shown by an induction over these rules.

At the end of a text nothing but a list of statements can be read (`FailsAtEnd`).
-/

namespace RubyCheck.Grammar

variable {α β σ : Type}

/-- What fails at an end of the text, and leaves everything as it was. -/
def FailsAtEnd (p : Parser α) : Prop :=
  ∀ s : State, s.tape.kind = .eof → ∃ e, p s = .error e s

/-- Productions put together from the steps of reading.  What they see of the state is where they
stand, whether a `do` is withheld, and the scopes around. -/
inductive Composed : {α : Type} → Parser α → Prop
  | pure {α : Type} (a : α) : Composed (pure a : Parser α)
  | bind {α β : Type} {p : Parser α} {f : α → Parser β} :
      Composed p → (∀ a, Composed (f a)) → Composed (p >>= f)
  | view {α : Type} {f : State → α} :
      (∀ (s : State) limits depth faults,
        f { s with limits := limits, depth := depth, faults := faults } = f s) → Composed (view f)
  | move {f : Tape → Tape} : (∀ tape, Tape.Steps tape (f tape)) → Composed (move f)
  | report (f : Fault) : Composed (report f)
  | declare (name : String) : Composed (declare name)
  | fail {α : Type} (e : Failure) : Composed (throw e : Parser α)
  /-- A fault that is taken up is reported, and nothing else depends on it. -/
  | recover {α β : Type} {p : Parser α} {f : Except Fault α → Parser β} {q : Parser β} :
      Composed p → (∀ a, Composed (f (.ok a))) → Composed q →
      (∀ e, f (.error e) = Grammar.report e >>= fun _ => q) → Composed (attempt p >>= f)
  /-- One level deeper at least a token has to follow. -/
  | nested {α : Type} {p : Parser α} : Composed p → FailsAtEnd p → Composed (nested p)
  | allowingDo {α : Type} {p : Parser α} : Composed p → Composed (allowingDo p)
  | withholdingDo {α : Type} {p : Parser α} : Composed p → Composed (withholdingDo p)
  | inScope {α : Type} {p : Parser α} (closed : Bool) : Composed p → Composed (inScope closed p)

/-! ### At the end of the text -/

namespace FailsAtEnd

variable {p q : Parser α} {f : α → Parser β}

/-- Nothing is read behind what fails. -/
lemma bind (h : FailsAtEnd p) : FailsAtEnd (p >>= f) := by
  intro s hkind
  obtain ⟨e, hrun⟩ := h s hkind
  refine ⟨e, ?_⟩
  change EStateM.bind p f s = .error e s
  simp only [EStateM.bind, hrun]

/-- A failure fails, at the end of the text as well. -/
lemma throw (e : Failure) : FailsAtEnd (throw e : Parser α) := fun _ _ => ⟨e, rfl⟩

/-- The end of the text is refused. -/
lemma refuse (expected : String) : FailsAtEnd (refuse expected : Parser α) := fun _ _ => ⟨_, rfl⟩

/-- What fails whatever is seen of the state. -/
lemma view {f : State → α} {k : α → Parser β} (h : ∀ a, FailsAtEnd (k a)) :
    FailsAtEnd (view f >>= k) :=
  fun s hkind => h (f s) s hkind

/-- What depends on the kind of the current token meets the end. -/
lemma kind {k : TokenKind → Parser α} (h : FailsAtEnd (k .eof)) :
    FailsAtEnd (Grammar.kind >>= k) := by
  intro s hkind
  have hend := h s hkind
  rwa [← hkind] at hend

/-- No mark stands at the end of the text, so it is what comes without one that fails. -/
lemma check {mark : TokenKind} (hmark : mark ≠ .eof) (h : FailsAtEnd q) :
    FailsAtEnd (Grammar.check mark >>= fun found => if found then p else q) := by
  intro s hkind
  have hnot : (s.tape.kind == mark) = false := by
    rw [hkind, beq_eq_false_iff_ne]
    exact hmark.symm
  change ∃ e, (if (s.tape.kind == mark) = true then p else q) s = .error e s
  rw [hnot]
  exact h s hkind

/-- What fails in both cases. -/
lemma ite {c : Prop} [Decidable c] (hp : FailsAtEnd p) (hq : FailsAtEnd q) :
    FailsAtEnd (if c then p else q) := by
  split
  · exact hp
  · exact hq

/-- What fails one level deeper fails, and so does the level that is one too many. -/
lemma nested (h : FailsAtEnd p) : FailsAtEnd (nested p) := by
  intro s hkind
  unfold Grammar.nested
  split
  · obtain ⟨e, hrun⟩ := h { s with depth := s.depth + 1 } hkind
    exact ⟨e, by simp [around, hrun]⟩
  · exact ⟨_, rfl⟩

/-- A repetition fails with its first round, unless no round is left to it. -/
lemma iterate {body : σ → Parser (Round σ α)} {a : σ} (h : FailsAtEnd (body a)) (rounds : ℕ) :
    FailsAtEnd (iterate body rounds a) := by
  cases rounds with
  | zero => exact throw .exhausted
  | succ rounds => exact h.bind

end FailsAtEnd

/-! ### Steps -/

namespace Composed

variable {p q : Parser α}

/-- One of two productions. -/
lemma ite {c : Prop} [Decidable c] (hp : Composed p) (hq : Composed q) :
    Composed (if c then p else q) := by
  split
  · exact hp
  · exact hq

/-- The current token is seen. -/
lemma current : Composed current := .view fun _ _ _ _ => rfl

/-- The kind of the current token is seen. -/
lemma kind : Composed kind := .view fun _ _ _ _ => rfl

/-- A mark is looked for. -/
lemma check (mark : TokenKind) : Composed (check mark) := .view fun _ _ _ _ => rfl

/-- The end of the text is looked for. -/
lemma atEnd : Composed atEnd := .view fun _ _ _ _ => rfl

/-- The place of the current token is seen. -/
lemma here : Composed here := .view fun _ _ _ _ => rfl

/-- A token is moved over. -/
lemma drop : Composed drop := .move Tape.steps_advance

/-- A token is moved over, and then seen. -/
lemma advance : Composed advance := .bind drop fun _ => .view fun _ _ _ _ => rfl

/-- A mark is looked for and moved over. -/
lemma accept (mark : TokenKind) : Composed (accept mark) :=
  .bind (check mark) fun _ => .ite (.bind drop fun _ => .pure _) (.pure _)

/-- Line breaks are moved over. -/
lemma skipBreaks : Composed skipBreaks := .move (Tape.steps_passOver rfl)

/-- Line breaks and semicolons are moved over. -/
lemma skipTerminators : Composed skipTerminators := .move (Tape.steps_passOver rfl)

/-- The current token is seen and reported. -/
lemma reportUnexpected (expected : String) : Composed (reportUnexpected expected) :=
  .bind (p := Grammar.view (·.unexpected expected)) (.view fun _ _ _ _ => rfl) .report

/-- The current token is seen and failed with. -/
lemma refuse (expected : String) : Composed (refuse expected : Parser α) :=
  .bind (.view fun _ _ _ _ => rfl) fun _ => .fail _

/-- A mark is moved over or refused. -/
lemma expect (mark : TokenKind) : Composed (expect mark) :=
  .bind (check mark) fun _ => .ite advance (refuse _)

/-- A production whose result is forgotten. -/
lemma discard (h : Composed p) : Composed (discard p) := .bind h fun _ => .pure _

/-- A closer is moved over, or its absence is failed with. -/
lemma expectCloser (opener : Token) (closer : TokenKind) : Composed (expectCloser opener closer) :=
  .bind atEnd fun _ => .ite (.bind (.fail _) fun _ => (expect _).discard) (expect _).discard

/-- What a node is made of is seen: the token that was consumed last. -/
lemma finish (k : NodeKind) (start : Position) (ns : List Node) : Composed (finish k start ns) :=
  .view fun _ _ _ _ => rfl

/-- A node is made, and a text put into it. -/
lemma finishNamed (k : NodeKind) (start : Position) (text : String) (ns : List Node) :
    Composed (finishNamed k start text ns) :=
  .bind (finish k start ns) fun _ => .pure _

/-- What a leaf is made of is seen: the token that was consumed last. -/
lemma leaf (k : NodeKind) (text : String) : Composed (leaf k text) := .view fun _ _ _ _ => rfl

/-- A token is moved over and made a leaf. -/
lemma takeLeaf (k : NodeKind) : Composed (takeLeaf k) := .bind advance fun _ => leaf _ _

/-- A token is moved over and made a leaf with another text. -/
lemma takeAs (k : NodeKind) (text : String) : Composed (takeAs k text) :=
  .bind drop fun _ => leaf _ _

/-- The result as a list. -/
lemma one {p : Parser Node} (h : Composed p) : Composed (do return [← p]) :=
  .bind h fun _ => .pure _

/-- Rounds that are put together so make a repetition that is. -/
lemma iterate {body : σ → Parser (Round σ α)} (h : ∀ a, Composed (body a)) (rounds : ℕ) (a : σ) :
    Composed (iterate body rounds a) := by
  induction rounds generalizing a with
  | zero => exact .fail _
  | succ rounds ih =>
    refine .bind (h a) fun round => ?_
    cases round with
    | again a => exact ih a
    | done a => exact .pure a

/-! #### Lists -/

/-- A comma, and what is read behind it. -/
lemma unlessComma {behindComma : Parser Unit} (h : Composed behindComma) (seen : σ) (all : α) :
    Composed (unlessComma behindComma seen all) :=
  .bind (accept _) fun _ => .ite (.bind h fun _ => .pure _) (.pure _)

/-- Items with commas between them. -/
lemma separated {behindComma : Parser Unit} {item : Parser Node} (h : Composed behindComma)
    (hitem : Composed item) (rounds : ℕ) : Composed (separated rounds behindComma item) :=
  iterate (fun _ => .bind hitem fun _ => unlessComma h _ _) rounds []

/-- One value as it is, or a node of several. -/
lemma arrayOf (start : Position) (ns : List Node) : Composed (arrayOf start ns) := by
  unfold Grammar.arrayOf
  split
  · exact .pure _
  · exact finish _ _ _

/-- A closer behind line breaks, or a fault at the opener. -/
lemma behindBreak (opener : Token) (closer : TokenKind) (seen : List Node) :
    Composed (behindBreak opener closer seen) := by
  refine .bind (.view fun _ _ _ _ => rfl) fun _ => .ite (.pure _) (.ite ?_ (.ite (.fail _) ?_))
  · exact .bind skipBreaks fun _ => .bind drop fun _ => .pure _
  · exact .bind (.report _) fun _ => .pure _

/-- A comma, a line break or a closer behind an item. -/
lemma behindItem (opener : Token) (closer : TokenKind) (seen : List Node) :
    Composed (behindItem opener closer seen) := by
  refine .bind kind fun _ => .ite (.bind drop fun _ => .pure _) (.ite (.pure _) ?_)
  exact .ite (behindBreak _ _ _) (.ite (.fail _) (refuse _))

/-- A closer or an item. -/
lemma itemOrCloser {item : Parser Node} (h : Composed item) (opener : Token) (closer : TokenKind)
    (seen : List Node) : Composed (itemOrCloser opener closer item seen) := by
  refine .bind skipBreaks fun _ => .bind (accept _) fun _ => .ite (.pure _) ?_
  exact .bind atEnd fun _ => .ite (.fail _) (.bind h fun _ => behindItem _ _ _)

/-- Items up to their closer. -/
lemma items {g : Grammar} {item : Parser Node} (h : Composed item) (opener : Token)
    (closer : TokenKind) : Composed (items g opener closer item) :=
  iterate (itemOrCloser h opener closer) g.rounds []

/-! #### Names -/

/-- What can be assigned to is told by its kind; a bare name is declared. -/
lemma assignable (n : Node) : Composed (assignable n) := by
  unfold Grammar.assignable
  split
  case h_9 =>
    exact .ite (.bind (.declare _) fun _ => .pure _) (.ite (.pure _) (.fail _))
  case h_10 => exact .fail _
  all_goals exact .pure _

/-- A separator is moved over, or its absence is reported. -/
lemma separator (keyword : Token) (doMayStand : Bool) :
    Composed (separator keyword doMayStand) := by
  refine .bind kind fun _ => ?_
  split
  · exact drop
  · exact .bind skipTerminators fun _ => (accept _).discard
  · exact .bind skipTerminators fun _ => (accept _).discard
  · exact .pure _
  · exact .ite drop (.bind current fun _ => .report _)

/-- An `end` is moved over, or its absence is failed with. -/
lemma expectEnd (opener : Token) : Composed (expectEnd opener) := expectCloser _ _

/-- A name is moved over and declared. -/
lemma blockLocal : Composed blockLocal :=
  .bind (expect _) fun _ => .bind (.declare _) fun _ => leaf _ _

/-- A bar is moved over, or its absence is reported at the opener. -/
lemma closingBar (opener : Token) : Composed (closingBar opener) :=
  .bind (check _) fun _ => .ite (.report _) (expect _).discard

/-- A token is moved over and made a leaf by its text. -/
lemma percentLiteral : Composed percentLiteral := .bind advance fun _ => leaf _ _

/-- A token is moved over and made a leaf by its name. -/
lemma symbol : Composed symbol := .bind advance fun _ => leaf _ _

/-- An owner and a dot are moved over, or nothing. -/
lemma owner : Composed owner :=
  .bind (.view fun _ _ _ _ => rfl) fun _ =>
    .ite (.bind advance fun _ => .bind drop fun _ => .pure _) (.pure _)

/-- An owner and a name. -/
lemma methodName : Composed methodName :=
  .bind owner fun _ => .bind kind fun _ => .ite (.bind advance fun _ => .pure _) (refuse _)

/-- A name is made a leaf, or refused. -/
lemma methodReference : Composed methodReference :=
  .bind kind fun _ => .ite (takeLeaf _) (.ite symbol (.ite (takeLeaf _) (refuse _)))

/-- A keyword and two names. -/
lemma alias_ : Composed alias_ :=
  .bind here fun _ => .bind drop fun _ => .bind methodReference fun _ =>
    .bind methodReference fun _ => finish _ _ _

/-- Two colons and a constant. -/
lemma outermostConstant : Composed outermostConstant :=
  .bind here fun _ => .bind drop fun _ => .bind (expect _) fun _ => finishNamed _ _ _ _

/-- A name is moved over, or refused. -/
lemma calledName : Composed calledName :=
  .bind kind fun _ => .ite (.pure _) (.ite (.bind advance fun _ => .pure _) (refuse _))

/-- A node of two operands. -/
lemma joined (start : Position) (operator : Punct) (left right : Node) :
    Composed (joined start operator left right) := by
  unfold Grammar.joined
  split
  · exact finish _ _ _
  · exact finish _ _ _
  · exact finishNamed _ _ _ _

/-- What is passed over, and the leaf that stands for it. -/
lemma giveUp (first : Token) : Composed (giveUp first) :=
  .bind (.move Tape.steps_synchronize) fun _ => .view fun _ _ _ _ => rfl

/-- What may follow a statement is looked for, and anything else is given up. -/
lemma behindStatement (stops : List TokenKind) (seen : List Node) :
    Composed (behindStatement stops seen) := by
  refine .bind kind fun _ => .ite (.pure _) (.bind (reportUnexpected _) fun _ => ?_)
  exact .bind current fun _ => .bind (giveUp _) fun _ => .pure _

end Composed

end RubyCheck.Grammar
