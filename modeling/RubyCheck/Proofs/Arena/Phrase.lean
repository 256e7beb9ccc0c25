import RubyCheck.Proofs.Arena.Context

/-!
# Lists, arguments, parameters and literals over an arena

Production by production: if the productions one level further in come to the same, so does this one.
-/

namespace RubyCheck.Arena

open Grammar (Goal Round)

/-- The productions one level further in come to what those of the grammar do. -/
structure Matched (greatest : Option ℕ) (g : Productions) (g' : Grammar) : Prop where
  rounds : g.rounds = g'.rounds
  parse (goal : Goal) : Makes greatest (g.parse goal) (g'.parse goal)

variable {greatest : Option ℕ} {α β σ τ : Type} {w : Array Cell} {base : ℕ} {g : Productions}
  {g' : Grammar} {item : Parser NodeId} {item' : Grammar.Parser Node} {opener : Token}
  {closer : TokenKind} {seen : List ℕ} {seen' : List Node}

/-! ### Items with commas between them -/

/-- A round ends behind its item where no comma follows, and goes on behind the comma otherwise. -/
lemma Runs.unlessComma {I : Array Cell → σ → τ → Prop} {V : Array Cell → α → β → Prop}
    {behind : Parser Unit} {behind' : Grammar.Parser Unit} {s : σ} {t : τ} {a : α} {b : β}
    (hbehind : Exact greatest behind behind') (hs : I w s t) (ha : V w a b) :
    Runs greatest w base (fun w' => Turns (I w') (V w')) (Arena.unlessComma behind s a)
      (Grammar.unlessComma behind' t b) :=
  (Exact.accept _).runs fun _ =>
    .ite (hbehind.runs fun _ => .pure (.again hs)) (.pure (.done ha))

/-- Items with commas between them are made in one order. -/
lemma MakesAll.separated {behind : Parser Unit} {behind' : Grammar.Parser Unit}
    (hbehind : Exact greatest behind behind') (hitem : Makes greatest item item') (rounds : ℕ) :
    MakesAll greatest (Arena.separated rounds behind item)
      (Grammar.separated rounds behind' item') := by
  refine .listing (fun w base seen seen' hseen => ?_) rounds
  refine hitem.bind fun w' id t hw hid => ?_
  have hmore : Owns greatest w' base (id :: seen) (t :: seen') := .cons hid (hseen.grown hw)
  exact .unlessComma (I := fun w' => Owns greatest w' base) hbehind hmore (List.rel_reverse hmore)

/-- A round that goes on with what is owned so far. -/
lemma Runs.again (hseen : Owns greatest w base seen seen') :
    Runs greatest w base (fun w' => Rounds greatest w' base) (Pure.pure (.again seen))
      (Pure.pure (.again seen')) :=
  .pure (.again hseen)

/-- A round that ends gives what is owned so far, in its order. -/
lemma Runs.done (hseen : Owns greatest w base seen seen') :
    Runs greatest w base (fun w' => Rounds greatest w' base) (Pure.pure (.done seen.reverse))
      (Pure.pure (.done seen'.reverse)) :=
  .pure (.done (List.rel_reverse hseen))

/-- Behind a line break either the closer ends the items or the next item follows. -/
lemma Runs.behindBreak (hseen : Owns greatest w base seen seen') :
    Runs greatest w base (fun w' => Rounds greatest w' base) (Arena.behindBreak opener closer seen)
      (Grammar.behindBreak opener closer seen') := by
  refine Exact.kindBehindBreaks.runs fun k => .ite (.again hseen) <| .ite ?_ <| .ite (.fail _) ?_
  · exact Exact.skipBreaks.runs fun _ => Exact.drop.runs fun _ => .again hseen
  · exact (Exact.report _).runs fun _ => .done hseen

/-- Behind an item stands a comma, a line break or the closer. -/
lemma Runs.behindItem (hseen : Owns greatest w base seen seen') :
    Runs greatest w base (fun w' => Rounds greatest w' base) (Arena.behindItem opener closer seen)
      (Grammar.behindItem opener closer seen') := by
  exact Exact.kind.runs fun k => .ite (Exact.drop.runs fun _ => .again hseen) <|
    .ite (.again hseen) <| .ite (.behindBreak hseen) <| .ite (.fail _) (.refuse _)

/-- The items up to a closer are made in one order. -/
lemma Matched.items (h : Matched greatest g g') (hitem : Makes greatest item item') :
    MakesAll greatest (Arena.items g opener closer item) (Grammar.items g' opener closer item') := by
  unfold Arena.items Grammar.items
  rw [h.rounds]
  refine .listing (fun w base seen seen' hseen => ?_) _
  refine Exact.skipBreaks.runs fun _ => (Exact.accept closer).runs fun _ => ?_
  refine .ite (.done hseen) (Exact.atEnd.runs fun _ => .ite (.fail _) ?_)
  exact hitem.bind fun w' id t hw hid => .behindItem (.cons hid (hseen.grown hw))

/-! ### Leaves -/

/-- A leaf is one node without children. -/
lemma Makes.leaf {k : NodeKind} {text : String} :
    Makes greatest (Arena.leaf k text) (Grammar.leaf k text) := fun _ => .leaf

/-- The current token makes one leaf of its text. -/
lemma Makes.takeLeaf {k : NodeKind} : Makes greatest (Arena.takeLeaf k) (Grammar.takeLeaf k) :=
  fun _ => Exact.advance.runs fun _ => .leaf

/-- The current token makes one leaf of a given text. -/
lemma Makes.takeAs {k : NodeKind} {text : String} :
    Makes greatest (Arena.takeAs k text) (Grammar.takeAs k text) :=
  fun _ => Exact.drop.runs fun _ => .leaf

/-- A literal of words makes one leaf. -/
lemma Makes.percentLiteral : Makes greatest Arena.percentLiteral Grammar.percentLiteral :=
  fun _ => Exact.advance.runs fun _ => .leaf

/-- A symbol makes one leaf. -/
lemma Makes.symbol : Makes greatest Arena.symbol Grammar.symbol :=
  fun _ => Exact.advance.runs fun _ => .leaf

/-! ### Looks ahead of arguments -/

namespace Exact

/-- Both see the start of an operand alike. -/
lemma atOperand : Exact greatest Arena.atOperand Grammar.atOperand :=
  kind.bind fun _ => pure _

/-- Both see arguments in parentheses alike. -/
lemma atParenArguments : Exact greatest Arena.atParenArguments
    (Grammar.view fun s => Grammar.opensArguments s.tape.current) :=
  current.bind fun _ => pure _

/-- Both see arguments without parentheses alike. -/
lemma atCommandArguments : Exact greatest Arena.atCommandArguments
    (Grammar.view fun s => Grammar.beginsArgument s.tape.current s.tape.next) :=
  current.bind fun _ => next.bind fun _ => pure _

/-- Both take a bare name for a variable alike. -/
lemma atVariable (name : String) : Exact greatest (Arena.atVariable name)
    (Grammar.view fun s => s.isLocal name && !Grammar.opensArguments s.tape.current) :=
  (isLocal name).bind fun _ => atParenArguments.bind fun _ => pure _

end Exact

namespace Matched

/-! ### Arguments -/

/-- Arguments in parentheses make one node. -/
lemma parenArguments (h : Matched greatest g g') :
    Makes greatest (Arena.parenArguments g) (Grammar.parenArguments g') := fun _ =>
  Exact.advance.runs fun _ =>
    (h.items (h.parse .argument)).allowingDo.bindAll fun _ _ _ _ hids => .finish hids

/-- Arguments without parentheses make one node. -/
lemma commandArguments (h : Matched greatest g g') :
    Makes greatest (Arena.commandArguments g) (Grammar.commandArguments g') := by
  refine fun _ => Exact.here.runs fun _ => ?_
  rw [h.rounds]
  exact (MakesAll.separated .skipBreaks (h.parse .argument) _).withholdingDo.bindAll
    fun _ _ _ _ hids => .finish hids

/-- The arguments behind a name, where there are any. -/
lemma callArguments (h : Matched greatest g g') :
    MakesAll greatest (Arena.callArguments g) (Grammar.callArguments g') := fun w =>
  Exact.atParenArguments.runs fun _ => .ite (h.parenArguments.one w) <|
    Exact.atCommandArguments.runs fun _ => .ite (h.commandArguments.one w) (MakesAll.nil w)

/-- A bare name makes a variable or a call. -/
lemma bareName (h : Matched greatest g g') :
    Makes greatest (Arena.bareName g) (Grammar.bareName g') := fun _ =>
  Exact.here.runs fun _ => Exact.advance.runs fun _ => (Exact.atVariable _).runs fun _ =>
    .ite .leaf (h.callArguments.bindAll fun _ _ _ _ hids => .finishNamed hids)

/-- A constant makes a leaf or a call. -/
lemma constant (h : Matched greatest g g') :
    Makes greatest (Arena.constant g) (Grammar.constant g') := fun _ =>
  Exact.here.runs fun _ => Exact.advance.runs fun _ => Exact.atParenArguments.runs fun _ =>
    .ite (h.parenArguments.bind fun _ _ _ _ hid => .finishNamed (.cons hid .nil)) .leaf

/-- A keyword that calls makes one node over its arguments. -/
lemma keywordCall (h : Matched greatest g g') (k : NodeKind) :
    Makes greatest (Arena.keywordCall g k) (Grammar.keywordCall g' k) := fun _ =>
  Exact.here.runs fun _ => Exact.drop.runs fun _ =>
    h.callArguments.bindAll fun _ _ _ _ hids => .finish hids

/-- A label makes one node over its value, where it has one. -/
lemma labelPair (h : Matched greatest g g') :
    Makes greatest (Arena.labelPair g) (Grammar.labelPair g') := fun _ =>
  Exact.here.runs fun _ => Exact.advance.runs fun _ => Makes.leaf.bind fun _ _ _ _ hkey =>
    Exact.kind.runs fun _ => .ite
      ((Exact.isLocal _).runs fun _ => Makes.leaf.bind fun _ _ _ hw hvalue =>
        .finish (.cons (hkey.grown hw) (.cons hvalue .nil)))
      ((h.parse .expression).bind fun _ _ _ hw hvalue =>
        .finish (.cons (hkey.grown hw) (.cons hvalue .nil)))

/-! ### Parameters -/

/-- A default value makes the node of its expression. -/
lemma defaultValue (h : Matched greatest g g') (inBlock : Bool) :
    Makes greatest (Arena.defaultValue g inBlock) (Grammar.defaultValue g' inBlock) := h.parse _

/-- Parameters in parentheses, in their order. -/
lemma parameterList (h : Matched greatest g g') :
    MakesAll greatest (Arena.parameterList g opener) (Grammar.parameterList g' opener) :=
  h.items (h.parse _)

/-- A parameter makes one node of the form its tokens show. -/
lemma parameter (h : Matched greatest g g') (inBlock : Bool) :
    Makes greatest (Arena.parameter g inBlock) (Grammar.parameter g' inBlock) := by
  refine fun w => Exact.here.runs fun start => Exact.kind.runs fun k => ?_
  have hvalue := (h.defaultValue inBlock).one
  have hspread : Runs greatest w w.size (fun w' id t => Own greatest w' w.size id t)
      (do
        drop
        if ← check .identifier then
          let name := (← advance).text
          declare name
          finishNamed .parameter start name []
        else finishNamed .parameter start "" [])
      (do
        Grammar.drop
        if ← Grammar.check .identifier then
          let name := (← Grammar.advance).text
          Grammar.declare name
          Grammar.finishNamed .parameter start name []
        else Grammar.finishNamed .parameter start "" []) :=
    Exact.drop.runs fun _ => (Exact.check _).runs fun _ => .ite
      (Exact.advance.runs fun _ => (Exact.declare _).runs fun _ => .finishNamed .nil)
      (.finishNamed .nil)
  cases k with
  | identifier =>
    exact Exact.advance.runs fun _ => (Exact.declare _).runs fun _ => (Exact.accept _).runs
      fun _ => hvalue.either .nil fun _ _ _ _ hids => .finishNamed hids
  | label =>
    exact Exact.advance.runs fun _ => (Exact.declare _).runs fun _ => Exact.kind.runs
      fun _ => MakesAll.nil.either hvalue fun _ _ _ _ hids => .finishNamed hids
  | punct mark =>
    cases mark with
    | star => exact hspread
    | pow => exact hspread
    | amp => exact hspread
    | dotDotDot => exact Makes.takeAs w
    | lParen =>
      exact Exact.advance.runs fun _ => h.parameterList.bindAll fun _ _ _ _ hids => .finish hids
    | _ => exact .refuse _
  | _ => exact .refuse _

/-- Parameters without parentheses, in their order. -/
lemma bareParameters (h : Matched greatest g g') :
    MakesAll greatest (Arena.bareParameters g) (Grammar.bareParameters g') := by
  unfold Arena.bareParameters Grammar.bareParameters
  rw [h.rounds]
  exact .separated (.pure ()) (h.parameter false) _

/-! ### Literals -/

/-- Interpolated code makes one node over its statements. -/
lemma interpolation (h : Matched greatest g g') :
    Makes greatest (Arena.interpolation g) (Grammar.interpolation g') := fun _ =>
  Exact.here.runs fun _ => Exact.drop.runs fun _ =>
    (h.parse _).allowingDo.bind fun _ _ _ _ hid => (Exact.expect _).discard.runs fun _ =>
      .finish (.cons hid .nil)

/-- A content with some code belongs to the same content with the trees of the code. -/
def Pieces (greatest : Option ℕ) (w : Array Cell) (base : ℕ) (seen : String × List ℕ)
    (seen' : String × List Node) : Prop :=
  seen.1 = seen'.1 ∧ Owns greatest w base seen.2 seen'.2

/-- A piece of a literal adds its text or its node to what is gathered. -/
lemma piece (h : Matched greatest g g') {seen : String × List ℕ} {seen' : String × List Node}
    (hseen : Pieces greatest w base seen seen') :
    Runs greatest w base
      (fun w' => Turns (Pieces greatest w' base) (Pieces greatest w' base))
      (Arena.piece g seen) (Grammar.piece g' seen') := by
  obtain ⟨content, code⟩ := seen
  obtain ⟨content', code'⟩ := seen'
  obtain ⟨rfl, hcode⟩ := hseen
  refine Exact.kind.runs fun k => ?_
  cases k with
  | stringContent => exact Exact.advance.runs fun _ => .pure (.again ⟨rfl, hcode⟩)
  | interpolationBegin =>
    exact h.interpolation.bind fun _ _ _ hw hid =>
      .pure (.again ⟨rfl, .cons hid (hcode.grown hw)⟩)
  | stringEnd => exact Exact.drop.runs fun _ => .pure (.done ⟨rfl, List.rel_reverse hcode⟩)
  | _ => exact .refuse _

/-- A quoted literal makes one node of its text and its interpolations. -/
lemma quoted (h : Matched greatest g g') (k : NodeKind) :
    Makes greatest (Arena.quoted g k) (Grammar.quoted g' k) := by
  refine fun w => Exact.here.runs fun _ => Exact.drop.runs fun _ => ?_
  rw [h.rounds]
  refine .seq (V := fun w' => Pieces greatest w' w.size)
    (.iterate (I := fun w' => Pieces greatest w' w.size) (fun _ _ _ hseen => h.piece hseen) _
      ⟨rfl, .nil⟩) fun w' seen seen' _ hseen => ?_
  obtain ⟨content, code⟩ := seen
  obtain ⟨content', code'⟩ := seen'
  obtain ⟨rfl, hcode⟩ := hseen
  cases hcode with
  | nil => exact .finishNamed .nil
  | cons hid hids => exact .finish (.cons hid hids)

/-- An array makes one node over its items. -/
lemma array (h : Matched greatest g g') : Makes greatest (Arena.array g) (Grammar.array g') :=
  fun _ => Exact.advance.runs fun _ =>
    (h.items (h.parse .argument)).allowingDo.bindAll fun _ _ _ _ hids => .finish hids

/-- An item of a hash makes one node of the form its tokens show. -/
lemma hashItem (h : Matched greatest g g') :
    Makes greatest (Arena.hashItem g) (Grammar.hashItem g') := by
  refine fun w => Exact.here.runs fun start => Exact.kind.runs fun k => ?_
  have hpair : Runs greatest w w.size (fun w' id t => Own greatest w' w.size id t)
      (do
        let key ← g.parse .expression
        discard <| expect (.punct .fatArrow)
        skipBreaks
        finish .pair start [key, ← g.parse .expression])
      (do
        let key ← g'.parse .expression
        discard <| Grammar.expect (.punct .fatArrow)
        Grammar.skipBreaks
        Grammar.finish .pair start [key, ← g'.parse .expression]) :=
    (h.parse _).bind fun _ _ _ _ hkey => (Exact.expect _).discard.runs fun _ =>
      Exact.skipBreaks.runs fun _ => (h.parse _).bind fun _ _ _ hw hvalue =>
        .finish (.cons (hkey.grown hw) (.cons hvalue .nil))
  cases k with
  | label => exact h.labelPair w
  | punct mark =>
    cases mark with
    | pow =>
      exact Exact.drop.runs fun _ => (h.parse _).bind fun _ _ _ _ hid => .finish (.cons hid .nil)
    | _ => exact hpair
  | _ => exact hpair

/-- A hash makes one node over its items. -/
lemma hash (h : Matched greatest g g') : Makes greatest (Arena.hash g) (Grammar.hash g') :=
  fun _ => Exact.advance.runs fun _ =>
    (h.items h.hashItem).allowingDo.bindAll fun _ _ _ _ hids => .finish hids

/-- Statements in parentheses make one node. -/
lemma paren (h : Matched greatest g g') : Makes greatest (Arena.paren g) (Grammar.paren g') :=
  fun _ => Exact.advance.runs fun _ => (h.parse _).allowingDo.bind fun _ _ _ _ hid =>
    (Exact.expectCloser _ _).runs fun _ => .finish (.cons hid .nil)

end Matched

end RubyCheck.Arena
