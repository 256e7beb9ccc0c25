import RubyCheck.Proofs.Grammar.Control

/-!
# Reading literals and definitions

Literals in quotes make nodes only of the code in them (`CodeSeen`, `CodeRead`); the others are one
token, or items between brackets.  A method, a class or a module is read in a scope of its own, but for
the superclass of a class and the object whose singleton class is opened.
-/

namespace RubyCheck.Grammar

/-! ### Literals -/

section Literals

variable {F : State → Prop} {s s' s₀ : State} {n : ℕ} {c : NodeClass} {seen : List Node}
variable {g : Grammar}

namespace Inner

/-- Interpolated code is one node of statements. -/
lemma interpolation (h : Inner g n) (r : Ready F n s) (hkind : s.tape.kind ≠ .eof) :
    Gives F (Yields (.of .interpolation) s.tape.left s) g.interpolation s := by
  refine .view (r.drop hkind fun course => ?_)
  refine course.node (h.statements _).allowingDo fun m _ hm course => ?_
  refine course.silent (.discard (.expect _)) fun _ _ course => ?_
  exact course.finish rfl (.one hm .nil) (fun _ => rfl) fun _ => rfl

end Inner

/-- The pieces seen so far of a literal; only the code in it makes nodes. -/
def CodeSeen (F : State → Prop) (n : ℕ) (s₀ : State) (seen : String × List Node) (s : State) :
    Prop :=
  Seen F n n s₀ (.of .interpolation) seen.2 s

/-- The content of a literal and the code in it. -/
def CodeRead (s₀ : State) (code : String × List Node) (s : State) : Prop :=
  Fits [.many (.of .interpolation)] code.2 ∧ Reads s₀ code.2 s

namespace Inner

/-- A piece of a literal adds a node if it is code, and text otherwise. -/
lemma piece (h : Inner g n) {seen : String × List Node} (hseen : CodeSeen F n s₀ seen s) :
    Gives F (Round.Post (CodeSeen F n s₀) (CodeRead s₀) s) (g.piece seen) s := by
  have hagain {text : String} {nodes : List Node} {s' : State}
      (hseen : Seen F n s.tape.left s₀ (.of .interpolation) nodes s') :
      Gives F (Round.Post (CodeSeen F n s₀) (CodeRead s₀) s) (pure (.again (text, nodes))) s' :=
    ⟨⟨hseen.course.bounded hseen.course.left_lt (Nat.le_refl n), hseen.each⟩, hseen.course.left⟩
  refine .view ?_
  split
  case h_1 hkind =>
    have hkind : s.tape.kind ≠ .eof := by simp [hkind]
    refine hseen.course.take hkind fun _ => ?_
    exact hagain ⟨hseen.course.advanced' hkind, hseen.each⟩
  case h_2 hkind =>
    have hkind : s.tape.kind ≠ .eof := by simp [hkind]
    refine hseen.course.own' (h.interpolation hseen.course.ready hkind) fun m _ hm course => ?_
    exact hagain (Seen.cons hseen hm course)
  case h_3 => exact Seen.drop hseen fun hseen => hseen.done (s := s)
  case h_4 => exact hseen.course.refuse

/-- A literal in quotes is an expression, its children the code in it. -/
lemma quoted (h : Inner g n) (r : Ready F n s) (hkind : s.tape.kind ≠ .eof)
    (hwritten : s.tape.kind.isWritten = true) {k : NodeKind} (hk : k = .string ∨ k = .regex) :
    Gives F (Yields .expression s.tape.left s) (g.quoted k) s := by
  have hmore := r.ends.consumable hkind
  refine .view (r.drop hkind fun course => ?_)
  have hpieces : Gives F (CodeRead s.advanced) (iterate g.piece g.rounds ("", [])) s.advanced :=
    Gives.iterate (fun _ _ hseen => h.piece hseen) (Nat.lt_trans course.left_lt h.rounds)
      ⟨course.fresh.bounded course.left_lt (Nat.le_refl n), by simp⟩
  refine hpieces.bind fun code s' hcode => ?_
  obtain ⟨text, code⟩ := code
  obtain ⟨hcode, hreads⟩ := hcode
  have course : Course F n s.tape.left s.advanced code s' := course.fresh.on hreads
  refine .ite (fun hempty => ?_) fun _ => ?_
  · obtain rfl := List.isEmpty_iff.mp hempty
    rcases hk with rfl | rfl
    · exact course.markedNamed hmore hwritten (.enough .nil) (fun _ => rfl) fun _ => rfl
    · exact course.markedNamed hmore hwritten (.enough .nil) (fun _ => rfl) fun _ => rfl
  · rcases hk with rfl | rfl
    · exact course.marked hmore hwritten hcode (fun _ => rfl) fun _ => rfl
    · exact course.marked hmore hwritten hcode (fun _ => rfl) fun _ => rfl

end Inner

namespace Ready

/-- A token that is not the last one is taken as a leaf of its text. -/
lemma takeLeaf {k : NodeKind} (r : Ready F n s) (hkind : s.tape.kind ≠ .eof)
    (hfits : Fits k.layout [])
    (hinert : ∀ span text, (Node.leaf k span text).isInert = true)
    (hc : ∀ span text, c.has (Node.leaf k span text) = true)
    (hk : k.isMarked = true → s.tape.kind.isWritten = true) :
    Gives F (Yields c s.tape.left s) (takeLeaf k) s :=
  r.take hkind fun _ => r.leaf hkind hfits (fun _ => hinert _ _) (fun _ => hc _ _) hk

/-- A token that is not the last one is taken as a leaf of a given text. -/
lemma takeAs {k : NodeKind} {text : String} (r : Ready F n s) (hkind : s.tape.kind ≠ .eof)
    (hfits : Fits k.layout []) (hinert : ∀ span, (Node.leaf k span text).isInert = true)
    (hc : ∀ span, c.has (Node.leaf k span text) = true)
    (hk : k.isMarked = true → s.tape.kind.isWritten = true) :
    Gives F (Yields c s.tape.left s) (takeAs k text) s :=
  r.drop hkind fun _ => r.leaf hkind hfits hinert hc hk

/-- A literal of words is a leaf. -/
lemma percentLiteral (r : Ready F n s) (hkind : s.tape.kind = .percentLiteral) :
    Gives F (Yields .expression s.tape.left s) percentLiteral s := by
  have hwritten := congrArg TokenKind.isWritten hkind
  refine r.take (by simp [hkind]) fun _ => ?_
  dsimp only
  split
  · exact r.leaf (by simp [hkind]) (.enough .nil) (fun _ => rfl) (fun _ => rfl) fun _ => hwritten
  · exact r.leaf (by simp [hkind]) .nil (fun _ => rfl) (fun _ => rfl) nofun

/-- A symbol is a leaf. -/
lemma symbol (r : Ready F n s) (hkind : s.tape.kind = .symbol)
    (hc : ∀ span text, c.has (Node.leaf .symbol span text) = true) :
    Gives F (Yields c s.tape.left s) symbol s :=
  r.take (by simp [hkind]) fun _ => r.leaf (by simp [hkind]) .nil (fun _ => rfl) (fun _ => hc _ _)
    fun _ => congrArg TokenKind.isWritten hkind

end Ready

namespace Inner

/-- An array is an expression, its children its items. -/
lemma array (h : Inner g n) (r : Ready F n s) (hkind : s.tape.kind ≠ .eof) :
    Gives F (Yields .expression s.tape.left s) g.array s := by
  refine r.take hkind fun course => ?_
  refine course.nodes (h.items (h.parse .argument) (by decide)).allowingDo fun _ _ hms course => ?_
  exact course.finish rfl hms (fun _ => rfl) fun _ => rfl

/-- A pair that does not begin with a label begins with an expression of its own. -/
lemma hashItem (h : Inner g n) :
    Reader 1 n (.either (.of .pair) (.of .doubleSplat)) g.hashItem := by
  intro s hends hleft
  have course := Course.begin hends hleft
  refine .view (.view ?_)
  split
  case h_1 hkind =>
    exact (h.labelPair course.ready hkind).mono (fun _ hs => hs) fun m _ hm =>
      ⟨NodeClass.within_left _ _ m hm.1, hm.2⟩
  case h_2 hkind =>
    refine course.ready.drop (by simp [hkind]) fun course => ?_
    refine course.node (h.parse .ternary) fun m _ hm course => ?_
    exact course.finish rfl (.some hm) (fun _ => rfl) fun _ => rfl
  case h_3 =>
    refine course.node' (h.parse .expression) fun key _ hkey course => ?_
    refine course.silent (.discard (.expect _)) fun _ _ course => ?_
    refine course.silent .skipBreaks fun _ _ course => ?_
    refine course.node (h.parse .expression) fun value _ hvalue course => ?_
    exact course.finish rfl (.one hkey (.one hvalue .nil)) (fun _ => rfl) fun _ => rfl

/-- A hash is an expression. -/
lemma hash (h : Inner g n) (r : Ready F n s) (hkind : s.tape.kind ≠ .eof) :
    Gives F (Yields .expression s.tape.left s) g.hash s := by
  refine r.take hkind fun course => ?_
  refine course.nodes (h.items h.hashItem (by decide)).allowingDo fun _ _ hms course => ?_
  exact course.finish rfl hms (fun _ => rfl) fun _ => rfl

/-- Statements in parentheses are an expression. -/
lemma paren (h : Inner g n) (r : Ready F n s) (hkind : s.tape.kind ≠ .eof) :
    Gives F (Yields .expression s.tape.left s) g.paren s := by
  refine r.take hkind fun course => ?_
  refine course.node (h.statements _).allowingDo fun m _ hm course => ?_
  refine course.silent (.expectCloser _ _) fun _ _ course => ?_
  exact course.finish rfl (.one hm .nil) (fun _ => rfl) fun _ => rfl

end Inner

end Literals

/-! ### Definitions -/

section Definitions

variable {F : State → Prop} {s s' s₁ : State} {n : ℕ} {g : Grammar}

/-- The owner of a singleton method makes no node. -/
lemma Skipper.owner : Skipper n owner := by
  refine .of fun s course => .view (.ite (fun _ => ?_) fun _ => course.reads)
  exact course.silent .advance fun _ _ course => course.drop fun course => course.reads

/-- The name of a method makes no node. -/
lemma Skipper.methodName : Skipper n methodName := by
  refine .of fun s course => course.silent .owner fun _ _ course => .view ?_
  exact .ite (fun _ => course.silent .advance fun _ _ course => course.reads) fun _ => course.refuse

namespace Inner

/-- The parameters of a method are one node, also where there are none. -/
lemma methodParameters (h : Inner g n) : Reader 0 n (.of .parameters) g.methodParameters := by
  refine .ofCourse fun s course => .view (.view ?_)
  have hfinish {ms : List Node} {s₁ : State} (hms : Fits [.many .parameter] ms)
      (course : Course (Passes s) n n s ms s₁) :
      Gives (Passes s) (Yields (.of .parameters) n s) (finish .parameters s.start ms) s₁ :=
    course.finish rfl hms (fun _ => rfl) fun _ => rfl
  refine .ite (fun hparen => ?_) fun _ => .ite (fun _ => hfinish (.enough .nil) course) fun _ => ?_
  · have hkind : s.tape.kind ≠ .eof := by
      rw [eq_of_beq hparen]
      simp
    have hlist : Gives (Passes s) (fun ms s' => Fits [.many .parameter] ms ∧ Reads s ms s')
        (do g.parameterList (← advance)) s :=
      course.take hkind fun course => course.tail (h.parameterList _)
    exact hlist.bind fun _ _ hms => hfinish hms.1 (course.on hms.2)
  · exact course.nodes h.bareParameters fun _ _ hms course => hfinish hms course

/-- The value of a method without `end` is its only statement. -/
lemma methodBody (h : Inner g n) (opener : Token) :
    ListReader n NodeKind.bodyLayout (g.methodBody opener) := by
  refine .of fun s course => course.accept (by decide) (fun _ course => ?_) (course.tail (h.body _))
  refine course.silent .skipBreaks fun _ _ course => ?_
  refine course.node (h.parse .statement) fun value _ hvalue course => ?_
  have hlisted := NodeClass.within_left _ (.of .error) value hvalue
  exact ⟨.bareBody rfl, .statements course.reads (.more hlisted (.enough .nil))⟩

/-- The definition of a method is an expression. -/
lemma method (h : Inner g n) (r : Ready F n s) (hkind : s.tape.kind ≠ .eof) :
    Gives F (Yields .expression s.tape.left s) g.method s := by
  refine r.take hkind fun course => course.silent .methodName fun name _ course => ?_
  refine course.inScope fun s₁ _ course => ?_
  refine course.node h.methodParameters fun parameters _ hparameters course => ?_
  refine course.nodes (h.methodBody _) fun body _ hbody course => ?_
  exact course.builtNamed rfl (.one hparameters hbody) (fun _ => rfl) fun _ => rfl

/-- The rest of a path of constants makes no node. -/
lemma constantPathRest (h : Inner g n) (path : String) : Skipper n (g.constantPathRest path) := by
  intro s hends hleft
  refine Gives.iterate (R := fun _ s' => Course (Passes s) n n s [] s') (fun path s' course => ?_)
    (Nat.lt_trans hleft h.rounds) (.begin hends hleft)
  refine .view (.ite (fun hcolons => ?_) fun _ => course.reads)
  have hkind : s'.tape.kind ≠ .eof := by
    simp only [Bool.and_eq_true, beq_iff_eq] at hcolons
    simp [hcolons.1]
  refine course.drop' hkind fun course => course.silent (.expect _) fun _ _ course => ?_
  exact ⟨course.bounded course.left_lt (Nat.le_refl n), course.left⟩

/-- A path of constants makes no node. -/
lemma constantPath (h : Inner g n) : Skipper n g.constantPath := by
  refine .of fun s course => course.silent (.accept _) fun _ _ course => ?_
  refine course.silent (.expect _) fun _ _ course => ?_
  exact (h.constantPathRest _ course.ends course.left_lt).mono course.fails fun _ _ hs =>
    course.reads.append hs

/-- The scope of a class begins at the statements of its body. -/
lemma opens_classDef {parent body : List Node} {span : Span} {text : Option String}
    (hparent : Fits [.maybe .expression] parent) (hbody : Fits NodeKind.bodyLayout body) :
    (⟨.classDef, span, text, parent ++ body⟩ : Node).opens = some (true, parent.length) := by
  obtain ⟨m, rest, rfl, hm⟩ : ∃ m rest, body = m :: rest ∧ m.kind = .statements := by
    cases hbody with
    | one hm => exact ⟨_, _, rfl, eq_of_beq hm⟩
  rcases hparent.eq_nil_or_singleton with rfl | ⟨p, rfl, hp⟩
  · simp [Node.opens, hm]
  · have hkind : p.kind ≠ .statements := by
      rintro hkind
      simp [NodeClass.has, hkind, NodeKind.isExpression] at hp
    simp [Node.opens, hm, hkind]

/-- The superclass and the object of a singleton class are read outside the scope of the body. -/
lemma classDefinition (h : Inner g n) (r : Ready F n s) (hkind : s.tape.kind ≠ .eof) :
    Gives F (Yields .expression s.tape.left s) g.classDefinition s := by
  refine r.take hkind fun course => course.accept (by decide) (fun _ course => ?_) ?_
  · refine course.node (h.parse .expression) fun target _ htarget course => ?_
    refine course.inside id (h.body _) fun body _ hbody course => ?_
    exact course.finish rfl (.one htarget hbody) (fun _ => rfl) fun _ => rfl
  · refine course.silent h.constantPath fun name _ course => ?_
    have hbehind {parent : List Node} {s₁ : State} (hparent : Fits [.maybe .expression] parent)
        (course : Course F n s.tape.left s ([] ++ parent) s₁) :
        Gives F (Yields .expression s.tape.left s) (do
          let body ← g.scopedBody s.tape.current
          finishNamed .classDef s.tape.current.span.start name (parent ++ body)) s₁ := by
      refine course.inside id (h.body _) fun body _ hbody course => ?_
      exact course.finishNamed rfl (hparent.append hbody) (fun _ => opens_classDef hparent hbody)
        fun _ => rfl
    refine course.accept (by decide) (fun _ course => ?_) (hbehind .none course)
    exact course.nodes (.one (h.parse .expression)) fun _ _ hparent course => hbehind hparent course

/-- The definition of a module is an expression. -/
lemma moduleDefinition (h : Inner g n) (r : Ready F n s) (hkind : s.tape.kind ≠ .eof) :
    Gives F (Yields .expression s.tape.left s) g.moduleDefinition s := by
  refine r.take hkind fun course => course.silent h.constantPath fun name _ course => ?_
  refine course.inside id (h.body _) fun body _ hbody course => ?_
  exact course.finishNamed rfl hbody (fun _ => rfl) fun _ => rfl

end Inner

/-- The end of the text names no method. -/
lemma ne_eof_of_namesMethod {k : TokenKind} (h : namesMethod k = true) : k ≠ .eof := by
  rintro rfl
  simp [namesMethod, TokenKind.isOperatorMethod, TokenKind.isKeyword] at h

/-- What names a method is written in the text. -/
lemma isWritten_of_namesMethod {k : TokenKind} (h : namesMethod k = true) : k.isWritten = true := by
  cases k with
  | stringContent | stringEnd | interpolationBegin | interpolationEnd | eof =>
    simp [namesMethod, TokenKind.isOperatorMethod, TokenKind.isKeyword] at h
  | _ => rfl

/-- The name of a method after `alias` or `undef` is one node. -/
lemma reader_methodReference : Reader 1 (n + 1) .reference methodReference := by
  refine .of fun s r => .view ?_
  refine .ite (fun hglobal => ?_) fun _ => .ite (fun hsymbol => ?_) fun _ => ?_
  · have hkind : s.tape.kind = .globalVariable := eq_of_beq hglobal
    exact r.takeLeaf (by simp [hkind]) .nil (fun _ _ => rfl) (fun _ _ => rfl) nofun
  · exact r.symbol (eq_of_beq hsymbol) fun _ _ => rfl
  · refine .ite (fun hname => ?_) fun _ => r.refuse
    exact r.takeLeaf (ne_eof_of_namesMethod hname) .nil (fun _ _ => rfl) (fun _ _ => rfl)
      fun _ => isWritten_of_namesMethod hname

/-- An `alias` is an expression with two names. -/
lemma Ready.alias_ (r : Ready F n s) (hkind : s.tape.kind ≠ .eof) :
    Gives F (Yields .expression s.tape.left s) alias_ s := by
  have hreference : Reader 1 n .reference methodReference :=
    reader_methodReference.lower (Nat.le_succ n)
  refine .view (r.drop hkind fun course => ?_)
  refine course.node hreference fun newName _ hnew course => ?_
  refine course.node hreference fun oldName _ hold course => ?_
  exact course.finish rfl (.one hnew (.one hold .nil)) (fun _ => rfl) fun _ => rfl

namespace Inner

/-- An `undef` is an expression with its names. -/
lemma undef (h : Inner g n) (r : Ready F n s) (hkind : s.tape.kind ≠ .eof) :
    Gives F (Yields .expression s.tape.left s) g.undef s := by
  refine .view (r.drop hkind fun course => ?_)
  have hreferences := h.separated (.pure ()) (reader_methodReference.lower (Nat.le_succ n))
  refine course.nodes hreferences fun _ _ hms course => ?_
  exact course.finish rfl hms (fun _ => rfl) fun _ => rfl

/-- A `BEGIN` or an `END` is an expression. -/
lemma hook (h : Inner g n) (r : Ready F n s) (hkind : s.tape.kind ≠ .eof)
    (hwritten : s.tape.kind.isWritten = true) {k : NodeKind}
    (hk : k = .beginBlock ∨ k = .endBlock) :
    Gives F (Yields .expression s.tape.left s) (g.hook k) s := by
  have hmore := r.ends.consumable hkind
  refine r.take hkind fun course => course.fresh.silent (.expect _) fun _ _ course => ?_
  refine course.inside ([·]) (fun _ hends hleft =>
      (h.statements _ hends hleft).mono (fun _ hs => hs) fun _ _ hm => ⟨hm.1, hm.2.1⟩)
    fun m _ hm course => ?_
  refine course.silent (.expectCloser _ _) fun _ _ course => ?_
  rcases hk with rfl | rfl
  · exact course.marked hmore hwritten (.one hm .nil) (fun _ => rfl) fun _ => rfl
  · exact course.marked hmore hwritten (.one hm .nil) (fun _ => rfl) fun _ => rfl

end Inner

end Definitions

end RubyCheck.Grammar
