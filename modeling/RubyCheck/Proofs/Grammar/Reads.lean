import RubyCheck.Grammar.Chain
import RubyCheck.Grammar.Statement
import RubyCheck.Proofs.Token.Tape
import RubyCheck.Proofs.Tree.Layout
import RubyCheck.Proofs.Tree.Scope

/-!
# What reading does

All that a production does to the state is one of a few things, in whatever order, and `Passes` is
what they come to.  How the nodes come about that a production gives is told by `Reads`: there is
one rule for each way in which a node is made.  Whatever is to be shown of all trees is shown by an
induction over these rules; that every production follows them is shown once.
-/

namespace RubyCheck

/-- Whether a node of some kind, unless it stands for what was given up, begins with a token of its
own, behind which its children stand.  Literals and hooks do, which may be pointed at. -/
def NodeKind.isMarked : NodeKind → Bool
  | integer | float | string | character | symbol | regex | nil_ | true_ | false_ | unary
  | endBlock | error => true
  | _ => false

/-- No kind is marked and not marked. -/
lemma NodeKind.not_marked {k : NodeKind} {p : Prop} (h : k.isMarked = false)
    (hmarked : k.isMarked = true) : p := by
  rw [h] at hmarked
  exact absurd hmarked Bool.false_ne_true

namespace Grammar

namespace State

/-- The state behind the current token. -/
def advanced (s : State) : State := { s with tape := s.tape.advance }

/-- Where the current token begins. -/
def start (s : State) : Position := s.tape.current.span.start

/-- If a node of some kind begins with a token of its own, such a token stands here. -/
def Marks (s : State) (k : NodeKind) : Prop :=
  k.isMarked = true → s.tape.Consumable ∧ s.tape.kind.isWritten = true

/-- The state inside a new scope. -/
def enterScope (closed : Bool) (s : State) : State := { s with scopes := ⟨[], closed⟩ :: s.scopes }

/-- The state behind the innermost scope. -/
def leaveScope (s : State) : State := { s with scopes := s.scopes.tail }

end State

/-- What is put around a production and taken back behind it, scopes apart. -/
inductive Context where
  /-- One level deeper. -/
  | deeper
  /-- Where a `do` begins a block again. -/
  | allowingDo
  /-- Where a `do` belongs to the construct around. -/
  | withholdingDo

namespace Context

/-- The state in a context. -/
def enter (c : Context) (s : State) : State :=
  match c with
  | deeper => { s with depth := s.depth + 1 }
  | allowingDo => { s with doWithheld := 0 }
  | withholdingDo => { s with doWithheld := s.doWithheld + 1 }

/-- The state behind a context that was put around in some state. -/
def leave (c : Context) (outer s : State) : State :=
  match c with
  | deeper => { s with depth := s.depth - 1 }
  | allowingDo => { s with doWithheld := outer.doWithheld }
  | withholdingDo => { s with doWithheld := s.doWithheld - 1 }

variable (c : Context) (outer s : State)

@[simp] lemma tape_enter : (c.enter s).tape = s.tape := by cases c <;> rfl

@[simp] lemma tape_leave : (c.leave outer s).tape = s.tape := by cases c <;> rfl

@[simp] lemma faults_enter : (c.enter s).faults = s.faults := by cases c <;> rfl

@[simp] lemma faults_leave : (c.leave outer s).faults = s.faults := by cases c <;> rfl

@[simp] lemma limits_enter : (c.enter s).limits = s.limits := by cases c <;> rfl

@[simp] lemma limits_leave : (c.leave outer s).limits = s.limits := by cases c <;> rfl

@[simp] lemma scopes_enter : (c.enter s).scopes = s.scopes := by cases c <;> rfl

@[simp] lemma scopes_leave : (c.leave outer s).scopes = s.scopes := by cases c <;> rfl

end Context

/-! ### Changes of the state -/

/-- What a production may do to the state, whether it gives a result or fails. -/
inductive Passes : State → State → Prop
  | steps {s : State} {tape : Tape} : s.tape.Steps tape → Passes s { s with tape := tape }
  | report (s : State) (f : Fault) : Passes s (s.report f)
  | declare (s : State) (name : String) : Passes s (s.declare name)
  | within {s s' : State} (c : Context) : Passes (c.enter s) s' → Passes s (c.leave s s')
  | inScope {s s' : State} (closed : Bool) :
      Passes (s.enterScope closed) s' → Passes s s'.leaveScope
  | trans {s s' s'' : State} : Passes s s' → Passes s' s'' → Passes s s''

/-! ### Nodes -/

/-- The name that a token binds if it is a parameter. -/
inductive Binds : Token → String → Prop
  | identifier {t : Token} : t.kind = .identifier → Binds t t.text
  | label {t : Token} : t.kind = .label → Binds t (labelName t.text)

/-- Nodes that are read from a state on, one behind another, up to a state. -/
inductive Reads : State → List Node → State → Prop
  /-- Tokens that make no node. -/
  | steps {s : State} {tape : Tape} : s.tape.Steps tape → Reads s [] { s with tape := tape }
  | report (s : State) (f : Fault) : Reads s [] (s.report f)
  /-- A statement that failed is dropped and reported. -/
  | abandon {s s' : State} (f : Fault) : Passes s s' → Reads s [] (s'.report f)
  | append {s s' s'' : State} {ns ms : List Node} :
      Reads s ns s' → Reads s' ms s'' → Reads s (ns ++ ms) s''
  | within {s s' : State} {ns : List Node} (c : Context) :
      Reads (c.enter s) ns s' → Reads s ns (c.leave s s')
  /-- A node for what was given up, behind which something was consumed unless the text ends. -/
  | error {s s' : State} :
      Reads s [] s' → s.tape.current.isEof = true ∨ s'.tape.consumed.isSome = true →
      Reads s [s'.errorNode s.tape.current] s'
  /-- A token by itself. -/
  | leaf {s : State} (k : NodeKind) (text : String) :
      s.tape.Consumable → Fits k.layout [] →
      (Node.leaf k s.tape.current.span text).isInert = true → s.Marks k →
      Reads s [.leaf k s.tape.current.span text] s.advanced
  /-- A name that is a variable here. -/
  | use {s : State} :
      s.tape.Consumable → s.tape.kind = .identifier → s.isLocal s.tape.current.text = true →
      Reads s [.leaf .localVariable s.tape.current.span s.tape.current.text] s.advanced
  /-- A name that is none. -/
  | bareCall {s : State} :
      s.tape.Consumable → s.tape.kind = .identifier → s.isLocal s.tape.current.text = false →
      Reads s [(Node.inner .call (s.advanced.spanFrom s.start) []).withText s.tape.current.text]
        s.advanced
  /-- A key that is its own value. -/
  | shorthand {s : State} {name : String} :
      s.tape.Consumable → s.tape.kind = .label → name = labelName s.tape.current.text →
      Reads s
        [.leaf .symbol s.tape.current.span name,
          .leaf (if s.isLocal name then .localVariable else .call) s.tape.current.span name]
        s.advanced
  /-- A parameter with its default value, which may mention it. -/
  | parameter {s s₁ s₂ : State} {name : String} {ns : List Node} :
      Reads s [] s₁ → s₁.tape.Consumable → Binds s₁.tape.current name →
      Reads (s₁.advanced.declare name) ns s₂ → Fits NodeKind.parameter.layout ns →
      Reads s [(Node.inner .parameter (s₂.spanFrom s.start) ns).withText name] s₂
  /-- A variable of a block. -/
  | blockLocal {s : State} :
      s.tape.Consumable → s.tape.kind = .identifier →
      Reads s [.leaf .blockLocal s.tape.current.span s.tape.current.text]
        (s.advanced.declare s.tape.current.text)
  /-- A variable that is assigned to. -/
  | retarget {s s' : State} {n : Node} :
      Reads s [n] s' → n.kind = .localVariable → Reads s [{ n with kind := .localTarget }] s'
  /-- A name that becomes a variable by being assigned to. -/
  | target {s s' : State} {n : Node} :
      Reads s [n] s' → n.kind = .call → n.children = [] →
      Reads s [{ n with kind := .localTarget }] (s'.declare n.name)
  /-- A call with a block behind it. -/
  | attach {s s' s'' : State} {call block : Node} :
      Reads s [call] s' → Reads s' [block] s'' → takesBlock call = true → block.kind = .block →
      Reads s [withBlock call block] s''
  /-- A conditional with the `end` behind it. -/
  | close {s s' : State} {n : Node} :
      Reads s [n] s' → s'.tape.Consumable → n.kind = .if_ →
      Reads s [{ n with span := ⟨n.span.start, s'.tape.current.span.stop⟩ }] s'.advanced
  /-- Statements begin at the first and end with the last of them. -/
  | statements {s s' : State} {ns : List Node} :
      Reads s ns s' → Fits NodeKind.statements.layout ns →
      Reads s [.inner .statements (spanOfEach s.start ns) ns] s'
  /-- Any other node spans all that was consumed for it. -/
  | node {s s' : State} {k : NodeKind} {text : Option String} {ns : List Node} :
      Reads s ns s' → Fits k.layout ns →
      (⟨k, s'.spanFrom s.start, text, ns⟩ : Node).isInert = true →
      s.Marks k → (k.isMarked = true → Reads s.advanced ns s') →
      Reads s [⟨k, s'.spanFrom s.start, text, ns⟩] s'
  /-- A node that opens a scope for the last of its children. -/
  | scope {s s₁ s₂ s₃ : State} {k : NodeKind} {text : Option String} {outer inner : List Node}
      {closed : Bool} :
      Reads s outer s₁ → Reads (s₁.enterScope closed) inner s₂ → Reads s₂.leaveScope [] s₃ →
      Fits k.layout (outer ++ inner) →
      (⟨k, s₃.spanFrom s.start, text, outer ++ inner⟩ : Node).opens = some (closed, outer.length) →
      s.Marks k → (k.isMarked = true → Reads s.advanced outer s₁) →
      Reads s [⟨k, s₃.spanFrom s.start, text, outer ++ inner⟩] s₃

namespace State

/-- Declaring a name moves nothing. -/
lemma tape_declare (s : State) (name : String) : (s.declare name).tape = s.tape := by
  unfold State.declare
  split
  · rfl
  · split <;> rfl

/-- Declaring a name finds no fault. -/
lemma faults_declare (s : State) (name : String) : (s.declare name).faults = s.faults := by
  unfold State.declare
  split
  · rfl
  · split <;> rfl

/-- Declaring a name leaves the limits alone. -/
lemma limits_declare (s : State) (name : String) : (s.declare name).limits = s.limits := by
  unfold State.declare
  split
  · rfl
  · split <;> rfl

/-- Declaring a name leaves the depth alone. -/
lemma depth_declare (s : State) (name : String) : (s.declare name).depth = s.depth := by
  unfold State.declare
  split
  · rfl
  · split <;> rfl

/-- Declaring a name opens or closes no scope. -/
lemma closed_declare (s : State) (name : String) :
    (s.declare name).scopes.map (·.closed) = s.scopes.map (·.closed) := by
  unfold State.declare
  split
  · rfl
  · rename_i hscopes
    split
    · rfl
    · simp [hscopes]

/-- A report changes nothing around. -/
lemma context_report (s : State) (f : Fault) :
    (s.report f).depth = s.depth ∧ (s.report f).scopes = s.scopes := by
  unfold State.report
  split
  · exact ⟨rfl, rfl⟩
  · simp only
    split
    · exact ⟨rfl, rfl⟩
    · exact ⟨rfl, rfl⟩

/-- A report leaves the tape where it stands, or ends it. -/
lemma tape_report (s : State) (f : Fault) :
    (s.report f).tape = s.tape ∨ (s.report f).tape = s.tape.toLast := by
  unfold State.report
  split
  · exact .inl rfl
  · simp only
    split
    · exact .inr rfl
    · exact .inl rfl

end State

namespace Passes

variable {s s' : State}

/-- A state that nothing was read from is passed on as it is. -/
lemma refl (s : State) : Passes s s := steps (.refl s.tape)

/-- What stays true whenever the tape moves on is true behind every production. -/
theorem onward {P : Tape → Prop} (hP : Tape.Onward P) (h : Passes s s') (hs : P s.tape) :
    P s'.tape := by
  induction h with
  | steps h => exact hP.steps h hs
  | report s f =>
    rcases s.tape_report f with htape | htape
    · rwa [htape]
    · rw [htape]
      exact hP.toLast hs
  | declare s name => rwa [s.tape_declare]
  | within c _ ih =>
    rw [c.tape_leave]
    exact ih (by rwa [c.tape_enter])
  | inScope closed _ ih => exact ih hs
  | trans _ _ ih ih' => exact ih' (ih hs)

/-- What was read leaves the end of the text the last token. -/
lemma ends (h : Passes s s') (hs : s.tape.Ends) : s'.tape.Ends := h.onward Tape.onward_ends hs

/-- No more tokens are left than before. -/
lemma left_le (h : Passes s s') : s'.tape.left ≤ s.tape.left :=
  h.onward (Tape.onward_left_le _) (Nat.le_refl _)

/-- As many constructs are open around as before. -/
theorem depth (h : Passes s s') : s'.depth = s.depth := by
  induction h with
  | steps _ => rfl
  | report s f => exact (s.context_report f).1
  | declare s name => exact s.depth_declare name
  | within c _ ih =>
    cases c with
    | deeper => exact congrArg (· - 1) ih
    | allowingDo => exact ih
    | withholdingDo => exact ih
  | inScope closed _ ih => exact ih
  | trans _ _ ih ih' => exact ih'.trans ih

/-- The same scopes are around as before, but for their names. -/
theorem closed (h : Passes s s') :
    s'.scopes.map (·.closed) = s.scopes.map (·.closed) := by
  induction h with
  | steps _ => rfl
  | report s f => rw [(s.context_report f).2]
  | declare s name => exact s.closed_declare name
  | within c _ ih =>
    rw [c.scopes_leave, ih, c.scopes_enter]
  | inScope closed _ ih =>
    rw [State.leaveScope, List.map_tail, ih]
    rfl
  | trans _ _ ih ih' => exact ih'.trans ih

end Passes

namespace Reads

variable {s s' : State} {ns : List Node}

/-- Nothing is read from a state to itself. -/
lemma refl (s : State) : Reads s [] s := steps (.refl s.tape)

/-- A node that need not begin with a token of its own. -/
lemma unmarked {k : NodeKind} {text : Option String} (h : Reads s ns s') (hfits : Fits k.layout ns)
    (hinert : (⟨k, s'.spanFrom s.start, text, ns⟩ : Node).isInert = true)
    (hk : k.isMarked = false) : Reads s [⟨k, s'.spanFrom s.start, text, ns⟩] s' :=
  .node h hfits hinert (NodeKind.not_marked hk) (NodeKind.not_marked hk)

/-- A node whose last children are read in a scope of its own, and which begins at no token that marks
it. -/
lemma unmarkedScope {s₁ s₂ s₃ : State} {k : NodeKind} {text : Option String}
    {outer inner : List Node} {closed : Bool} (houter : Reads s outer s₁)
    (hinner : Reads (s₁.enterScope closed) inner s₂) (hbehind : Reads s₂.leaveScope [] s₃)
    (hfits : Fits k.layout (outer ++ inner))
    (hopens : (⟨k, s₃.spanFrom s.start, text, outer ++ inner⟩ : Node).opens =
      some (closed, outer.length))
    (hk : k.isMarked = false) :
    Reads s [⟨k, s₃.spanFrom s.start, text, outer ++ inner⟩] s₃ :=
  .scope houter hinner hbehind hfits hopens (NodeKind.not_marked hk) (NodeKind.not_marked hk)

/-- A node that begins with a token of its own: the others were read behind it. -/
lemma marked {k : NodeKind} {text : Option String} (h : Reads s.advanced ns s')
    (hmore : s.tape.Consumable) (hwritten : s.tape.kind.isWritten = true)
    (hfits : Fits k.layout ns)
    (hinert : (⟨k, s'.spanFrom s.start, text, ns⟩ : Node).isInert = true) :
    Reads s [⟨k, s'.spanFrom s.start, text, ns⟩] s' :=
  .node ((Reads.steps hmore.steps).append h) hfits hinert (fun _ => ⟨hmore, hwritten⟩) fun _ => h

/-- Whatever reading does, it does nothing else to the state. -/
theorem passes (h : Reads s ns s') : Passes s s' := by
  induction h with
  | steps h => exact .steps h
  | report s f => exact .report s f
  | abandon f h => exact h.trans (.report _ f)
  | append _ _ ih ih' => exact ih.trans ih'
  | within c _ ih => exact .within c ih
  | error _ _ ih => exact ih
  | leaf _ _ h => exact .steps h.steps
  | use h => exact .steps h.steps
  | bareCall h => exact .steps h.steps
  | shorthand h => exact .steps h.steps
  | parameter _ h _ _ _ ih ih' =>
    exact ih.trans (.trans (.trans (.steps h.steps) (.declare _ _)) ih')
  | blockLocal h => exact .trans (.steps h.steps) (.declare _ _)
  | retarget _ _ ih => exact ih
  | target _ _ _ ih => exact ih.trans (.declare _ _)
  | attach _ _ _ _ ih ih' => exact ih.trans ih'
  | close _ h _ ih => exact ih.trans (.steps h.steps)
  | statements _ _ ih => exact ih
  | node _ _ _ _ _ ih _ => exact ih
  | scope _ _ _ _ _ _ _ ih ih' ih'' _ => exact ih.trans (.trans (.inScope _ ih') ih'')

end Reads

/-! ### Layouts -/

/-- Blocks stand behind calls alone. -/
lemma kind_of_takesBlock {call : Node} (h : takesBlock call = true) :
    call.kind = .call ∨ call.kind = .super_ := by
  rw [takesBlock, Bool.and_eq_true, Bool.or_eq_true_iff, beq_iff_eq, beq_iff_eq] at h
  exact h.1

/-- A call that takes a block has room for it. -/
lemma laidOut_withBlock {call block : Node} (h : call.LaidOut) (hcall : takesBlock call = true)
    (hblock : block.kind = .block) : (withBlock call block).LaidOut := by
  have hlast : ∀ n ∈ call.children.getLast?, NodeClass.has (.of .block) n = false := by
    intro n hn
    rw [takesBlock, Bool.and_eq_true, Option.all_eq_true] at hcall
    simpa [NodeClass.has] using hcall.2 n hn
  have hhas : NodeClass.has (.of .block) block = true := by simp [NodeClass.has, hblock]
  change Fits call.kind.layout (call.children ++ [block])
  rw [Node.LaidOut] at h
  rcases kind_of_takesBlock hcall with hkind | hkind
  · rw [hkind] at h ⊢
    exact (Fits.of_last_not [.maybe .expression, .maybe (.of .arguments)] h hlast).append
      (.some hhas)
  · rw [hkind] at h ⊢
    exact (Fits.of_last_not [.maybe (.of .arguments)] h hlast).append (.some hhas)

/-- Every node that is read has the children of its kind. -/
theorem Reads.laidOut {s s' : State} {ns : List Node} (h : Reads s ns s') :
    ∀ n ∈ ns, n.Everywhere Node.LaidOut := by
  induction h with
  | steps _ => simp
  | report _ _ => simp
  | abandon _ _ => simp
  | append _ _ ih ih' => exact List.forall_mem_append.mpr ⟨ih, ih'⟩
  | within _ _ ih => exact ih
  | error _ _ _ => exact .onlyLeaf .nil rfl
  | leaf _ _ _ hfits _ _ => exact .onlyLeaf hfits rfl
  | use _ _ _ => exact .onlyLeaf .nil rfl
  | bareCall _ _ _ => exact .onlyLeaf (.absent (.absent .none)) rfl
  | @shorthand s name _ _ _ =>
    refine List.forall_mem_cons.mpr ⟨.intro .nil (by simp [Node.leaf]), .onlyLeaf ?_ rfl⟩
    rw [Node.LaidOut, Node.leaf]
    split
    · exact .nil
    · exact .absent (.absent .none)
  | parameter _ _ _ _ hfits _ ih => exact .only hfits ih
  | blockLocal _ _ => exact .onlyLeaf .nil rfl
  | retarget _ hkind ih =>
    have hnode := ih _ (List.mem_singleton_self _)
    have hleaf := hnode.root.children_eq_nil (by rw [hkind]; rfl)
    exact .onlyLeaf (by rw [Node.LaidOut, hleaf]; exact .nil) hleaf
  | target _ _ hleaf _ => exact .onlyLeaf (by rw [Node.LaidOut, hleaf]; exact .nil) hleaf
  | attach _ _ hcall hblock ih ih' =>
    have hnode := ih _ (List.mem_singleton_self _)
    exact .only (laidOut_withBlock hnode.root hcall hblock)
      (List.forall_mem_append.mpr ⟨hnode.children, ih'⟩)
  | close _ _ _ ih =>
    have hnode := ih _ (List.mem_singleton_self _)
    exact .only hnode.root hnode.children
  | statements _ hfits ih => exact .only hfits ih
  | node _ hfits _ _ _ ih _ => exact .only hfits ih
  | scope _ _ _ hfits _ _ _ ih ih' _ _ => exact .only hfits (List.forall_mem_append.mpr ⟨ih, ih'⟩)

/-- No node that is read assigns to a parameter. -/
theorem Reads.assignsNoParameter {s s' : State} {ns : List Node} (h : Reads s ns s') :
    ∀ n ∈ ns, n.Everywhere (Node.assignsNoParameter · = true) := by
  induction h with
  | steps _ => simp
  | report _ _ => simp
  | abandon _ _ => simp
  | append _ _ ih ih' => exact List.forall_mem_append.mpr ⟨ih, ih'⟩
  | within _ _ ih => exact ih
  | error _ _ _ => exact .onlyLeaf rfl rfl
  | leaf _ _ _ _ hinert _ => exact .onlyLeaf (Node.assignsNoParameter_of_isInert hinert) rfl
  | use _ _ _ => exact .onlyLeaf rfl rfl
  | bareCall _ _ _ => exact .onlyLeaf rfl rfl
  | @shorthand s name _ _ _ =>
    refine List.forall_mem_cons.mpr ⟨.intro rfl (by simp [Node.leaf]), .onlyLeaf ?_ rfl⟩
    rw [Node.leaf]
    split
    · rfl
    · rfl
  | parameter _ _ _ _ _ _ ih => exact .only rfl ih
  | blockLocal _ _ => exact .onlyLeaf rfl rfl
  | retarget _ _ ih => exact .only rfl (ih _ (List.mem_singleton_self _)).children
  | target _ _ _ ih => exact .only rfl (ih _ (List.mem_singleton_self _)).children
  | attach _ _ hcall _ ih ih' =>
    have hnode := ih _ (List.mem_singleton_self _)
    refine .only ?_ (List.forall_mem_append.mpr ⟨hnode.children, ih'⟩)
    rcases kind_of_takesBlock hcall with hkind | hkind
    · simp [Node.assignsNoParameter, withBlock, hkind]
    · simp [Node.assignsNoParameter, withBlock, hkind]
  | close _ _ _ ih =>
    have hnode := ih _ (List.mem_singleton_self _)
    exact .only hnode.root hnode.children
  | statements _ _ ih => exact .only rfl ih
  | node _ _ hinert _ _ ih _ => exact .only (Node.assignsNoParameter_of_isInert hinert) ih
  | scope _ _ _ _ hopens _ _ ih ih' _ _ =>
    exact .only (Node.assignsNoParameter_of_opens hopens) (List.forall_mem_append.mpr ⟨ih, ih'⟩)

end Grammar

end RubyCheck
