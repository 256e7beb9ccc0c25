import Mathlib.Tactic.Common
import RubyCheck.Grammar.Assignable

/-!
# What the children of nodes are

The kind of a node says which children it has and in which order: some there must be, some there may
be, and of some there may be any number.  `NodeKind.layout` is that table, and `Fits` says that the
children of a node are as the table has it.
-/

namespace RubyCheck

/-! ### Classes of nodes -/

namespace NodeKind

/-- Whether a node of this kind has a value and can stand wherever a value is asked for. -/
def isExpression : NodeKind → Bool
  | program | statements | error | arguments | splat | doubleSplat | blockPass | block
  | blockParameters | parameters | parameter | blockLocal | pair | multiTargets | when_ | in_
  | else_ | rescueClause | ensureClause | interpolation | localTarget | multipleAssignment
  | ifModifier | unlessModifier | whileModifier | untilModifier | rescueModifier => false
  | _ => true

/-- Whether a node of this kind can stand by itself in a list of statements. -/
def isStatement (k : NodeKind) : Bool := k.isExpression || k.isModifier || k == multipleAssignment

/-- Whether a node of this kind can be an argument. -/
def isArgument : NodeKind → Bool
  | splat | doubleSplat | blockPass | pair => true
  | k => k.isExpression

end NodeKind

namespace Node

mutual

/-- Whether a node is a parameter, or several targets with a parameter among them. -/
def holdsParameter : Node → Bool
  | ⟨kind, _, _, children⟩ =>
    kind == .parameter || kind == .multiTargets && anyHoldsParameter children

/-- The same for one of several nodes. -/
def anyHoldsParameter : List Node → Bool
  | [] => false
  | n :: ns => holdsParameter n || anyHoldsParameter ns

end

/-- Several nodes hold a parameter if one of them does. -/
lemma anyHoldsParameter_eq (ns : List Node) :
    anyHoldsParameter ns = ns.any holdsParameter := by
  induction ns with
  | nil => rfl
  | cons n ns ih => rw [anyHoldsParameter, List.any_cons, ih]

/-- A node holds a parameter if it is one, or targets among which one holds it. -/
lemma holdsParameter_eq (n : Node) :
    n.holdsParameter = (n.kind == .parameter ||
      n.kind == .multiTargets && n.children.any holdsParameter) := by
  rw [← anyHoldsParameter_eq]
  cases n
  rfl

end Node

/-- A class of nodes that can stand in one place. -/
inductive NodeClass where
  /-- Nodes of one kind. -/
  | of (kind : NodeKind)
  /-- Nodes that have a value. -/
  | expression
  | statement
  | argument
  /-- What can be assigned. -/
  | assigned
  /-- What can be assigned to: a variable, a constant, an element, or an attribute of a receiver. -/
  | target
  /-- Several targets of an assignment, in parentheses or not. -/
  | targets
  /-- What stands in the place of a parameter. -/
  | parameter
  /-- What names a method or a global variable. -/
  | reference
  | either (c d : NodeClass)
deriving DecidableEq, Repr

namespace NodeClass

/-- Whether a node is of a class. -/
def has : NodeClass → Node → Bool
  | of kind, n => n.kind == kind
  | expression, n => n.kind.isExpression
  | statement, n => n.kind.isStatement
  | argument, n => n.kind.isArgument
  | assigned, n => n.kind == .splat || n.kind.isExpression
  | target, n =>
    match n.kind with
    | .localTarget | .instanceVariable | .classVariable | .globalVariable | .constant
    | .scopedConstant | .index => true
    | .call => Grammar.isAttribute n
    | _ => false
  | targets, n => n.kind == .multiTargets && !n.holdsParameter
  | parameter, n => n.kind == .parameter || n.kind == .multiTargets
  | reference, n => n.kind == .symbol || n.kind == .globalVariable
  | either c d, n => c.has n || d.has n

example : (either target parameter).has (.leaf .constant default "A") = true := by cbv

/-- What can be one of several targets, or one of the parameters in parentheses. -/
def eachTarget : NodeClass := either (either target (of .splat)) parameter

/-- What can be one of several targets of an assignment. -/
def assignedTarget : NodeClass := either (either target (of .splat)) targets

/-- Whether nodes of a kind can be of a class. -/
def takes : NodeClass → NodeKind → Bool
  | of kind, k => k == kind
  | expression, k => k.isExpression
  | statement, k => k.isStatement
  | argument, k => k.isArgument
  | assigned, k => k == .splat || k.isExpression
  | target, k =>
    match k with
    | .localTarget | .instanceVariable | .classVariable | .globalVariable | .constant
    | .scopedConstant | .index | .call => true
    | _ => false
  | targets, k => k == .multiTargets
  | parameter, k => k == .parameter || k == .multiTargets
  | reference, k => k == .symbol || k == .globalVariable
  | either c d, k => c.takes k || d.takes k

/-- A node of a class is of a kind that the class takes. -/
lemma takes_of_has {c : NodeClass} {n : Node} (h : c.has n = true) : c.takes n.kind = true := by
  induction c with
  | either c d ihc ihd =>
    rcases Bool.or_eq_true_iff.mp h with hc | hd
    · exact Bool.or_eq_true_iff.mpr (.inl (ihc hc))
    · exact Bool.or_eq_true_iff.mpr (.inr (ihd hd))
  | target =>
    simp only [has] at h
    simp only [takes]
    split at h
    all_goals simp_all
  | targets => exact (Bool.and_eq_true_iff.mp h).1
  | _ => exact h

/-- No node of a class is or holds a parameter if none of it can be a parameter or several
targets. -/
lemma holdsParameter_eq_false {c : NodeClass} {n : Node} (h : c.has n = true)
    (hparameter : c.takes .parameter = false) (htargets : c.takes .multiTargets = false) :
    n.holdsParameter = false := by
  have htakes := takes_of_has h
  rw [Node.holdsParameter_eq, Bool.or_eq_false_iff, Bool.and_eq_false_iff]
  constructor
  · rw [beq_eq_false_iff_ne]
    rintro hkind
    rw [hkind, hparameter] at htakes
    exact Bool.false_ne_true htakes
  · left
    rw [beq_eq_false_iff_ne]
    rintro hkind
    rw [hkind, htargets] at htakes
    exact Bool.false_ne_true htakes

/-- Nested targets without parameters hold none. -/
lemma not_of_targets {n : Node} (h : targets.has n = true) : n.holdsParameter = false :=
  (Bool.not_eq_true' _).mp (Bool.and_eq_true_iff.mp h).2

/-- What can be one of several targets of an assignment holds no parameter. -/
lemma not_of_assignedTarget {n : Node} (h : assignedTarget.has n = true) :
    n.holdsParameter = false := by
  rcases Bool.or_eq_true_iff.mp h with hone | hseveral
  · exact holdsParameter_eq_false hone rfl rfl
  · exact not_of_targets hseveral

/-- Every node of one class is of the other. -/
def Within (c d : NodeClass) : Prop := ∀ n, c.has n = true → d.has n = true

/-- A class is within itself. -/
lemma Within.refl (c : NodeClass) : c.Within c := fun _ h => h

/-- A class is within its union with another one, on the left. -/
lemma within_left (c d : NodeClass) : c.Within (either c d) := fun n h => by simp [has, h]

/-- A class is within its union with another one, on the right. -/
lemma within_right (c d : NodeClass) : d.Within (either c d) := fun n h => by simp [has, h]

/-- Nested targets without parameters are nested targets. -/
lemma targets_within_multiTargets : targets.Within (of .multiTargets) := fun n h => by
  simp_all [has]

/-- What can be one of several targets of an assignment can be one of a parameter's. -/
lemma assignedTarget_within_eachTarget : assignedTarget.Within eachTarget := fun n h => by
  simp_all only [assignedTarget, eachTarget, has, Bool.or_eq_true, Bool.and_eq_true]
  tauto

/-- An expression can stand as a statement. -/
lemma expression_within_statement : expression.Within statement := fun n h => by
  simp_all [has, NodeKind.isStatement]

/-- An expression can stand as an argument. -/
lemma expression_within_argument : expression.Within argument := by
  intro n h
  change n.kind.isArgument = true
  unfold NodeKind.isArgument
  split
  · rfl
  · rfl
  · rfl
  · rfl
  · exact h

/-- An expression can stand as what is assigned. -/
lemma expression_within_assigned : expression.Within assigned := fun n h => by simp_all [has]

/-- What is assigned can be an argument. -/
lemma assigned_within_argument : assigned.Within argument := by
  intro n h
  rcases Bool.or_eq_true_iff.mp h with hsplat | hvalue
  · simp [has, eq_of_beq hsplat, NodeKind.isArgument]
  · exact expression_within_argument n hvalue

end NodeClass

/-! ### Layouts -/

/-- A part of the children of a node. -/
inductive Part where
  /-- One child of a class. -/
  | one (c : NodeClass)
  /-- One child of a class, or none. -/
  | maybe (c : NodeClass)
  /-- Any number of children of a class. -/
  | many (c : NodeClass)
deriving DecidableEq, Repr

/-- Nodes that are made up of some parts, one after another. -/
inductive Fits : List Part → List Node → Prop
  | nil : Fits [] []
  | one {c : NodeClass} {n : Node} {parts : List Part} {ns : List Node} :
      c.has n = true → Fits parts ns → Fits (.one c :: parts) (n :: ns)
  | absent {c : NodeClass} {parts : List Part} {ns : List Node} :
      Fits parts ns → Fits (.maybe c :: parts) ns
  | present {c : NodeClass} {n : Node} {parts : List Part} {ns : List Node} :
      c.has n = true → Fits parts ns → Fits (.maybe c :: parts) (n :: ns)
  | enough {c : NodeClass} {parts : List Part} {ns : List Node} :
      Fits parts ns → Fits (.many c :: parts) ns
  | more {c : NodeClass} {n : Node} {parts : List Part} {ns : List Node} :
      c.has n = true → Fits (.many c :: parts) ns → Fits (.many c :: parts) (n :: ns)

namespace Fits

variable {c : NodeClass} {n : Node} {parts parts' : List Part} {ns ms : List Node}

/-- Parts after parts. -/
lemma append (h : Fits parts ns) (h' : Fits parts' ms) : Fits (parts ++ parts') (ns ++ ms) := by
  induction h with
  | nil => exact h'
  | one hn _ ih => exact .one hn ih
  | absent _ ih => exact .absent ih
  | present hn _ ih => exact .present hn ih
  | enough _ ih => exact .enough ih
  | more hn _ ih => exact .more hn ih

/-- Without parts there are no children. -/
lemma eq_nil (h : Fits [] ns) : ns = [] := by
  cases h
  rfl

/-- One part that may be missing is one child or none. -/
lemma eq_nil_or_singleton (h : Fits [.maybe c] ns) : ns = [] ∨ ∃ n, ns = [n] ∧ c.has n = true := by
  cases h with
  | absent h => exact .inl h.eq_nil
  | present hn h =>
    obtain rfl := h.eq_nil
    exact .inr ⟨_, rfl, hn⟩

/-- A part that may be missing fits no child. -/
lemma none : Fits [.maybe c] [] := .absent .nil

/-- A part that may be missing fits one child of its class. -/
lemma some (hn : c.has n = true) : Fits [.maybe c] [n] := .present hn .nil

/-- Children that are made up of parts after parts are some after some. -/
lemma of_append (h : Fits (parts ++ parts') ns) :
    ∃ ns₁ ns₂, ns = ns₁ ++ ns₂ ∧ Fits parts ns₁ ∧ Fits parts' ns₂ := by
  generalize hall : parts ++ parts' = all at h
  induction h generalizing parts with
  | nil =>
    obtain ⟨rfl, rfl⟩ := List.append_eq_nil_iff.mp hall
    exact ⟨[], [], rfl, .nil, .nil⟩
  | one hn h ih =>
    rcases List.append_eq_cons_iff.mp hall with ⟨rfl, rfl⟩ | ⟨parts, rfl, hrest⟩
    · exact ⟨[], _, rfl, .nil, .one hn h⟩
    · obtain ⟨ns₁, ns₂, rfl, h₁, h₂⟩ := ih hrest.symm
      exact ⟨_ :: ns₁, ns₂, rfl, .one hn h₁, h₂⟩
  | absent h ih =>
    rcases List.append_eq_cons_iff.mp hall with ⟨rfl, rfl⟩ | ⟨parts, rfl, hrest⟩
    · exact ⟨[], _, rfl, .nil, .absent h⟩
    · obtain ⟨ns₁, ns₂, rfl, h₁, h₂⟩ := ih hrest.symm
      exact ⟨ns₁, ns₂, rfl, .absent h₁, h₂⟩
  | present hn h ih =>
    rcases List.append_eq_cons_iff.mp hall with ⟨rfl, rfl⟩ | ⟨parts, rfl, hrest⟩
    · exact ⟨[], _, rfl, .nil, .present hn h⟩
    · obtain ⟨ns₁, ns₂, rfl, h₁, h₂⟩ := ih hrest.symm
      exact ⟨_ :: ns₁, ns₂, rfl, .present hn h₁, h₂⟩
  | enough h ih =>
    rcases List.append_eq_cons_iff.mp hall with ⟨rfl, rfl⟩ | ⟨parts, rfl, hrest⟩
    · exact ⟨[], _, rfl, .nil, .enough h⟩
    · obtain ⟨ns₁, ns₂, rfl, h₁, h₂⟩ := ih hrest.symm
      exact ⟨ns₁, ns₂, rfl, .enough h₁, h₂⟩
  | more hn h ih =>
    rcases List.append_eq_cons_iff.mp hall with ⟨rfl, rfl⟩ | ⟨parts, rfl, hrest⟩
    · exact ⟨[], _, rfl, .nil, .more hn h⟩
    · obtain ⟨ns₁, ns₂, rfl, h₁, h₂⟩ := ih hall
      exact ⟨_ :: ns₁, ns₂, rfl, .more hn h₁, h₂⟩

/-- Without a child of the class of the last part, there is none for that part. -/
lemma of_last_not (parts : List Part) (h : Fits (parts ++ [.maybe c]) ns)
    (hlast : ∀ n ∈ ns.getLast?, c.has n = false) : Fits parts ns := by
  obtain ⟨ns₁, ns₂, rfl, h₁, h₂⟩ := h.of_append
  rcases h₂.eq_nil_or_singleton with rfl | ⟨n, rfl, hn⟩
  · rwa [List.append_nil]
  · have hnot := hlast n (by simp)
    simp [hn] at hnot

/-- What may follow need not. -/
lemma append_none (h : Fits parts ns) : Fits (parts ++ [.maybe c]) ns := by
  simpa using h.append (none (c := c))

/-- Children that may follow in any number need not follow. -/
lemma append_enough (h : Fits parts ns) : Fits (parts ++ [.many c]) ns := by
  simpa using h.append (enough (c := c) nil)

/-- Any number of children, each of the class. -/
lemma many (h : ∀ n ∈ ns, c.has n = true) : Fits [.many c] ns := by
  induction ns with
  | nil => exact .enough .nil
  | cons n ns ih =>
    rw [List.forall_mem_cons] at h
    exact .more h.1 (ih h.2)

/-- Any number of children of a class are all of that class. -/
lemma forall_mem (h : Fits [.many c] ns) : ∀ n ∈ ns, c.has n = true := by
  induction ns with
  | nil => simp
  | cons n ns ih =>
    cases h with
    | enough h => cases h
    | more hn h => exact List.forall_mem_cons.mpr ⟨hn, ih h⟩

/-- Any number of children of a class are that of a wider one. -/
lemma mono {d : NodeClass} (h : Fits [.many c] ns) (hcd : c.Within d) : Fits [.many d] ns :=
  many fun n hn => hcd n (h.forall_mem n hn)

end Fits

namespace NodeKind

/-- What a body is made of: its statements and the clauses behind them. -/
def bodyLayout : List Part :=
  [.one (.of statements), .many (.of rescueClause), .maybe (.of else_), .maybe (.of ensureClause)]

/-- What the children of a node of each kind are. -/
def layout : NodeKind → List Part
  | program | statements => [.many (.either .statement (.of error))]
  | error | integer | float | symbol | character | words | nil_ | true_ | false_ | self_
  | localVariable | localTarget | instanceVariable | classVariable | globalVariable | constant
  | blockLocal | redo_ | retry_ => []
  | string | regex => [.many (.of interpolation)]
  | array | arguments => [.many .argument]
  | hash => [.many (.either (.of pair) (.of doubleSplat))]
  | pair | binary | and_ | or_ => [.one .expression, .one .expression]
  | range => [.one .expression, .maybe .expression]
  | scopedConstant | doubleSplat | blockPass | parameter => [.maybe .expression]
  | call => [.maybe .expression, .maybe (.of arguments), .maybe (.of block)]
  | splat => [.maybe (.either .expression .target)]
  | block | lambda => .maybe (.of blockParameters) :: bodyLayout
  | blockParameters => [.many .parameter, .many (.of blockLocal)]
  | parameters => [.many .parameter]
  | assignment | opAssignment => [.one .target, .one .assigned]
  | multipleAssignment => [.one (.of multiTargets), .one .assigned]
  | multiTargets => [.many .eachTarget]
  | index => [.one .expression, .one (.of arguments)]
  | unary | not_ => [.one .expression]
  | defined => [.one .statement]
  | ternary => [.one .expression, .one .expression, .one .expression]
  | if_ => [.one .statement, .one (.of statements), .maybe (.either (.of if_) (.of else_))]
  | unless_ => [.one .statement, .one (.of statements), .maybe (.of else_)]
  | ifModifier | unlessModifier => [.one (.either .statement .argument), .one .statement]
  | whileModifier | untilModifier | rescueModifier => [.one .statement, .one .statement]
  | while_ | until_ => [.one .statement, .one (.of statements)]
  | for_ => [.one (.either .target (.of multiTargets)), .one .statement, .one (.of statements)]
  | case_ => [.maybe .statement, .many (.either (.of when_) (.of in_)), .maybe (.of else_)]
  | when_ => [.one (.of arguments), .one (.of statements)]
  | in_ =>
    [.one (.either .argument (.either (.of ifModifier) (.of unlessModifier))),
      .one (.of statements)]
  | else_ | ensureClause | interpolation | paren | beginBlock | endBlock => [.one (.of statements)]
  | rescueClause => [.one (.of arguments), .maybe .target, .one (.of statements)]
  | begin_ | moduleDef => bodyLayout
  | methodDef => .one (.of parameters) :: bodyLayout
  | classDef => .maybe .expression :: bodyLayout
  | singletonClass => .one .expression :: bodyLayout
  | return_ | break_ | next_ => [.maybe .argument]
  | yield_ => [.maybe (.of arguments)]
  | super_ => [.maybe (.of arguments), .maybe (.of block)]
  | alias_ => [.one .reference, .one .reference]
  | undef_ => [.many .reference]

end NodeKind

/-- Statements without clauses are a body. -/
lemma Fits.bareBody {n : Node} (hn : NodeClass.has (.of .statements) n = true) :
    Fits NodeKind.bodyLayout [n] := .one hn (.enough (.absent .none))

namespace Node

/-- A property of all nodes of a tree. -/
inductive Everywhere (P : Node → Prop) : Node → Prop
  | intro {n : Node} : P n → (∀ c ∈ n.children, Everywhere P c) → Everywhere P n

namespace Everywhere

variable {P : Node → Prop} {n : Node}

/-- What holds everywhere in a tree holds of its root. -/
lemma root (h : Everywhere P n) : P n := by
  cases h with
  | intro hn _ => exact hn

/-- What holds everywhere in a tree holds everywhere in its children. -/
lemma children (h : Everywhere P n) : ∀ c ∈ n.children, Everywhere P c := by
  cases h with
  | intro _ hchildren => exact hchildren

/-- What follows from it holds everywhere as well. -/
lemma mono {Q : Node → Prop} (h : Everywhere P n) (hPQ : ∀ m, P m → Q m) : Everywhere Q n := by
  induction h with
  | intro hn _ ih => exact .intro (hPQ _ hn) ih

/-- Two properties at once. -/
lemma and {Q : Node → Prop} (h : Everywhere P n) (h' : Everywhere Q n) :
    Everywhere (fun n => P n ∧ Q n) n := by
  induction h with
  | intro hn _ ih => exact .intro ⟨hn, h'.root⟩ fun c hc => ih c hc (h'.children c hc)

/-- What holds everywhere in a tree holds everywhere in each of its nodes. -/
lemma everywhere (h : Everywhere P n) : Everywhere (Everywhere P) n := by
  induction h with
  | intro hn hchildren ih => exact .intro (.intro hn hchildren) ih

/-- A tree by itself. -/
lemma only (hn : P n) (hchildren : ∀ c ∈ n.children, Everywhere P c) :
    ∀ m ∈ [n], Everywhere P m :=
  List.forall_mem_singleton.mpr (.intro hn hchildren)

/-- A leaf by itself. -/
lemma onlyLeaf (hn : P n) (hleaf : n.children = []) : ∀ m ∈ [n], Everywhere P m :=
  only hn (by simp [hleaf])

/-- What holds everywhere holds of every node in the outline. -/
lemma of_mem_outline (h : Everywhere P n) {depth : ℕ} {p : ℕ × Node} (hp : p ∈ n.outline depth) :
    P p.2 := by
  induction h generalizing depth with
  | intro hn _ ih =>
    rw [outline_eq, List.mem_cons, outlineEach_eq_flatMap, List.mem_flatMap] at hp
    rcases hp with rfl | ⟨c, hc, hp⟩
    · exact hn
    · exact ih c hc hp

end Everywhere

mutual

/-- What holds of all nodes that are listed holds everywhere. -/
lemma everywhere_of_outline {P : Node → Prop} {depth : ℕ} : (n : Node) →
    (∀ p ∈ n.outline depth, P p.2) → n.Everywhere P
  | ⟨kind, span, text, children⟩, h => by
    rw [outline, List.forall_mem_cons] at h
    exact .intro h.1 (everywhere_of_outlineEach children h.2)

/-- What holds of every node in the outline of some trees holds everywhere in them. -/
lemma everywhere_of_outlineEach {P : Node → Prop} {depth : ℕ} : (ns : List Node) →
    (∀ p ∈ outlineEach depth ns, P p.2) → ∀ c ∈ ns, c.Everywhere P
  | [], _ => by simp
  | n :: ns, h => by
    rw [outlineEach, List.forall_mem_append] at h
    exact List.forall_mem_cons.mpr
      ⟨everywhere_of_outline n h.1, everywhere_of_outlineEach ns h.2⟩

end

/-- The children of a node are what its kind has. -/
def LaidOut (n : Node) : Prop := Fits n.kind.layout n.children

/-- A leaf is of a kind that has no children. -/
lemma LaidOut.children_eq_nil {n : Node} (h : n.LaidOut) (hkind : n.kind.layout = []) :
    n.children = [] := by
  rw [LaidOut, hkind] at h
  exact h.eq_nil

end Node

/-! ### Which kinds hold which -/

/-- The class of the children that a part is made of. -/
def Part.nodeClass : Part → NodeClass
  | one c | maybe c | many c => c

/-- A child that fits belongs to one of the parts. -/
lemma Fits.exists_part {parts : List Part} {ns : List Node} {n : Node} (h : Fits parts ns)
    (hn : n ∈ ns) : ∃ part ∈ parts, part.nodeClass.has n = true := by
  induction h with
  | nil => simp at hn
  | one hm _ ih | present hm _ ih =>
    rcases List.mem_cons.mp hn with rfl | hn
    · exact ⟨_, List.mem_cons_self, hm⟩
    · obtain ⟨part, hpart, hhas⟩ := ih hn
      exact ⟨part, List.mem_cons_of_mem _ hpart, hhas⟩
  | absent _ ih | enough _ ih =>
    obtain ⟨part, hpart, hhas⟩ := ih hn
    exact ⟨part, List.mem_cons_of_mem _ hpart, hhas⟩
  | more hm _ ih =>
    rcases List.mem_cons.mp hn with rfl | hn
    · exact ⟨_, List.mem_cons_self, hm⟩
    · exact ih hn

namespace NodeKind

/-- Whether a node of one kind can have a child of another. -/
def holds (k child : NodeKind) : Bool := k.layout.any (·.nodeClass.takes child)

variable {k : NodeKind}

/-- No node has a program for a child. -/
lemma not_holds_program (k : NodeKind) : k.holds program = false := by
  cases k <;> rfl

/-- Variables of a block stand among its parameters. -/
lemma of_holds_blockLocal (h : k.holds blockLocal = true) : k = blockParameters := by
  revert h
  cases k <;> decide

/-- The parameters of a method stand in a method. -/
lemma of_holds_parameters (h : k.holds parameters = true) : k = methodDef := by
  revert h
  cases k <;> decide

/-- Parameters of a block stand in a block or in an anonymous function. -/
lemma of_holds_blockParameters (h : k.holds blockParameters = true) : k = block ∨ k = lambda := by
  revert h
  cases k <;> decide

/-- Parameters stand among parameters, or among what is in parentheses there. -/
lemma of_holds_parameter (h : k.holds parameter = true) :
    k = parameters ∨ k = blockParameters ∨ k = multiTargets := by
  revert h
  cases k <;> decide

/-- Nested targets stand among parameters, in other targets, or where they are assigned. -/
lemma of_holds_multiTargets (h : k.holds multiTargets = true) :
    (k = parameters ∨ k = blockParameters ∨ k = multiTargets) ∨
      k = multipleAssignment ∨ k = for_ := by
  revert h
  cases k <;> decide

end NodeKind

/-- A child is of a kind that the kind of its parent holds. -/
lemma Node.LaidOut.holds {n c : Node} (h : n.LaidOut) (hc : c ∈ n.children) :
    n.kind.holds c.kind = true := by
  obtain ⟨part, hpart, hhas⟩ := Fits.exists_part h hc
  exact List.any_eq_true.mpr ⟨part, hpart, NodeClass.takes_of_has hhas⟩

end RubyCheck
