import RubyCheck.Fault
import RubyCheck.Tree.Kind

/-!
# Syntax trees

A node has a kind, a span, perhaps a text, and its children in source order. The listing of a tree in
pre-order is computed over a stack of subtrees still to be visited, so that a deep tree needs no deep
recursion; `listing_eq` says that it is the recursive listing.
-/

namespace RubyCheck

/-- A node of the syntax tree, with everything below it. -/
structure Node where
  kind : NodeKind
  span : Span
  /-- A name, an operator or the text of a literal. -/
  text : Option String
  children : List Node
deriving Inhabited, Repr

namespace Node

/-- A node without text. -/
def inner (kind : NodeKind) (span : Span) (children : List Node) : Node :=
  ⟨kind, span, none, children⟩

/-- A node without children. -/
def leaf (kind : NodeKind) (span : Span) (text : String) : Node :=
  ⟨kind, span, some text, []⟩

/-- The same node with a text. -/
def withText (n : Node) (text : String) : Node := { n with text := some text }

/-- The text of a node, or the empty text. -/
def name (n : Node) : String := n.text.getD ""

/-! ### Pre-order -/

mutual

/-- The nodes of a tree with their depth below it, every node before its children. -/
def outline (depth : Nat) : Node → List (Nat × Node)
  | ⟨kind, span, text, children⟩ =>
    (depth, ⟨kind, span, text, children⟩) :: outlineEach (depth + 1) children

/-- The outlines of several trees, one after another. -/
def outlineEach (depth : Nat) : List Node → List (Nat × Node)
  | [] => []
  | n :: ns => outline depth n ++ outlineEach depth ns

end

mutual

/-- The number of nodes of a tree. -/
def size : Node → Nat
  | ⟨_, _, _, children⟩ => sizeEach children + 1

/-- The number of nodes of several trees. -/
def sizeEach : List Node → Nat
  | [] => 0
  | n :: ns => size n + sizeEach ns

end

theorem size_eq (n : Node) : n.size = sizeEach n.children + 1 := by
  cases n; rfl

theorem outline_eq (depth : Nat) (n : Node) :
    n.outline depth = (depth, n) :: outlineEach (depth + 1) n.children := by
  cases n; rfl

/-- The number of nodes on a stack of trees. -/
def sizeOfStack (stack : List (Nat × Node)) : Nat :=
  sizeEach (stack.map (·.2))

theorem sizeEach_append (ns ms : List Node) :
    sizeEach (ns ++ ms) = sizeEach ns + sizeEach ms := by
  induction ns with
  | nil => simp [sizeEach]
  | cons n ns ih => simp [sizeEach, ih, Nat.add_assoc]

/-- Trees that all stand at one depth. -/
def placedAt (depth : Nat) (ns : List Node) : List (Nat × Node) := ns.map fun n => (depth, n)

/-- Lists the trees on a stack in pre-order, behind what is listed already, last first. -/
def listStack (seen : List (Nat × Node)) : List (Nat × Node) → List (Nat × Node)
  | [] => seen
  | (depth, n) :: stack =>
    listStack ((depth, n) :: seen) (placedAt (depth + 1) n.children ++ stack)
termination_by stack => sizeOfStack stack
decreasing_by
  simp [sizeOfStack, sizeEach, sizeEach_append, placedAt, Function.comp_def, size_eq]

/-- The nodes of a tree in pre-order, each with its depth. -/
def listing (n : Node) : List (Nat × Node) := (listStack [] [(0, n)]).reverse

theorem outlineEach_eq_flatMap (depth : Nat) (ns : List Node) :
    outlineEach depth ns = ns.flatMap (outline depth) := by
  induction ns with
  | nil => rfl
  | cons n ns ih => simp [outlineEach, ih]

theorem listStack_eq (seen stack : List (Nat × Node)) :
    listStack seen stack = (stack.flatMap fun p => p.2.outline p.1).reverse ++ seen := by
  fun_induction listStack seen stack with
  | case1 seen => simp
  | case2 seen depth n stack ih =>
    rw [ih, List.flatMap_cons, outline_eq, outlineEach_eq_flatMap]
    simp [placedAt, List.flatMap_map]

/-- The stack lists exactly what recursion over the tree lists. -/
theorem listing_eq (n : Node) : n.listing = n.outline 0 := by
  simp [listing, listStack_eq]

end Node

/-- What the tokens of a text were put together to. -/
structure SyntaxTree where
  /-- The node of the whole program. -/
  root : Node
  /-- What is wrong with the text. -/
  faults : List Fault
deriving Inhabited, Repr

namespace SyntaxTree

/-- Whether nothing is wrong with the text. -/
def isOk (t : SyntaxTree) : Bool := t.faults.isEmpty

/-- The spans of the regions that were given up, in pre-order. -/
def errorSpans (t : SyntaxTree) : List Span :=
  (t.root.listing.filter fun p => p.2.kind == .error).map fun p => p.2.span

end SyntaxTree

end RubyCheck
