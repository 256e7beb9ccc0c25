import Mathlib.Tactic.Common
import RubyCheck.Limits
import RubyCheck.Tree.Basic

/-!
# Paths through a tree

A path leads from a node over children down to a leaf.  The constructs that nest in themselves are
prefixes and brackets; the operand of a negation or a sign, the statements in parentheses and the
elements of an array or a hash stand one level deeper than the construct, unless they are spread.
`Node.levels` counts these levels along a path, and `Node.Shallow` bounds it for all paths of a
node.  What the levels miss of the constructs that nest is what stands in a `defined?`, among
targets, or is spread (`Node.countP_nests_le`).
-/

namespace RubyCheck

namespace NodeKind

/-- Whether a node of this kind is a prefix or a bracket that can stand directly inside itself. -/
def nests : NodeKind → Bool
  | paren | array | hash | not_ | unary | defined | multiTargets => true
  | _ => false

/-- Whether what stands inside a node of this kind is read one level deeper. -/
def deepens : NodeKind → Bool
  | paren | array | hash | not_ | unary => true
  | _ => false

/-- Whether a node of this kind spreads a value among others. -/
def spreads : NodeKind → Bool
  | splat | doubleSplat | blockPass => true
  | _ => false

/-- Whether what stands inside a node of this kind is read without going deeper, although the
node, or what it stands in, nests. -/
def escapes : NodeKind → Bool
  | defined | multiTargets | splat | doubleSplat | blockPass => true
  | _ => false

end NodeKind

namespace Node

/-- A path from a node down to a leaf. -/
inductive Path : Node → List Node → Prop
  | leaf {n : Node} : n.children = [] → Path n [n]
  | step {n m : Node} {path : List Node} : m ∈ n.children → Path m path → Path n (n :: path)

mutual

/-- The path over the first of all children. -/
def leftmost : Node → List Node
  | ⟨kind, span, text, children⟩ => ⟨kind, span, text, children⟩ :: leftmostOf children

/-- The path from the first of several nodes, if there is one. -/
def leftmostOf : List Node → List Node
  | [] => []
  | n :: _ => leftmost n

end

mutual

lemma path_leftmost : ∀ n : Node, n.Path n.leftmost
  | ⟨_, _, _, children⟩ => path_cons_leftmostOf children rfl

lemma path_cons_leftmostOf {n : Node} :
    ∀ ns : List Node, n.children = ns → n.Path (n :: leftmostOf ns)
  | [], h => .leaf h
  | m :: _, h => .step (h ▸ List.mem_cons_self) (path_leftmost m)

end

/-- How many levels deeper a path leads: one for each node whose inside is read one level deeper,
unless what stands next on the path is spread. -/
def levels : List Node → ℕ
  | [] => 0
  | n :: path =>
    (if n.kind.deepens && !path.head?.any (·.kind.spreads) then 1 else 0) + levels path

variable {k : ℕ} {n n' m : Node} {path : List Node}

/-- What one node adds to the levels of a path, and to what escapes them, if what stands next on the
path is spread or not. -/
lemma nests_le (k : NodeKind) (spread : Bool) :
    (if k.nests then 1 else 0) + (if k.spreads then 1 else 0) ≤
      (if k.deepens && !spread then 1 else 0) + (if spread then 1 else 0) +
        (if k.escapes then 1 else 0) := by
  cases k <;> cases spread <;> decide

/-- Every construct on a path that nests is counted by the levels, or stands with one that
escapes. -/
lemma countP_nests_le (path : List Node) :
    path.countP (·.kind.nests) ≤ levels path + path.countP (·.kind.escapes) := by
  -- A construct in front of what is spread escapes with it.
  suffices path.countP (·.kind.nests) + (if path.head?.any (·.kind.spreads) then 1 else 0) ≤
      levels path + path.countP (·.kind.escapes) by omega
  induction path with
  | nil => simp [levels]
  | cons n path ih =>
    have hnode := nests_le n.kind (path.head?.any (·.kind.spreads))
    rw [levels, List.countP_cons, List.countP_cons, List.head?_cons, Option.any_some]
    omega

lemma levels_cons_of_not_deepens (h : n.kind.deepens = false) :
    levels (n :: path) = levels path := by
  simp [levels, h]

lemma levels_cons_le (n : Node) (path : List Node) : levels (n :: path) ≤ levels path + 1 := by
  rw [levels]
  split
  · omega
  · omega

/-- What is spread is read where the construct around it stands. -/
lemma levels_cons_of_spreads (h : m.kind.spreads = true) :
    levels (n :: m :: path) = levels (m :: path) := by
  rw [levels.eq_2 n (m :: path)]
  simp [h]

/-- No path from a node leads deeper than a number of levels. -/
def Shallow (k : ℕ) (n : Node) : Prop := ∀ path, n.Path path → levels path ≤ k

lemma Path.head (h : n.Path path) : ∃ rest, path = n :: rest := by
  cases h with
  | leaf _ => exact ⟨[], rfl⟩
  | step _ _ => exact ⟨_, rfl⟩

namespace Shallow

lemma mono {k' : ℕ} (h : n.Shallow k) (hk : k ≤ k') : n.Shallow k' :=
  fun path hpath => Nat.le_trans (h path hpath) hk

/-- A node whose children are read where it stands is as shallow as they are. -/
lemma of_children (hkind : n.kind.deepens = false) (h : ∀ m ∈ n.children, m.Shallow k) :
    n.Shallow k := by
  intro path hpath
  cases hpath with
  | leaf _ =>
    rw [levels_cons_of_not_deepens hkind]
    exact Nat.zero_le k
  | step hm hpath =>
    rw [levels_cons_of_not_deepens hkind]
    exact h _ hm _ hpath

/-- Any other node leads one level deeper, unless its children are spread. -/
lemma deepen (h : ∀ m ∈ n.children, m.Shallow (k + 1) ∧ (m.kind.spreads = false → m.Shallow k)) :
    n.Shallow (k + 1) := by
  intro path hpath
  cases hpath with
  | leaf _ => exact Nat.le_trans (levels_cons_le n []) (Nat.succ_le_succ (Nat.zero_le k))
  | @step _ m path hm hpath =>
    obtain ⟨rest, rfl⟩ := hpath.head
    cases hspread : m.kind.spreads with
    | true =>
      rw [levels_cons_of_spreads hspread]
      exact (h m hm).1 _ hpath
    | false =>
      exact Nat.le_trans (levels_cons_le n _) (Nat.succ_le_succ ((h m hm).2 hspread _ hpath))

lemma children (h : n.Shallow k) : ∀ m ∈ n.children, m.Shallow k := by
  intro m hm path hpath
  have hle := h _ (.step hm hpath)
  rw [levels] at hle
  omega

/-- Only the kind and the children of a node matter. -/
lemma congr (h : n.Shallow k) (hkind : n'.kind.deepens = n.kind.deepens)
    (hchildren : n'.children = n.children) : n'.Shallow k := by
  intro path hpath
  cases hpath with
  | leaf hnone =>
    have hle := h _ (.leaf (hchildren ▸ hnone))
    rwa [levels, ← hkind, ← levels] at hle
  | step hm hpath =>
    have hle := h _ (.step (hchildren ▸ hm) hpath)
    rwa [levels, ← hkind, ← levels] at hle

end Shallow

end Node

end RubyCheck
