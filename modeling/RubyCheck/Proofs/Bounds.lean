import RubyCheck.Proofs.Arena.Program
import RubyCheck.Proofs.Nesting
import RubyCheck.Proofs.Scanner.Slices
import RubyCheck.Proofs.SyntaxTree
import RubyCheck.Proofs.Tree.BoundedLiteral
import RubyCheck.Scope.Stack

/-!
# Nothing is out of range

From a text to its findings, whatever is looked up exists: the slices that the scanner takes, the tokens
and nodes that reading names by index and by id, the frames that the walk over the tree looks into.  And
no count that is lowered was zero, no value that is negated the least one (`nothing_outOfRange`).
-/

namespace RubyCheck

/-! ### Frames -/

/-- Frames are seen at the indices at which they are looked up. -/
lemma ScopeStack.seenBelow?_reverse (fs outer : List Frame) :
    seenBelow? ((outer ++ fs).reverse) fs.length = some (visible fs) := by
  induction fs generalizing outer with
  | nil => rfl
  | cons f fs ih =>
    have hat : (outer ++ f :: fs).reverse[fs.length]? = some f := by
      rw [List.reverse_append, List.reverse_cons, List.append_assoc,
        List.getElem?_append_right (by simp)]
      simp
    have hbelow := ih (outer ++ [f])
    rw [List.append_assoc, List.singleton_append] at hbelow
    rw [List.length_cons, seenBelow?, hat, hbelow, visible]
    simp only [Option.bind_eq_bind, Option.bind_some]
    split <;> rfl

/-- Every stack has the frames that are looked up in it. -/
lemma ScopeStack.seen?_eq (s : ScopeStack) : s.seen? = some (visible s.frames) :=
  seenBelow?_reverse s.frames []

/-! ### Literals -/

/-- A text writes no sign in its integers. -/
lemma SyntaxTree.unsigned_ofText (limits : Limits) (source : List Char) :
    (ofText limits source).root.Everywhere Node.Unsigned := by
  obtain ⟨ts, p, hend, -⟩ := TokenStream.exists_endToken source
  refine (integral_ofTokens limits (TokenStream.ofText source).tokens).mono ?_
  rw [Tape.supplied_eq hend rfl]
  intro n hintegral hkind text htext c hc
  obtain ⟨t, ht, hnumber, hsame⟩ := hintegral hkind
  rw [hsame] at htext
  obtain rfl := Option.some.inj htext
  exact (spelled_of_ofText source t ht).2 hnumber c hc

/-- Every literal of a text has a value that is in range, if it has one. -/
lemma SyntaxTree.boundedLiteral?_ofText (limits : Limits) (source : List Char) {depth : ℕ} {n : Node}
    (hn : (depth, n) ∈ (ofText limits source).root.listing) :
    n.boundedLiteral? = some n.literal? := by
  rw [Node.listing_eq] at hn
  exact Node.boundedLiteral?_eq ((unsigned_ofText limits source).everywhere.of_mem_outline hn)

/-! ### Texts -/

/-- Whatever the text and the limits, nothing is out of range: in no state that the scanner passes
through, neither around the bodies of heredocs nor inside of them; in no reading of any tokens, however
wide ids are and however deep reading goes, so that all nodes of the arena name nodes of it, and where
ids are wide enough the arena shows the tree of the tokens; for no literal of the text; and in no stack of
frames. -/
theorem nothing_outOfRange (limits : Limits) (source : List Char) :
    (∀ s, Scanner.Visited source s → s.InRange source) ∧
      (∀ greatest tokens levels,
        match Arena.read greatest limits tokens levels with
        | .ok root m => m.Finished root
        | .error e _ => e ≠ .outOfRange) ∧
      (∀ tokens, ∃ root m,
        Arena.read none limits tokens (Grammar.levelsFor tokens) = .ok root m ∧
          Arena.Shows m.nodes 0 m.nodes.size root (SyntaxTree.ofTokens limits tokens).root ∧
          m.faults.toList = (SyntaxTree.ofTokens limits tokens).faults) ∧
      (∀ depth n, (depth, n) ∈ (SyntaxTree.ofText limits source).root.listing →
        n.boundedLiteral? = some n.literal?) ∧
      ∀ stack : ScopeStack, stack.seen? = some (ScopeStack.visible stack.frames) :=
  ⟨fun _ => Scanner.inRange_of_visited,
    fun greatest tokens levels => Arena.read_inRange greatest limits tokens levels,
    Arena.read_shows limits,
    fun _ _ => SyntaxTree.boundedLiteral?_ofText limits source,
    ScopeStack.seen?_eq⟩

end RubyCheck
