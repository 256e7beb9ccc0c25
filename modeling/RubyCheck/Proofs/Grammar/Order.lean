import Mathlib.Data.List.Chain
import Mathlib.Order.Basic
import RubyCheck.Proofs.Grammar.Variable

/-!
# The order of nodes

Where the tokens of a text stand in order, so do the nodes that are made of them: in pre-order the
nodes begin one behind another, and none of them ends before it begins.  Nodes that are read between
two positions ascend from the first to the second (`Node.Ascends`), and so do the children of each.

Every node of a tree begins where a token does: the one that reading stood at when the node was begun.  A
node that is made of nothing begins at the token that it was looked for at.
-/

namespace RubyCheck

namespace Position

/-! ### Comparing positions -/

/-- Positions are compared by byte, then line, then column. -/
instance : LE Position where
  le p q := compare p q ≠ .gt

instance (p q : Position) : Decidable (p ≤ q) := inferInstanceAs (Decidable (_ ≠ _))

/-- Positions are compared by their bytes, then by their lines, then by their columns. -/
lemma compare_eq (p q : Position) : compare p q =
    (compare p.byte q.byte).then ((compare p.line q.line).then (compare p.column q.column)) := by
  have hthen : ∀ o : Ordering, o.then .eq = o := by decide
  obtain ⟨b, l, c⟩ := p
  obtain ⟨b', l', c'⟩ := q
  change (compare b b').then ((compare l l').then ((compare c c').then .eq)) = _
  rw [hthen]

/-- So a position is no later than another one if one of these decides so. -/
lemma le_iff (p q : Position) :
    p ≤ q ↔ p.byte < q.byte ∨
      p.byte = q.byte ∧ (p.line < q.line ∨ p.line = q.line ∧ p.column ≤ q.column) := by
  change compare p q ≠ .gt ↔ _
  rw [compare_eq]
  simp only [Ordering.then_eq_gt, Nat.compare_eq_gt, Nat.compare_eq_eq, ne_eq]
  omega

instance : Preorder Position where
  le_refl p := by
    rw [le_iff]
    omega
  le_trans p q r := by
    simp only [le_iff]
    omega

/-- The later of two positions is not in front of either. -/
lemma le_later (p q : Position) : q ≤ p.later q := by
  unfold later
  split
  · rename_i hgt
    rw [le_iff]
    rw [compare_eq] at hgt
    simp only [Ordering.then_eq_gt, Nat.compare_eq_gt, Nat.compare_eq_eq] at hgt
    omega
  · exact le_refl q

end Position

/-! ### Tokens in order -/

namespace Token

/-- A token that ends where another one begins or before. -/
def Before (t u : Token) : Prop := t.span.stop ≤ u.span.start

instance (t u : Token) : Decidable (t.Before u) := inferInstanceAs (Decidable (_ ≤ _))

/-- Tokens that stand one behind another, none of which ends before it begins. -/
def InOrder (tokens : List Token) : Prop :=
  (∀ t ∈ tokens, t.span.start ≤ t.span.stop) ∧ tokens.IsChain Before

instance (tokens : List Token) : Decidable (InOrder tokens) := inferInstanceAs (Decidable (_ ∧ _))

/-- Behind their first, tokens in order are in order. -/
lemma InOrder.tail {t : Token} {ts : List Token} (h : InOrder (t :: ts)) : InOrder ts :=
  ⟨(List.forall_mem_cons.mp h.1).2, h.2.tail⟩

end Token

namespace Tape

/-- An end of the text that is supplied stands in order. -/
lemma inOrder_supplied {tokens : List Token} (h : Token.InOrder tokens) :
    Token.InOrder (supplied tokens) := by
  cases tokens with
  | nil => exact ⟨List.forall_mem_singleton.mpr (le_refl _), .singleton _⟩
  | cons t ts =>
    change Token.InOrder ((t :: ts) ++ ending (ts.getLastD t))
    unfold ending
    split
    · rwa [List.append_nil]
    · refine ⟨List.forall_mem_append.mpr ⟨h.1, List.forall_mem_singleton.mpr (le_refl _)⟩, ?_⟩
      refine h.2.append (.singleton _) fun last hlast e he => ?_
      obtain rfl : .empty .eof (ts.getLastD t).span.stop = e := by simpa using he
      obtain rfl : ts.getLastD t = last := by simpa [List.getLast?_cons] using hlast
      exact le_refl _

/-- The tokens from the current one on are in order, and it does not begin before a position. -/
def From (p : Position) (tape : Tape) : Prop :=
  Token.InOrder (tape.current :: tape.ahead) ∧ p ≤ tape.current.span.start

/-- The tokens from the current one on stay in order, and do not begin earlier. -/
lemma onward_from (p : Position) : Onward (From p) := by
  rintro consumed t u us ⟨horder, hfrom⟩
  have ht := horder.1 t List.mem_cons_self
  have htu : t.Before u := (List.isChain_cons_cons.mp horder.2).1
  exact ⟨horder.tail, (hfrom.trans ht).trans htu⟩

/-- The current token does not end before it begins. -/
lemma From.current_le {p : Position} {tape : Tape} (h : From p tape) :
    tape.current.span.start ≤ tape.current.span.stop := h.1.1 _ List.mem_cons_self

/-- The tokens do not begin before the current one. -/
lemma From.here {p : Position} {tape : Tape} (h : From p tape) :
    From tape.current.span.start tape := ⟨h.1, le_refl _⟩

end Tape

/-! ### Nodes in order -/

namespace Node

/-- Nodes that begin one behind another between two positions, and so do those below each of them;
and each of them begins before it ends. -/
inductive Ascends : Position → List Node → Position → Prop
  | nil {p q : Position} : p ≤ q → Ascends p [] q
  | cons {p q r : Position} {n : Node} {ns : List Node} :
      p ≤ n.span.start → n.span.start ≤ n.span.stop → Ascends n.span.start n.children q →
      Ascends q ns r → Ascends p (n :: ns) r

namespace Ascends

variable {p q r : Position} {n : Node} {ns ms : List Node}

/-- The first position is no later than the second. -/
lemma le (h : Ascends p ns q) : p ≤ q := by
  induction h with
  | nil h => exact h
  | cons hp _ _ _ ih ih' => exact (hp.trans ih).trans ih'

/-- Nodes that ascend from a position ascend from every earlier one. -/
lemma from_le (h : Ascends q ns r) (hp : p ≤ q) : Ascends p ns r := by
  cases h with
  | nil h => exact .nil (hp.trans h)
  | cons hq hspan hchildren hrest => exact .cons (hp.trans hq) hspan hchildren hrest

/-- Nodes that ascend to a position ascend to every later one. -/
lemma le_to (h : Ascends p ns q) (hr : q ≤ r) : Ascends p ns r := by
  induction h with
  | nil h => exact .nil (h.trans hr)
  | cons hp hspan hchildren _ _ ih => exact .cons hp hspan hchildren (ih hr)

/-- Nodes that ascend from where others have ascended to ascend together with them. -/
lemma append (h : Ascends p ns q) (h' : Ascends q ms r) : Ascends p (ns ++ ms) r := by
  induction h with
  | nil h => exact h'.from_le h
  | cons hp hspan hchildren _ _ ih => exact .cons hp hspan hchildren (ih h')

/-- One node between two positions. -/
lemma one (hp : p ≤ n.span.start) (hspan : n.span.start ≤ n.span.stop)
    (h : Ascends n.span.start n.children q) : Ascends p [n] q :=
  .cons hp hspan h (.nil (le_refl q))

/-- A leaf between two positions ascends. -/
lemma leaf (hp : p ≤ n.span.start) (hspan : n.span.start ≤ n.span.stop) (hq : n.span.start ≤ q)
    (hleaf : n.children = []) : Ascends p [n] q := by
  refine one hp hspan ?_
  rw [hleaf]
  exact .nil hq

/-- A node that ascends begins behind the first position, and its children ascend from there. -/
lemma of_one (h : Ascends p [n] q) :
    p ≤ n.span.start ∧ n.span.start ≤ n.span.stop ∧ Ascends n.span.start n.children q := by
  cases h with
  | cons hp hspan hchildren hrest => exact ⟨hp, hspan, hchildren.le_to hrest.le⟩

/-- None of the nodes begins before the first position. -/
lemma start_le (h : Ascends p ns q) : ∀ n ∈ ns, p ≤ n.span.start := by
  induction h with
  | nil _ => simp
  | cons hp _ hchildren _ _ ih =>
    refine List.forall_mem_cons.mpr ⟨hp, fun m hm => ?_⟩
    exact (hp.trans hchildren.le).trans (ih m hm)

/-- None of the nodes ends before it begins. -/
lemma each_start_le_stop (h : Ascends p ns q) : ∀ n ∈ ns, n.span.start ≤ n.span.stop := by
  induction h with
  | nil _ => simp
  | cons _ hspan _ _ _ ih => exact List.forall_mem_cons.mpr ⟨hspan, ih⟩

/-- Whatever is listed of such nodes begins between the two positions. -/
lemma between (h : Ascends p ns q) {depth : ℕ} :
    ∀ m ∈ outlineEach depth ns, p ≤ m.2.span.start ∧ m.2.span.start ≤ q := by
  induction h generalizing depth with
  | nil _ => simp [outlineEach]
  | cons hp _ hchildren hrest ih ih' =>
    rw [outlineEach, outline_eq, List.cons_append]
    refine List.forall_mem_cons.mpr ⟨⟨hp, hchildren.le.trans hrest.le⟩, ?_⟩
    refine List.forall_mem_append.mpr ⟨fun m hm => ?_, fun m hm => ?_⟩
    · exact ⟨hp.trans (ih m hm).1, (ih m hm).2.trans hrest.le⟩
    · exact ⟨(hp.trans hchildren.le).trans (ih' m hm).1, (ih' m hm).2⟩

/-- In pre-order the nodes begin one behind another. -/
theorem pairwise (h : Ascends p ns q) {depth : ℕ} :
    ((outlineEach depth ns).map fun m => m.2.span.start).Pairwise (· ≤ ·) := by
  induction h generalizing depth with
  | nil _ => simp [outlineEach]
  | cons hp _ hchildren hrest ih ih' =>
    rw [outlineEach, outline_eq, List.cons_append, List.map_cons, List.map_append,
      List.pairwise_cons, List.pairwise_append]
    refine ⟨fun x hx => ?_, ih, ih', fun x hx y hy => ?_⟩
    · rcases List.mem_append.mp hx with hx | hx
      · obtain ⟨m, hm, rfl⟩ := List.mem_map.mp hx
        exact (hchildren.between m hm).1
      · obtain ⟨m, hm, rfl⟩ := List.mem_map.mp hx
        exact hchildren.le.trans (hrest.between m hm).1
    · obtain ⟨m, hm, rfl⟩ := List.mem_map.mp hx
      obtain ⟨m', hm', rfl⟩ := List.mem_map.mp hy
      exact (hchildren.between m hm).2.trans (hrest.between m' hm').1

/-- No node ends before it begins. -/
theorem start_le_stop (h : Ascends p ns q) {depth : ℕ} :
    ∀ m ∈ outlineEach depth ns, m.2.span.start ≤ m.2.span.stop := by
  induction h generalizing depth with
  | nil _ => simp [outlineEach]
  | cons _ hspan _ _ ih ih' =>
    rw [outlineEach, outline_eq, List.cons_append]
    exact List.forall_mem_cons.mpr ⟨hspan, List.forall_mem_append.mpr ⟨ih, ih'⟩⟩

end Ascends

end Node

/-! ### Reading in order -/

namespace Grammar

variable {s s' : State} {p q : Position} {ns : List Node}

/-- Behind what was read, the tokens do not begin before those it was read from. -/
lemma Passes.from_start (h : Passes s s') (hs : s.tape.From p) : s'.tape.From s.start :=
  h.onward (Tape.onward_from _) hs.here

/-- Consuming a token does not lead back. -/
lemma State.start_le_advanced (hmore : s.tape.Consumable) (hs : s.tape.From p) :
    s.start ≤ s.advanced.start :=
  ((Passes.steps hmore.steps).from_start hs).2

/-- A span from a position does not end before it. -/
lemma State.le_spanFrom (s : State) (p : Position) : p ≤ (s.spanFrom p).stop :=
  Position.le_later _ _

/-- Declaring a name moves nothing. -/
lemma State.start_declare (s : State) (name : String) : (s.declare name).start = s.start := by
  rw [State.start, State.tape_declare, State.start]

/-- What was given up begins at its first token. -/
lemma State.span_errorNode (s : State) (first : Token) :
    (s.errorNode first).span.start = first.span.start ∧
      (s.errorNode first).span.start ≤ (s.errorNode first).span.stop := by
  unfold State.errorNode
  split
  · exact ⟨rfl, le_refl _⟩
  · exact ⟨rfl, s.le_spanFrom _⟩

/-- Statements ascend by themselves. -/
lemma ascends_statements (h : Node.Ascends p ns q) :
    Node.Ascends p [.inner .statements (spanOfEach p ns) ns] q := by
  cases ns with
  | nil => exact .leaf (le_refl p) (le_refl p) h.le rfl
  | cons n ns =>
    obtain ⟨last, hlast⟩ : ∃ last, (n :: ns).getLast? = some last :=
      ⟨_, List.getLast?_eq_some_getLast (List.cons_ne_nil n ns)⟩
    have hspan : spanOfEach p (n :: ns) = ⟨n.span.start, last.span.stop⟩ := by
      rw [spanOfEach, hlast]
      rfl
    cases h with
    | cons hp hn hchildren hrest =>
      have hnodes : Node.Ascends n.span.start (n :: ns) q := .cons (le_refl _) hn hchildren hrest
      rw [hspan]
      refine .one hp ?_ hnodes
      have hmem : last ∈ n :: ns := List.mem_of_getLast? hlast
      exact (hnodes.start_le last hmem).trans (hnodes.each_start_le_stop last hmem)

/-- What is read ascends from where reading begins to where it ends. -/
theorem Reads.ascends (h : Reads s ns s') (hs : s.tape.From p) :
    Node.Ascends s.start ns s'.start := by
  induction h generalizing p with
  | steps hsteps => exact .nil ((Passes.steps hsteps).from_start hs).2
  | report s f => exact .nil ((Passes.report s f).from_start hs).2
  | abandon f hpasses => exact .nil ((hpasses.trans (.report _ f)).from_start hs).2
  | append h _ ih ih' => exact (ih hs).append (ih' (h.passes.from_start hs))
  | @within s s' _ c _ ih =>
    have hinside := ih (p := p) (by rwa [c.tape_enter])
    rwa [State.start, State.start, c.tape_enter, ← c.tape_leave s s'] at hinside
  | @error s s' h _ ih =>
    obtain ⟨hstart, hspan⟩ := s'.span_errorNode s.tape.current
    refine .leaf (hstart ▸ le_refl _) hspan ?_ rfl
    rw [hstart]
    exact (h.passes.from_start hs).2
  | leaf k text hmore _ _ _ =>
    exact .leaf (le_refl _) hs.current_le (State.start_le_advanced hmore hs) rfl
  | use hmore _ _ =>
    exact .leaf (le_refl _) hs.current_le (State.start_le_advanced hmore hs) rfl
  | bareCall hmore _ _ =>
    exact .leaf (le_refl _) (State.le_spanFrom _ _) (State.start_le_advanced hmore hs) rfl
  | shorthand hmore _ _ =>
    refine .cons (le_refl _) hs.current_le (.nil (le_refl _)) ?_
    exact .leaf (le_refl _) hs.current_le (State.start_le_advanced hmore hs) rfl
  | @parameter s s₁ s₂ name ns hbefore hmore _ _ _ ih ih' =>
    have hat := hbefore.passes.from_start hs
    have hbehind : Tape.From s.start (s₁.advanced.declare name).tape := by
      rw [State.tape_declare]
      exact (Passes.steps hmore.steps).onward (Tape.onward_from _) hat
    exact .one (le_refl _) (State.le_spanFrom _ _) ((ih' hbehind).from_le hbehind.2)
  | @blockLocal s hmore _ =>
    refine .leaf (le_refl _) hs.current_le ?_ rfl
    rw [State.start_declare]
    exact State.start_le_advanced hmore hs
  | retarget _ _ ih =>
    obtain ⟨hn, hspan, hchildren⟩ := (ih hs).of_one
    exact .one hn hspan hchildren
  | target _ _ _ ih =>
    obtain ⟨hn, hspan, hchildren⟩ := (ih hs).of_one
    rw [State.start_declare]
    exact .one hn hspan hchildren
  | attach h _ _ _ ih ih' =>
    obtain ⟨hn, hspan, hchildren⟩ := (ih hs).of_one
    have hblock := ih' (h.passes.from_start hs)
    obtain ⟨hstart, hstop, -⟩ := hblock.of_one
    exact .one hn ((hchildren.le.trans hstart).trans hstop) (hchildren.append hblock)
  | close h hmore _ ih =>
    obtain ⟨hn, hspan, hchildren⟩ := (ih hs).of_one
    have hend := h.passes.from_start hs
    refine .one hn (hchildren.le.trans hend.current_le) ?_
    exact hchildren.le_to (State.start_le_advanced hmore hend)
  | statements _ _ ih => exact ascends_statements (ih hs)
  | node _ _ _ _ _ ih _ => exact .one (le_refl _) (State.le_spanFrom _ _) (ih hs)
  | @scope s s₁ s₂ s₃ k text outer inner closed houter hinner _ _ _ _ _ ih ih' ih'' _ =>
    have hinside : (s₁.enterScope closed).tape.From s.start := houter.passes.from_start hs
    have hbehind : s₂.leaveScope.tape.From s₁.start := hinner.passes.from_start hinside
    have hchildren := (ih hs).append (ih' hinside)
    exact .one (le_refl _) (State.le_spanFrom _ _) (hchildren.le_to (ih'' hbehind).le)

end Grammar

/-! ### Where nodes begin -/

/-- A node that begins where one of some tokens does. -/
def Node.BeginsAt (tokens : List Token) (n : Node) : Prop :=
  ∃ t ∈ tokens, n.span.start = t.span.start

namespace Grammar

variable {tokens : List Token} {s s' : State} {ns : List Node}

/-- The span of several nodes begins where the first of them does. -/
lemma start_spanOfEach (start : Position) (n : Node) (ns : List Node) :
    (spanOfEach start (n :: ns)).start = n.span.start := by
  obtain ⟨last, hlast⟩ : ∃ last, (n :: ns).getLast? = some last :=
    ⟨_, List.getLast?_eq_some_getLast (List.cons_ne_nil n ns)⟩
  rw [spanOfEach, hlast]
  rfl

/-- Whatever is read begins where a token does, and so does everything in it. -/
theorem Reads.beginsAt (h : Reads s ns s') (hs : s.tape.On tokens) :
    ∀ n ∈ ns, n.Everywhere (Node.BeginsAt tokens) := by
  induction h with
  | steps _ | report _ _ | abandon _ _ => simp
  | append h _ ih ih' =>
    exact List.forall_mem_append.mpr ⟨ih hs, ih' (h.passes.onward (Tape.onward_on _) hs)⟩
  | within c _ ih => exact ih (by rwa [c.tape_enter])
  | @error s s' _ _ _ =>
    refine .onlyLeaf ⟨_, hs.current_mem, ?_⟩ rfl
    exact (s'.span_errorNode s.tape.current).1
  | leaf _ _ _ _ _ _ | use _ _ _ | bareCall _ _ _ | blockLocal _ _ =>
    exact .onlyLeaf ⟨_, hs.current_mem, rfl⟩ rfl
  | shorthand _ _ _ =>
    refine List.forall_mem_cons.mpr ⟨.intro ⟨_, hs.current_mem, rfl⟩ ?_, ?_⟩
    · simp [Node.leaf]
    · exact .onlyLeaf ⟨_, hs.current_mem, rfl⟩ rfl
  | parameter hbefore hmore _ _ _ _ ih =>
    refine .only ⟨_, hs.current_mem, rfl⟩ (ih ?_)
    rw [State.tape_declare]
    exact (hbefore.passes.trans (.steps hmore.steps)).onward (Tape.onward_on _) hs
  | retarget _ _ ih | target _ _ _ ih =>
    have hnode := ih hs _ (List.mem_singleton_self _)
    exact .only hnode.root hnode.children
  | attach h _ _ _ ih ih' =>
    have hcall := ih hs _ (List.mem_singleton_self _)
    have hblock := ih' (h.passes.onward (Tape.onward_on _) hs)
    exact .only hcall.root (List.forall_mem_append.mpr ⟨hcall.children, hblock⟩)
  | close _ _ _ ih =>
    have hnode := ih hs _ (List.mem_singleton_self _)
    exact .only hnode.root hnode.children
  | @statements s s' ns _ _ ih =>
    refine .only ?_ (ih hs)
    cases ns with
    | nil => exact ⟨_, hs.current_mem, rfl⟩
    | cons n ns =>
      obtain ⟨t, ht, hstart⟩ := (ih hs n List.mem_cons_self).root
      exact ⟨t, ht, (start_spanOfEach s.start n ns).trans hstart⟩
  | node _ _ _ _ _ ih _ => exact .only ⟨_, hs.current_mem, rfl⟩ (ih hs)
  | scope houter _ _ _ _ _ _ ih ih' _ _ =>
    have hinside := houter.passes.onward (Tape.onward_on _) hs
    exact .only ⟨_, hs.current_mem, rfl⟩ (List.forall_mem_append.mpr ⟨ih hs, ih' hinside⟩)

end Grammar

end RubyCheck
