import Mathlib.Data.List.Nodup
import RubyCheck.Diagnostic
import RubyCheck.Proofs.Grammar.Apart

/-!
# Nodes that begin at different places

A finding of one kind may point at a node of some sort only (`Node.warning?`), and in a text whose
tokens stand in order no two nodes of one sort begin at the same byte (`Reads.nodup_marks`): nodes
that are read one behind another were read from different tokens, and a node of such a sort that
has others below it begins with a token in front of them.
-/

namespace RubyCheck

namespace Node

variable {p q r c : ℕ} {n : Node} {ns ms : List Node}

/-- The kind of what may be found at a node. -/
def warning? (n : Node) : Option DiagnosticKind :=
  if n.literal?.isSome then some .duplicateValue
  else
    match n.kind with
    | .localVariable => some .voidValue
    | .localTarget | .blockLocal => some .unusedVariable
    | .parameter => if n.name == "" || n.name == "..." then none else some .shadowedVariable
    | .endBlock => some .endInMethod
    | _ => none

/-- What may be found at a node, and where. -/
def mark? (n : Node) : Option (DiagnosticKind × ℕ) := n.warning?.map (·, n.span.start.byte)

/-- What may be found in some trees, and where. -/
def marks (ns : List Node) : List (DiagnosticKind × ℕ) := (parts ns).filterMap mark?

lemma mark?_eq_some_iff {x : DiagnosticKind × ℕ} :
    n.mark? = some x ↔ n.warning? = some x.1 ∧ n.span.start.byte = x.2 := by
  rw [mark?, Option.map_eq_some_iff]
  constructor
  · rintro ⟨kind, hkind, rfl⟩
    exact ⟨hkind, rfl⟩
  · rintro ⟨hkind, hbyte⟩
    exact ⟨x.1, hkind, by rw [hbyte]⟩

/-- Something may be found at nodes only that are pointed at. -/
lemma isPointedAt_of_warning? {kind : DiagnosticKind} (h : n.warning? = some kind) :
    n.isPointedAt = true := by
  unfold warning? at h
  split at h
  · rename_i hliteral
    simp [isPointedAt, hliteral]
  · split at h
    · rename_i hkind
      simp [isPointedAt, hkind]
    · rename_i hkind
      simp [isPointedAt, declares, hkind]
    · rename_i hkind
      simp [isPointedAt, declares, hkind]
    · rename_i hkind
      split at h
      · cases h
      · rename_i hnamed
        simp only [Bool.or_eq_true, beq_iff_eq, not_or] at hnamed
        simp [isPointedAt, declares, hkind, hnamed]
    · rename_i hkind
      simp [isPointedAt, hkind]
    · cases h

@[simp] lemma marks_nil : marks [] = [] := rfl

lemma marks_append (ns ms : List Node) : marks (ns ++ ms) = marks ns ++ marks ms := by
  rw [marks, parts_append, List.filterMap_append, marks, marks]

lemma marks_one (n : Node) : marks [n] = n.mark?.toList ++ marks n.children := by
  rw [marks, parts_one, List.filterMap_cons, marks]
  cases n.mark? with
  | none => rfl
  | some x => rfl

lemma marks_cons (n : Node) (ns : List Node) : marks (n :: ns) = marks [n] ++ marks ns :=
  marks_append [n] ns

/-- What may be found stands at nodes that are pointed at. -/
lemma exists_of_mem_marks {x : DiagnosticKind × ℕ} (h : x ∈ marks ns) :
    ∃ n ∈ parts ns, n.isHeld = true ∧ n.span.start.byte = x.2 := by
  obtain ⟨n, hn, hmark⟩ := List.mem_filterMap.mp h
  obtain ⟨hwarning, hbyte⟩ := mark?_eq_some_iff.mp hmark
  refine ⟨n, hn, ?_, hbyte⟩
  rw [isHeld, isPointedAt_of_warning? hwarning, Bool.true_or]

/-- A leaf is one node. -/
lemma nodup_marks_leaf (h : n.children = []) : (marks [n]).Nodup := by
  rw [marks_one, h, marks_nil, List.append_nil]
  cases n.mark? with
  | none => exact List.nodup_nil
  | some x => exact List.nodup_singleton x

/-- A node at which nothing may be found adds nothing to what is below it. -/
lemma nodup_marks_of_none (h : n.isHeld = false) (hchildren : (marks n.children).Nodup) :
    (marks [n]).Nodup := by
  have hnone : n.mark? = none := by
    rw [Option.eq_none_iff_forall_not_mem]
    intro x hx
    have hpointed := isPointedAt_of_warning? (mark?_eq_some_iff.mp hx).1
    rw [isHeld, hpointed, Bool.true_or] at h
    cases h
  rw [marks_one, hnone]
  exact hchildren

namespace Apart

/-- What may be found in nodes between two bytes is between them. -/
lemma mem_marks (h : Apart p ns q) {x : DiagnosticKind × ℕ} (hx : x ∈ marks ns) :
    p ≤ x.2 ∧ x.2 < q := by
  obtain ⟨n, hn, hheld, hbyte⟩ := exists_of_mem_marks hx
  rw [← hbyte]
  exact h.held n hn hheld

/-- Nodes behind others begin at other places. -/
lemma nodup_marks_append (h : Apart p ns q) (h' : Apart q ms r) (hns : (marks ns).Nodup)
    (hms : (marks ms).Nodup) : (marks (ns ++ ms)).Nodup := by
  rw [marks_append]
  refine hns.append hms fun x hx hx' => ?_
  have hlt := (h.mem_marks hx).2
  have hle := (h'.mem_marks hx').1
  omega

/-- A node in front of what is below it begins at another place. -/
lemma nodup_marks_around (h : Apart c n.children q) (hlt : n.span.start.byte < c)
    (hchildren : (marks n.children).Nodup) : (marks [n]).Nodup := by
  rw [marks_one]
  refine (List.nodup_append).mpr ⟨?_, hchildren, ?_⟩
  · cases n.mark? with
    | none => exact List.nodup_nil
    | some x => exact List.nodup_singleton x
  · rintro x hx y hy rfl
    have hbyte := (mark?_eq_some_iff.mp (Option.mem_toList.mp hx)).2
    have hle := (h.mem_marks hy).1
    omega

end Apart

end Node

/-! ### Reading -/

namespace Grammar

variable {s s' : State} {b : ℕ} {ns : List Node}

/-- Two nodes for one token are of different sorts. -/
lemma nodup_marks_shorthand {span : Span} {name : String} {kind : NodeKind}
    (hkind : kind = .localVariable ∨ kind = .call) :
    (Node.marks [.leaf .symbol span name, .leaf kind span name]).Nodup := by
  rw [Node.marks_cons, Node.marks_one, Node.marks_one]
  rcases hkind with rfl | rfl
  · simp [Node.mark?, Node.warning?, Node.leaf, Node.literal?]
  · simp [Node.mark?, Node.warning?, Node.leaf, Node.literal?]

/-- No two nodes of one sort that are read begin at the same place. -/
theorem Reads.nodup_marks (h : Reads s ns s') (hs : s.tape.Rises b) : (Node.marks ns).Nodup := by
  induction h generalizing b with
  | steps => exact List.nodup_nil
  | report => exact List.nodup_nil
  | abandon => exact List.nodup_nil
  | append h h' ih ih' =>
    have hlater := h.passes.rises hs
    exact (h.apart hs).nodup_marks_append (h'.apart hlater) (ih hs) (ih' hlater)
  | within c _ ih => exact ih (b := b) (by rwa [c.tape_enter])
  | error => exact Node.nodup_marks_leaf (by unfold State.errorNode; split <;> rfl)
  | leaf => exact Node.nodup_marks_leaf rfl
  | use => exact Node.nodup_marks_leaf rfl
  | bareCall => exact Node.nodup_marks_leaf rfl
  | shorthand =>
    refine nodup_marks_shorthand ?_
    split
    · exact .inl rfl
    · exact .inr rfl
  | @parameter s s₁ s₂ name ns hbefore hmore hbinds hdefault _ ih ih' =>
    have hat := hbefore.passes.rises hs
    have hbehind : Tape.Rises s.start.byte (s₁.advanced.declare name).tape := by
      rw [State.tape_declare]
      exact (Passes.steps hmore.steps).onward (Tape.onward_rises _) hat
    have hlt : s₁.start.byte < s₁.advanced.start.byte :=
      State.start_lt_advanced hmore hat hbinds.isWritten
    have hinside := hdefault.apart hbehind
    rw [State.start_declare] at hinside
    exact hinside.nodup_marks_around (Nat.lt_of_le_of_lt hat.le hlt) (ih' hbehind)
  | blockLocal => exact Node.nodup_marks_leaf rfl
  | @retarget s s' n h hkind ih =>
    have hlaid := (h.laidOut n (List.mem_singleton_self n)).root
    exact Node.nodup_marks_leaf (hlaid.children_eq_nil (by rw [hkind]; rfl))
  | target _ _ hleaf => exact Node.nodup_marks_leaf hleaf
  | @attach s s' s'' call block h h' hcall _ ih ih' =>
    have hlater := h.passes.rises hs
    have hbelow : (Node.marks call.children).Nodup := by
      have hcalls := ih hs
      rw [Node.marks_one] at hcalls
      exact hcalls.of_append_right
    have hall := (h.apart hs).children.nodup_marks_append (h'.apart hlater) hbelow (ih' hlater)
    refine Node.nodup_marks_of_none ?_ hall
    rcases kind_of_takesBlock hcall with hkind | hkind
    · refine Node.isHeld_eq_false ?_ ?_ ?_
      · simp [withBlock, hkind, NodeKind.isMarked]
      · simp [withBlock, hkind, Node.isBareName]
      · simp [withBlock, hkind, Node.declares]
    · refine Node.isHeld_eq_false ?_ ?_ ?_
      · simp [withBlock, hkind, NodeKind.isMarked]
      · simp [withBlock, hkind, Node.isBareName]
      · simp [withBlock, hkind, Node.declares]
  | close _ _ hkind ih =>
    have hall := ih hs
    rw [Node.marks_one] at hall
    refine Node.nodup_marks_of_none (Node.isHeld_eq_false ?_ ?_ ?_) hall.of_append_right
    · simp [hkind, NodeKind.isMarked]
    · simp [hkind, Node.isBareName]
    · simp [hkind, Node.declares]
  | statements _ _ ih => exact Node.nodup_marks_of_none rfl (ih hs)
  | @node s s' k text ns h hfits hinert hmarks hbehind ih ih' =>
    by_cases hmarked : k.isMarked = true
    · obtain ⟨hmore, hwritten⟩ := hmarks hmarked
      have hnext := (Passes.steps hmore.steps).rises hs
      have hlt := State.start_lt_advanced hmore hs hwritten
      exact ((hbehind hmarked).apart hnext).nodup_marks_around hlt (ih' hmarked hnext)
    · exact Node.nodup_marks_of_none
        (Node.isHeld_of_isInert hinert (Bool.eq_false_iff.mpr hmarked)) (ih hs)
  | @scope s s₁ s₂ s₃ k text outer inner closed houter hinner hlast _ hopens hmarks hbehind
      ihOuter ihInner ihLast ihBehind =>
    have hinside : (s₁.enterScope closed).tape.Rises s.start.byte := houter.passes.rises hs
    by_cases hmarked : k.isMarked = true
    · obtain ⟨hmore, hwritten⟩ := hmarks hmarked
      have hnext := (Passes.steps hmore.steps).rises hs
      have hlt := State.start_lt_advanced hmore hs hwritten
      have hfront := (hbehind hmarked).apart hnext
      have hback := hinner.apart hinside
      exact (hfront.append hback).nodup_marks_around hlt
        (hfront.nodup_marks_append hback (ihBehind hmarked hnext) (ihInner hinside))
    · have hall := (houter.apart hs).nodup_marks_append (hinner.apart hinside) (ihOuter hs)
        (ihInner hinside)
      refine Node.nodup_marks_of_none (Node.isHeld_eq_false ?_ ?_ ?_) hall
      · exact Bool.eq_false_iff.mpr hmarked
      · unfold Node.opens at hopens
        split at hopens
        all_goals simp_all [Node.isBareName]
      · unfold Node.opens at hopens
        split at hopens
        all_goals simp_all [Node.declares]

end Grammar

end RubyCheck
