import RubyCheck.Proofs.Grammar.Reads

/-!
# Where the uses of variables come from

Reading moves over the tokens of a text and never off them (`Tape.On`), so whatever a production
makes of the token it consumes is made of a token of the text.  Of the nodes of a tree the uses of
local variables are made so: each stands exactly where a name stands, or a label (`Node.Named`).
-/

namespace RubyCheck

namespace Tape

variable {tokens : List Token} {tape : Tape}

/-- A tape that stands on some tokens: what was consumed is right behind, what is left is ahead. -/
def On (tokens : List Token) (tape : Tape) : Prop :=
  ∃ before : List Token,
    tokens = before.reverse ++ tape.current :: tape.ahead ∧ tape.consumed = before.head?

lemma onward_on (tokens : List Token) : Onward (On tokens) := by
  rintro consumed t u us ⟨before, htokens, -⟩
  exact ⟨t :: before, by simpa using htokens, rfl⟩

lemma On.current_mem (h : On tokens tape) : tape.current ∈ tokens := by
  obtain ⟨before, htokens, -⟩ := h
  simp [htokens]

/-- At first a tape stands on the tokens that are supplied. -/
lemma on_supplied (tokens : List Token) : On (supplied tokens) (ofTokens tokens) := by
  cases tokens with
  | nil => exact ⟨[], rfl, rfl⟩
  | cons t ts => exact ⟨[], rfl, rfl⟩

end Tape

namespace Node

/-- If a node is the use of a variable, it stands where a name stands, or a label. -/
def Named (tokens : List Token) (n : Node) : Prop :=
  n.kind = .localVariable → ∃ t ∈ tokens, n.span = t.span ∧
    (t.kind = .identifier ∧ n.text = some t.text ∨
      t.kind = .label ∧ n.text = some (Grammar.labelName t.text))

variable {tokens : List Token} {n : Node}

/-- A node that is no use of a variable stands wherever it may. -/
lemma named_of_ne (h : n.kind ≠ .localVariable) : n.Named tokens := fun hkind => absurd hkind h

lemma ne_localVariable_of_isInert (h : n.isInert = true) : n.kind ≠ .localVariable := by
  intro hkind
  simp [isInert, isBareName, hkind] at h

lemma ne_localVariable_of_opens {scope : Bool × ℕ} (h : n.opens = some scope) :
    n.kind ≠ .localVariable := by
  intro hkind
  simp [opens, hkind] at h

end Node

namespace Grammar

variable {tokens : List Token} {s s' : State} {ns : List Node}

/-- Reading makes uses of variables of nothing but names and labels. -/
theorem Reads.named (h : Reads s ns s') (hs : s.tape.On tokens) :
    ∀ n ∈ ns, n.Everywhere (Node.Named tokens) := by
  induction h with
  | steps _ => simp
  | report _ _ => simp
  | abandon _ _ => simp
  | append h _ ih ih' =>
    exact List.forall_mem_append.mpr ⟨ih hs, ih' (h.passes.onward (Tape.onward_on _) hs)⟩
  | within c _ ih => exact ih (by rwa [c.tape_enter])
  | error _ _ _ => exact .onlyLeaf (Node.named_of_ne (by simp [State.errorNode, Node.inner])) rfl
  | leaf _ _ _ _ hinert _ =>
    exact .onlyLeaf (Node.named_of_ne (Node.ne_localVariable_of_isInert hinert)) rfl
  | use _ hkind _ => exact .onlyLeaf (fun _ => ⟨_, hs.current_mem, rfl, .inl ⟨hkind, rfl⟩⟩) rfl
  | bareCall _ _ _ => exact .onlyLeaf (Node.named_of_ne (by simp [Node.withText, Node.inner])) rfl
  | shorthand _ hkind hname =>
    refine List.forall_mem_cons.mpr ⟨.intro (Node.named_of_ne (by simp [Node.leaf])) ?_, ?_⟩
    · simp [Node.leaf]
    · exact .onlyLeaf (fun _ => ⟨_, hs.current_mem, rfl, .inr ⟨hkind, congrArg some hname⟩⟩) rfl
  | parameter hbefore hmore _ _ _ _ ih =>
    refine .only (Node.named_of_ne (by simp [Node.withText, Node.inner])) (ih ?_)
    rw [State.tape_declare]
    exact (hbefore.passes.trans (.steps hmore.steps)).onward (Tape.onward_on _) hs
  | blockLocal _ _ => exact .onlyLeaf (Node.named_of_ne (by simp [Node.leaf])) rfl
  | retarget _ _ ih =>
    exact .only (Node.named_of_ne (by simp)) (ih hs _ (List.mem_singleton_self _)).children
  | target _ _ _ ih =>
    exact .only (Node.named_of_ne (by simp)) (ih hs _ (List.mem_singleton_self _)).children
  | attach h _ hcall _ ih ih' =>
    refine .only ?_ (List.forall_mem_append.mpr ⟨?_, ?_⟩)
    · rcases kind_of_takesBlock hcall with hkind | hkind
      · exact Node.named_of_ne (by simp [withBlock, hkind])
      · exact Node.named_of_ne (by simp [withBlock, hkind])
    · exact (ih hs _ (List.mem_singleton_self _)).children
    · exact ih' (h.passes.onward (Tape.onward_on _) hs)
  | close _ _ hkind ih =>
    exact .only (Node.named_of_ne (by simp [hkind]))
      (ih hs _ (List.mem_singleton_self _)).children
  | statements _ _ ih => exact .only (Node.named_of_ne (by simp [Node.inner])) (ih hs)
  | node _ _ hinert _ _ ih _ =>
    exact .only (Node.named_of_ne (Node.ne_localVariable_of_isInert hinert)) (ih hs)
  | scope houter _ _ _ hopens _ _ ih ih' _ _ =>
    refine .only (Node.named_of_ne (Node.ne_localVariable_of_opens hopens)) ?_
    have hinside := houter.passes.onward (Tape.onward_on _) hs
    exact List.forall_mem_append.mpr ⟨ih hs, ih' hinside⟩

end Grammar

end RubyCheck
