import RubyCheck.Proofs.Grammar.Keeping
import RubyCheck.Proofs.Limits

/-!
# Nesting in trees

How deep the trees of tokens nest, and which tokens the literals in them are written with.  The
limit on nesting counts the constructs that stand in one another on any path, but for what escapes
it: the operand of `defined?`, targets among targets, and brackets in which a value is spread.
-/

namespace RubyCheck.SyntaxTree

open Grammar

variable {limits : Limits} {tokens : List Token}

/-- The place where the tokens of a text are read. -/
def place (limits : Limits) (tokens : List Token) : Place := ⟨Tape.supplied tokens, limits, 0⟩

lemma stands_ofTokens (limits : Limits) (tokens : List Token) :
    Stands (place limits tokens) true (.ofTokens limits tokens) where
  limits := rfl
  depth := rfl
  le := Nat.zero_le _
  tape := by
    refine ⟨Tape.ends_ofTokens tokens, List.suffix_refl _, fun _ => ?_⟩
    -- Nothing was consumed, so the token behind which reading stands is the first one.
    cases tokens with
    | nil => exact List.mem_cons_self
    | cons t ts => exact List.mem_cons_self
  faults := by simp [State.ofTokens]

/-- Reading a program stays at its place, no path through what it gives leads deeper than the limit,
and the literals in it are written with tokens. -/
lemma meets_program (limits : Limits) (tokens : List Token) :
    Meets (place limits tokens) true true
      (fun n => n.Shallow limits.maxDepth ∧ n.Everywhere (Node.Spelled (Tape.supplied tokens)))
      (program (levelsFor tokens) (.ofTokens limits tokens)) := by
  have hlist : Keeps (place limits tokens) true true (place limits tokens).deeper.Apt
      (production (levelsFor tokens) (.statements [])) :=
    (keeping_production (levelsFor tokens) 0).parse (place limits tokens) (.statements [])
  have hprogram : Keeps (place limits tokens) true true
      (fun n => n.Shallow limits.maxDepth ∧ n.Everywhere (Node.Spelled (Tape.supplied tokens)))
      (program (levelsFor tokens)) :=
    .here fun _ _ => .bind (.inScope true hlist) fun list hlist => .current fun _ _ =>
      .pure ⟨.of_children rfl hlist.shallow.children, .intro trivial hlist.spelled.children⟩
  exact hprogram.run (stands_ofTokens limits tokens)

/-- No path through a program leads deeper than the limit. -/
lemma shallow_ofTokens (limits : Limits) (tokens : List Token) :
    (ofTokens limits tokens).root.Shallow limits.maxDepth := by
  have hmeets := meets_program limits tokens
  obtain ⟨root, s, hrun, htree⟩ := exists_run limits tokens
  rw [hrun] at hmeets
  rw [htree]
  exact hmeets.1.1

/-- The literals of a program are written with its tokens. -/
lemma spelled_ofTokens (limits : Limits) (tokens : List Token) :
    (ofTokens limits tokens).root.Everywhere (Node.Spelled (Tape.supplied tokens)) := by
  have hmeets := meets_program limits tokens
  obtain ⟨root, s, hrun, htree⟩ := exists_run limits tokens
  rw [hrun] at hmeets
  rw [htree]
  exact hmeets.1.2

/-- The integers of a program are tokens. -/
lemma integral_ofTokens (limits : Limits) (tokens : List Token) :
    (ofTokens limits tokens).root.Everywhere (Node.Integral (Tape.supplied tokens)) :=
  (spelled_ofTokens limits tokens).mono fun _ h => h.integral

/-- Whatever is wrong with some tokens is a fault of the grammar, and reported at one of them. -/
lemma raised_ofTokens (limits : Limits) (tokens : List Token) :
    ∀ f ∈ (ofTokens limits tokens).faults, f.Raised (Tape.supplied tokens) := by
  have hmeets := meets_program limits tokens
  obtain ⟨root, s, hrun, htree⟩ := exists_run limits tokens
  rw [hrun] at hmeets
  rw [htree]
  exact fun f hf => hmeets.2.faults f (Array.mem_toList_iff.mp hf)

/-- On every path through a tree the prefixes and brackets that stand in one another are no more
than may nest, but for what escapes the limit: what stands in a `defined?`, targets, and what is
spread. -/
theorem ofTokens_nests {path : List Node} (hpath : (ofTokens limits tokens).root.Path path) :
    path.countP (·.kind.nests) ≤ limits.maxDepth + path.countP (·.kind.escapes) := by
  have hlevels := shallow_ofTokens limits tokens path hpath
  have hnests := Node.countP_nests_le path
  omega

/-- Arrays in arrays, each of which is spread. -/
theorem ofTokens_nests_spread :
    ∃ path, (ofTokens ⟨1, 3, by decide, by decide⟩
        (TokenStream.ofText "[*[*[*[x]]]]\n".toList).tokens).root.Path path ∧
      path.countP (·.kind.nests) = 4 ∧
      path.countP (·.kind.nests) ≤ 3 + path.countP (·.kind.escapes) := by
  have hpath := (ofTokens ⟨1, 3, by decide, by decide⟩
    (TokenStream.ofText "[*[*[*[x]]]]\n".toList).tokens).root.path_leftmost
  have hnests := ofTokens_nests hpath
  simp only at hnests
  exact ⟨_, hpath, by decide +kernel, hnests⟩

/-- Three tests in one another, without a fault, where two constructs may nest: what stands in a
`defined?` is not counted. -/
theorem ofTokens_nests_defined :
    ∃ path, (ofTokens ⟨1, 2, by decide, by decide⟩
        (TokenStream.ofText "defined? defined? defined? x\n".toList).tokens).root.Path path ∧
      path.countP (·.kind.nests) = 3 ∧
      (ofTokens ⟨1, 2, by decide, by decide⟩
        (TokenStream.ofText "defined? defined? defined? x\n".toList).tokens).faults = [] :=
  ⟨_, Node.path_leftmost _, by decide +kernel, by decide +kernel⟩

end RubyCheck.SyntaxTree
