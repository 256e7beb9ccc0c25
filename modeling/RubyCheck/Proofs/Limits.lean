import RubyCheck.Proofs.Grammar.Limits
import RubyCheck.Proofs.Grammar.Program

/-!
# Trees under limits

How the tree of some tokens depends on the limits it is read under.  A greater number of faults that
may be reported adds faults at the end, and changes nothing else if fewer were found than may be.  A
greater depth changes nothing unless nesting was found too deep, and then that is the first fault
that would not have been reported otherwise.  It need not be the last one: a list of statements in
brackets recovers from the refusal by itself, and may skip its closer.
-/

namespace RubyCheck.SyntaxTree

open Grammar

variable {limits limits' : Limits} {tokens : List Token}

/-- Reading comes to the end of some tokens whatever they are. -/
lemma exists_run (limits : Limits) (tokens : List Token) :
    ∃ root s, program (levelsFor tokens) (.ofTokens limits tokens) = .ok root s ∧
      ofTokens limits tokens = ⟨root, s.faults.toList⟩ := by
  have hleft : (State.ofTokens limits tokens).tape.left < levelsFor tokens :=
    Nat.lt_of_le_of_lt (Tape.left_ofTokens_le tokens) (Nat.lt_add_of_pos_right (by decide))
  obtain ⟨ns, s, hrun, -⟩ :=
    program_reads (s := .ofTokens limits tokens) (Tape.ends_ofTokens tokens) hleft
  refine ⟨_, _, hrun, ?_⟩
  rw [ofTokens, hrun]
  rfl

/-- No more faults are reported than may be. -/
theorem length_faults_le (limits : Limits) (tokens : List Token) :
    (ofTokens limits tokens).faults.length ≤ limits.maxFaults := by
  obtain ⟨root, s, hrun, htree⟩ := exists_run limits tokens
  have hpasses : Passes (.ofTokens limits tokens) s := by
    have h := (composed_program (levelsFor tokens)).passes (.ofTokens limits tokens)
    rwa [hrun] at h
  have hsize := hpasses.size_le (Nat.zero_le _)
  rw [hpasses.limits] at hsize
  rw [htree, Array.length_toList]
  exact hsize

/-- Two readings of the same tokens, the second one under limits that allow at least as much, come
to the same, unless the first one was stopped: because as many faults as may be were reported, or
because nesting was found too deep.  Up to there they report the same. -/
theorem ofTokens_within (hwithin : limits.Within limits') (tokens : List Token) :
    ofTokens limits tokens = ofTokens limits' tokens ∨
      (limits.maxFaults < limits'.maxFaults ∧
        (ofTokens limits tokens).faults.length = limits.maxFaults ∧
        (ofTokens limits tokens).faults <+: (ofTokens limits' tokens).faults) ∨
      (limits.maxDepth < limits'.maxDepth ∧ ∃ before f after,
        (ofTokens limits tokens).faults = before ++ f :: after ∧
        f.cause = .nestingTooDeep limits.maxDepth ∧
        before <+: (ofTokens limits' tokens).faults) := by
  obtain ⟨root, s, hrun, htree⟩ := exists_run limits tokens
  obtain ⟨root', s', hrun', htree'⟩ := exists_run limits' tokens
  have habreast : Abreast limits limits' (.ofTokens limits tokens) := by
    refine ⟨rfl, Tape.ends_ofTokens tokens, fun hgaveUp => ?_⟩
    exact absurd (State.gaveUp_iff.mp hgaveUp) (Nat.not_le_of_lt limits.faults_pos)
  have hjoint := (composed_program (levelsFor tokens)).joint hwithin habreast
  change Joint limits limits' _ (program (levelsFor tokens) (.ofTokens limits' tokens)) at hjoint
  rw [hrun, hrun'] at hjoint
  rw [htree, htree']
  cases hjoint with
  | ok => exact .inl rfl
  | parted h =>
    cases h with
    | capped hmax _ hsize hgrows => exact .inr (.inl ⟨hmax, hsize, hgrows⟩)
    | cut hmax hfaults hcause hgrows =>
      exact .inr (.inr ⟨hmax, _, _, _, hfaults, hcause, hgrows⟩)

/-! ### How many faults may be reported -/

/-- If more faults may be reported, the first ones stay the same. -/
lemma faults_eq_take (hdepth : limits.maxDepth = limits'.maxDepth)
    (hfaults : limits.maxFaults ≤ limits'.maxFaults) (tokens : List Token) :
    (ofTokens limits tokens).faults = (ofTokens limits' tokens).faults.take limits.maxFaults := by
  have hwithin : limits.Within limits' := ⟨hfaults, Nat.le_of_eq hdepth⟩
  rcases ofTokens_within hwithin tokens with hsame | ⟨-, hlength, hgrows⟩ | ⟨hless, -⟩
  · have hle : (ofTokens limits' tokens).faults.length ≤ limits.maxFaults := by
      rw [← hsame]
      exact length_faults_le limits tokens
    rw [hsame, List.take_of_length_le hle]
  · rw [← hlength]
    exact List.prefix_iff_eq_take.mp hgrows
  · omega

/-- If not as many faults are found as may be, the tree stays the same when more may be reported. -/
lemma ofTokens_eq_of_fewer (hdepth : limits.maxDepth = limits'.maxDepth)
    (hfaults : limits.maxFaults ≤ limits'.maxFaults)
    (hfewer : (ofTokens limits' tokens).faults.length < limits.maxFaults) :
    ofTokens limits tokens = ofTokens limits' tokens := by
  have hwithin : limits.Within limits' := ⟨hfaults, Nat.le_of_eq hdepth⟩
  rcases ofTokens_within hwithin tokens with hsame | ⟨-, hlength, hgrows⟩ | ⟨hless, -⟩
  · exact hsame
  · have hle := hgrows.length_le
    omega
  · omega

/-- If more faults may be reported, the first ones stay the same; and if not as many are found as
may be, so does the tree. -/
theorem ofTokens_capped (hdepth : limits.maxDepth = limits'.maxDepth)
    (hfaults : limits.maxFaults ≤ limits'.maxFaults) (tokens : List Token) :
    (ofTokens limits tokens).faults = (ofTokens limits' tokens).faults.take
        (min limits.maxFaults (ofTokens limits' tokens).faults.length) ∧
      ((ofTokens limits' tokens).faults.length < limits.maxFaults →
        ofTokens limits tokens = ofTokens limits' tokens) := by
  rw [← List.take_eq_take_min]
  exact ⟨faults_eq_take hdepth hfaults tokens, ofTokens_eq_of_fewer hdepth hfaults⟩

/-- Three closers that close nothing, where two faults may be reported. -/
theorem ofTokens_capped_closers :
    (ofTokens ⟨3, 2, by decide, by decide⟩
        (TokenStream.ofText ")\n)\n)\n".toList).tokens).faults.length = 3 ∧ 2 ≤ 3 ∧
      (ofTokens ⟨2, 2, by decide, by decide⟩
          (TokenStream.ofText ")\n)\n)\n".toList).tokens).faults =
        (ofTokens ⟨3, 2, by decide, by decide⟩
          (TokenStream.ofText ")\n)\n)\n".toList).tokens).faults.take 2 := by
  have hlength : (ofTokens ⟨3, 2, by decide, by decide⟩
      (TokenStream.ofText ")\n)\n)\n".toList).tokens).faults.length = 3 := by decide +kernel
  have hdepth : (⟨2, 2, by decide, by decide⟩ : Limits).maxDepth =
      (⟨3, 2, by decide, by decide⟩ : Limits).maxDepth := rfl
  have hfew : 2 ≤ 3 := by decide
  have hfaults := (ofTokens_capped hdepth hfew (TokenStream.ofText ")\n)\n)\n".toList).tokens).1
  rw [hlength] at hfaults
  exact ⟨hlength, hfew, hfaults⟩

/-- The tree of tokens without faults does not depend on how many may be reported. -/
lemma ofTokens_eq_of_faultless (hdepth : limits.maxDepth = limits'.maxDepth)
    (hfaultless : (ofTokens limits tokens).faults = []) :
    ofTokens limits' tokens = ofTokens limits tokens := by
  rcases Nat.le_total limits.maxFaults limits'.maxFaults with hle | hle
  · have hfaults := faults_eq_take hdepth hle tokens
    rw [hfaultless, eq_comm, List.take_eq_nil_iff] at hfaults
    have hfaultless' := hfaults.resolve_left (Nat.ne_of_gt limits.faults_pos)
    refine (ofTokens_eq_of_fewer hdepth hle ?_).symm
    rw [hfaultless']
    exact limits.faults_pos
  · refine ofTokens_eq_of_fewer hdepth.symm hle ?_
    rw [hfaultless]
    exact limits'.faults_pos

/-! ### How deep constructs may nest -/

/-- If no nesting was found too deep, going deeper would not have changed anything. -/
theorem ofTokens_uncut (hfaults : limits.maxFaults = limits'.maxFaults)
    (hdepth : limits.maxDepth ≤ limits'.maxDepth)
    (huncut : ∀ f ∈ (ofTokens limits tokens).faults, ∀ depth, f.cause ≠ .nestingTooDeep depth) :
    ofTokens limits' tokens = ofTokens limits tokens := by
  have hwithin : limits.Within limits' := ⟨Nat.le_of_eq hfaults, hdepth⟩
  rcases ofTokens_within hwithin tokens with
    hsame | ⟨hless, -⟩ | ⟨-, before, f, after, hall, hcause, -⟩
  · exact hsame.symm
  · omega
  · refine absurd hcause (huncut f ?_ limits.maxDepth)
    rw [hall]
    simp

/-- A fault that has nothing to do with nesting. -/
theorem ofTokens_uncut_closer :
    (ofTokens ⟨100, 3, by decide, by decide⟩
        (TokenStream.ofText ")\nx = 1\n".toList).tokens).faults.map (·.cause) =
        [.unexpectedToken ")" "statement"] ∧
      ofTokens .standard (TokenStream.ofText ")\nx = 1\n".toList).tokens =
        ofTokens ⟨100, 3, by decide, by decide⟩
          (TokenStream.ofText ")\nx = 1\n".toList).tokens := by
  have hfaults : (ofTokens ⟨100, 3, by decide, by decide⟩
      (TokenStream.ofText ")\nx = 1\n".toList).tokens).faults.map (·.cause) =
      [.unexpectedToken ")" "statement"] := by decide +kernel
  refine ⟨hfaults, ofTokens_uncut rfl (by decide) fun f hf depth hcause => ?_⟩
  have hmem := List.mem_map_of_mem (f := Fault.cause) hf
  rw [hfaults, hcause] at hmem
  simp at hmem

/-- If a text is without faults, then under a smaller depth either nothing is different, or the
first fault says that nesting was too deep. -/
theorem ofText_tooDeep {source : List Char} (hdepth : limits.maxDepth ≤ limits'.maxDepth)
    (hfaultless : (ofText limits' source).faults = []) :
    ofText limits source = ofText limits' source ∨
      ∃ f after, (ofText limits source).faults = f :: after ∧
        f.cause = .nestingTooDeep limits.maxDepth := by
  set tokens := (TokenStream.ofText source).tokens
  obtain ⟨hlexical, hfaultless⟩ := List.append_eq_nil_iff.mp hfaultless
  -- As many faults may be reported as under the smaller depth.
  let deeper : Limits :=
    ⟨limits.maxFaults, limits'.maxDepth, limits.faults_pos, limits'.two_le_depth⟩
  have hdeeper : ofTokens deeper tokens = ofTokens limits' tokens :=
    ofTokens_eq_of_faultless rfl hfaultless
  have hwithin : limits.Within deeper := ⟨Nat.le_refl _, hdepth⟩
  have hstream (limits : Limits) : ofText limits source = ofTokens limits tokens := by
    rw [ofText, ofStream, hlexical]
    rfl
  rw [hstream, hstream, ← hdeeper]
  rcases ofTokens_within hwithin tokens with
    hsame | ⟨hless, -⟩ | ⟨-, before, f, after, hall, hcause, hgrows⟩
  · exact .inl hsame
  · exact absurd hless (Nat.lt_irrefl _)
  · rw [hdeeper, hfaultless, List.prefix_nil] at hgrows
    rw [hgrows] at hall
    exact .inr ⟨f, after, hall, hcause⟩

/-- An array that is nested too deep. -/
theorem ofText_tooDeep_array :
    (ofText .standard "x = [1]\ny = 2\n".toList).faults = [] ∧
      ∃ f after,
        (ofText ⟨100, 3, by decide, by decide⟩ "x = [1]\ny = 2\n".toList).faults = f :: after ∧
          f.cause = .nestingTooDeep 3 := by
  have hfaultless : (ofText .standard "x = [1]\ny = 2\n".toList).faults = [] := by decide +kernel
  have hdepth : (⟨100, 3, by decide, by decide⟩ : Limits).maxDepth ≤ Limits.standard.maxDepth := by
    decide
  rcases ofText_tooDeep hdepth hfaultless with hsame | hcut
  · have hfaulty :
        (ofText ⟨100, 3, by decide, by decide⟩ "x = [1]\ny = 2\n".toList).faults ≠ [] := by
      decide +kernel
    rw [hsame] at hfaulty
    exact absurd hfaultless hfaulty
  · exact ⟨hfaultless, hcut⟩

/-- A text whose faults are not all faults of nesting, although without a limit it has none: the
statements in the brackets are given up together with the bracket that closes them. -/
theorem ofText_tooDeep_unclosed :
    (ofText .standard "(1)\n".toList).faults = [] ∧
      (ofText ⟨100, 2, by decide, by decide⟩ "(1)\n".toList).faults.map (·.cause) =
        [.nestingTooDeep 2, .unclosed "(" ")" true] := by
  constructor
  · decide +kernel
  · decide +kernel

end RubyCheck.SyntaxTree
