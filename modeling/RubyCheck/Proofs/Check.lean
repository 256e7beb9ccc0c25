import Mathlib.Data.List.TakeWhile
import RubyCheck.Check
import RubyCheck.Proofs.Analysis.Finding
import RubyCheck.Proofs.Grammar.Order
import RubyCheck.Proofs.Nesting
import RubyCheck.Proofs.TokenStream

/-!
# Where diagnostics stand

Every diagnostic of a text stands at an exact position of it, so on one of its lines and at one of
the columns of that line or right behind them (`check_placed`).  The tokens of a text are placed
exactly; faults are reported at tokens, nodes begin where tokens do, and findings point at the
beginning of a node or at a token.
-/

namespace RubyCheck

/-! ### Lines and columns -/

namespace Position

variable {source : List Char} {p : Position}

/-- Behind a part of a text, its line begins with the characters behind the last line break. -/
lemma exists_splitOn (before rest : List Char) :
    ∃ line, ((before ++ rest).splitOn '\n')[before.count '\n']? = some line ∧
      (before.reverse.takeWhile (· != '\n')).length ≤ line.length := by
  induction before with
  | nil =>
    obtain ⟨line, lines, hlines⟩ := List.exists_cons_of_ne_nil (List.splitOn_ne_nil '\n' rest)
    exact ⟨line, by simp [hlines], Nat.zero_le _⟩
  | cons c before ih =>
    obtain ⟨line, hline, hlength⟩ := ih
    rw [List.cons_append, List.splitOn_cons_eq_if_modifyHead, List.reverse_cons]
    by_cases hc : c = '\n'
    · subst hc
      refine ⟨line, by simpa using hline, ?_⟩
      rw [List.takeWhile_append]
      split
      · rename_i hall
        rw [hall] at hlength
        simpa using hlength
      · exact hlength
    · have hcount : (c :: before).count '\n' = before.count '\n' := List.count_cons_of_ne hc
      rw [if_neg (by simpa using hc), hcount, List.getElem?_modifyHead, hline]
      by_cases hfirst : before.count '\n' = 0
      · refine ⟨c :: line, by simp [hfirst], ?_⟩
        -- No line break is in front, so all characters are of the first line.
        have hall : before.reverse.takeWhile (· != '\n') = before.reverse := by
          refine List.takeWhile_eq_self_iff.mpr fun d hd => bne_iff_ne.mpr ?_
          rintro rfl
          exact List.count_eq_zero.mp hfirst (List.mem_reverse.mp hd)
        rw [hall] at hlength
        refine (List.takeWhile_prefix _).length_le.trans ?_
        simpa using hlength
      · refine ⟨line, by simp [hfirst], ?_⟩
        rw [List.takeWhile_append, if_neg]
        · exact hlength
        · intro hlen
          have hall := List.takeWhile_eq_self_iff.mp ((List.takeWhile_prefix _).eq_of_length hlen)
          refine hfirst (List.count_eq_zero.mpr fun hmem => ?_)
          simpa using hall '\n' (List.mem_reverse.mpr hmem)

/-- An exact position is on a line of the text, and at most right behind it. -/
lemma Exact.exists_line (h : p.Exact source) :
    ∃ line, (source.splitOn '\n')[p.line]? = some line ∧ p.column ≤ line.length := by
  obtain ⟨before, ⟨rest, rfl⟩, rfl⟩ := h
  exact exists_splitOn before rest

/-- An exact position is behind no more line breaks than the text has. -/
lemma Exact.line_le (h : p.Exact source) : p.line ≤ source.count '\n' := by
  obtain ⟨before, hbefore, rfl⟩ := h
  exact hbefore.sublist.count_le '\n'

end Position

/-! ### The order of reports -/

namespace Diagnostic

lemma before_trans (d e f : Diagnostic) (hde : d.before e = true) (hef : e.before f = true) :
    d.before f = true := by
  simp only [before, Bool.or_eq_true, Bool.and_eq_true, decide_eq_true_eq, beq_iff_eq] at hde hef ⊢
  omega

lemma before_total (d e : Diagnostic) : (d.before e || e.before d) = true := by
  simp only [before, Bool.or_eq_true, Bool.and_eq_true, decide_eq_true_eq, beq_iff_eq]
  omega

end Diagnostic

/-- No diagnostic of a report has to stand in front of one before it. -/
lemma Report.pairwise_sorted (ds : List Diagnostic) :
    (Report.sorted ds).Pairwise fun d e => d.before e = true :=
  List.pairwise_mergeSort Diagnostic.before_trans Diagnostic.before_total ds

/-! ### Places of faults and findings -/

namespace Reading

variable {limits : Limits} {source : List Char}

/-- The tokens that are read are those of the text. -/
lemma supplied_ofText (source : List Char) :
    Tape.supplied (TokenStream.ofText source).tokens = (TokenStream.ofText source).tokens := by
  obtain ⟨ts, p, hend, -⟩ := TokenStream.exists_endToken source
  exact Tape.supplied_eq hend rfl

/-- Every fault of a text is at an exact position of it. -/
lemma exact_of_mem_faults (limits : Limits) (source : List Char) :
    ∀ f ∈ (ofText limits source).tree.faults, f.span.start.Exact source := by
  have hplaced := TokenStream.at_of_mem_ofText source
  have hfaults := TokenStream.exact_of_mem_faults source
  refine List.forall_mem_append.mpr ⟨fun f hf => (hfaults f hf).start, fun f hf => ?_⟩
  obtain ⟨t, ht, hstart⟩ := (SyntaxTree.raised_ofTokens limits _ f hf).raisedAt
  rw [supplied_ofText] at ht
  rcases hstart with hstart | hpoint
  · rw [hstart]
    exact (hplaced t ht).exact.start
  · rw [hpoint]
    exact (hplaced t ht).exact.stop

/-- Every node of a text begins at an exact position of it. -/
lemma exact_everywhere (limits : Limits) (source : List Char) :
    (ofText limits source).tree.root.Everywhere fun n => n.span.start.Exact source := by
  obtain ⟨ns, s', hreads, -, -, htree⟩ :=
    SyntaxTree.exists_reads limits (TokenStream.ofText source).tokens
  have hplaced := TokenStream.at_of_mem_ofText source
  have hon := Tape.on_supplied (TokenStream.ofText source).tokens
  rw [supplied_ofText] at hon
  change Node.Everywhere _ (SyntaxTree.ofTokens limits (TokenStream.ofText source).tokens).root
  rw [htree]
  refine .intro (hplaced _ hon.current_mem).exact.start fun c hc => ?_
  refine (hreads.beginsAt hon c hc).mono ?_
  rintro n ⟨t, ht, hstart⟩
  rw [hstart]
  exact (hplaced t ht).exact.start

/-- Every finding in a text is at an exact position of it. -/
lemma exact_of_mem_findings (limits : Limits) (source : List Char) :
    ∀ f ∈ (ofText limits source).findings, f.position.Exact source := by
  refine List.forall_mem_append.mpr ⟨?_, fun f hf => ?_⟩
  · have hpointed : (ofText limits source).tree.root.Everywhere
        (Analysis.Pointed (·.Exact source)) := (exact_everywhere limits source).mono fun _ h _ => h
    exact fun f hf => (Analysis.points_treeFindings hpointed f hf).2
  · obtain ⟨t, ht, hfound⟩ := List.mem_filterMap.mp hf
    rw [Analysis.position_of_tokenFinding? hfound]
    exact (TokenStream.at_of_mem_ofText source t (List.mem_filter.mp ht).1).exact.start

/-- A diagnostic at an exact position is on a line of the text. -/
lemma placed_of_exact {d : Diagnostic} {p : Position} (hp : p.Exact source)
    (hline : d.line = p.shownLine) (hcolumn : d.column = p.shownColumn) :
    (∃ p : Position, p.Exact source ∧ d.line = p.shownLine ∧ d.column = p.shownColumn) ∧
      1 ≤ d.line ∧ d.line ≤ source.count '\n' + 1 ∧ 1 ≤ d.column ∧
      ∃ line, (source.splitOn '\n')[d.line - 1]? = some line ∧ d.column ≤ line.length + 1 := by
  obtain ⟨line, hat, hle⟩ := hp.exists_line
  have hcount := hp.line_le
  refine ⟨⟨p, hp, hline, hcolumn⟩, ?_⟩
  rw [hline, hcolumn, Position.shownLine, Position.shownColumn]
  refine ⟨?_, ?_, ?_, line, ?_, ?_⟩
  · omega
  · omega
  · omega
  · simpa using hat
  · omega

/-- Every diagnostic of a text is shown at a position of it: on one of its lines, and at one of the
columns of that line or right behind them. -/
theorem check_placed (source : List Char) (withDump : Bool) :
    ∀ d ∈ (check source withDump).errors ++ (check source withDump).warnings,
      (∃ p : Position, p.Exact source ∧ d.line = p.shownLine ∧ d.column = p.shownColumn) ∧
        1 ≤ d.line ∧ d.line ≤ source.count '\n' + 1 ∧ 1 ≤ d.column ∧
        ∃ line, (source.splitOn '\n')[d.line - 1]? = some line ∧ d.column ≤ line.length + 1 := by
  refine List.forall_mem_append.mpr ⟨fun d hd => ?_, fun d hd => ?_⟩
  · obtain ⟨f, hf, rfl⟩ := List.mem_map.mp (List.mem_mergeSort.mp hd)
    exact placed_of_exact (exact_of_mem_faults .standard source f hf) rfl rfl
  · obtain ⟨f, hf, rfl⟩ := List.mem_map.mp (List.mem_mergeSort.mp hd)
    exact placed_of_exact (exact_of_mem_findings .standard source f hf) rfl rfl

/-- A heredoc that never ends, inside a method that never ends. -/
theorem check_placed_heredoc :
    ∃ d ∈ (check "def f\n  x = <<A\n  010".toList false).errors ++
        (check "def f\n  x = <<A\n  010".toList false).warnings,
      d.kind = .lexical ∧ d.line = 2 ∧ d.column = 7 ∧
        ∃ p : Position, p.Exact "def f\n  x = <<A\n  010".toList ∧
          d.line = p.shownLine ∧ d.column = p.shownColumn := by
  set source := "def f\n  x = <<A\n  010".toList
  have hfault : (⟨.lexical, "unterminated heredoc, expected `A`", 2, 7⟩ : Diagnostic) ∈
      (ofText .standard source).tree.faults.map .ofFault := by decide +kernel
  have herror : _ ∈ (check source false).errors := List.mem_mergeSort.mpr hfault
  have hd := List.mem_append_left (check source false).warnings herror
  exact ⟨_, hd, rfl, rfl, rfl, (check_placed source false _ hd).1⟩

end Reading

end RubyCheck
