import RubyCheck.Proofs.Check
import RubyCheck.Proofs.Scanner.CutShort

/-!
# Cutting a text behind its first error

A text is cut behind the line of its first error: then no error of another kind comes up at the place of
that error, if nothing that the cut leaves open begins there, the cut goes through no heredoc and no
continued line, and the scanner goes back to no literal in front of it (`check_firstLines`).  A literal that
is cut in two is at fault for never closing, perhaps at the place of the error (`not_check_firstLines`).
-/

namespace RubyCheck

open Scanner

/-! ### First lines -/

/-- The first `n` lines of a text, without the line break behind the last of them. -/
def firstLines (n : ℕ) : List Char → List Char
  | [] => []
  | c :: cs =>
    if c = '\n' then (if n ≤ 1 then [] else c :: firstLines (n - 1) cs) else c :: firstLines n cs

lemma firstLines_lineBreak (n : ℕ) (cs : List Char) :
    firstLines n ('\n' :: cs) = if n ≤ 1 then [] else '\n' :: firstLines (n - 1) cs := by
  rw [firstLines, if_pos rfl]

lemma firstLines_cons {c : Char} (hc : c ≠ '\n') (n : ℕ) (cs : List Char) :
    firstLines n (c :: cs) = c :: firstLines n cs := by
  rw [firstLines, if_neg hc]

/-- Behind the first lines of a text a line break comes next, if anything does. -/
lemma exists_append_firstLines (n : ℕ) (source : List Char) :
    ∃ tail, source = firstLines n source ++ tail ∧ (tail = [] ∨ tail.head? = some '\n') := by
  induction source generalizing n with
  | nil => exact ⟨[], rfl, .inl rfl⟩
  | cons c cs ih =>
    by_cases hc : c = '\n'
    · subst hc
      rw [firstLines_lineBreak]
      split
      · exact ⟨'\n' :: cs, rfl, .inr rfl⟩
      · obtain ⟨tail, hcs, htail⟩ := ih (n - 1)
        exact ⟨tail, congrArg ('\n' :: ·) hcs, htail⟩
    · obtain ⟨tail, hcs, htail⟩ := ih n
      rw [firstLines_cons hc]
      exact ⟨tail, congrArg (c :: ·) hcs, htail⟩

/-! ### Faults -/

/-- In a text without two angle brackets in a row there is no heredoc to jump over. -/
lemma resume_eq_none_of_visited {cut : List Char} (hcut : ¬ "<<".toList <:+: cut) {s : Scanner}
    (hs : Visited cut s) : s.resume = none :=
  ((tiled_kept hcut).safe_of_visited (tiled_ofText cut) hs).holds.inPlace

/-- The lexical faults of the first lines of a text are faults of the text, but for those of literals and
documents that are left open where the lines end. -/
theorem TokenStream.mem_faults_of_cut {cut tail : List Char} (htail : tail = [] ∨ tail.head? = some '\n')
    (hcut : CutClean cut) (hback : StraightTo (Source.byteLength cut) (cut ++ tail)) {f : Fault}
    (hf : f ∈ (ofText cut).faults) (hclosed : f.cause.leavesOpen = false) :
    f ∈ (ofText (cut ++ tail)).faults := by
  rcases htail with rfl | htail
  · rwa [List.append_nil]
  obtain ⟨s, hs, hstream⟩ := exists_run cut
  obtain ⟨t, ht, hstream'⟩ := exists_run (cut ++ tail)
  have hlong := ht _ le_rfl
  have hunderway := underway_ofText (cut ++ tail)
  have hrecorded : Recorded (Scanner.Before (Source.byteLength cut) f) (Scanner.ofText (cut ++ tail)) :=
    fun c hc => by simp [live, Scanner.ofText, ofCursor] at hc
  rw [← extend_ofText] at hlong hunderway hrecorded
  rw [hstream, ofScanner, List.mem_reverse] at hf
  rw [hstream', ofScanner, List.mem_reverse]
  exact mem_faults_of_run_cut htail hcut hback (underway_ofText cut) (faces_ofText cut) hunderway
    hrecorded (hs _ le_rfl) hlong hf hclosed

/-! ### Reports -/

/-- A diagnostic stands at a position. -/
def Diagnostic.StandsAt (d : Diagnostic) (p : Position) : Prop :=
  d.line = p.shownLine ∧ d.column = p.shownColumn

instance (d : Diagnostic) (p : Position) : Decidable (d.StandsAt p) := inferInstanceAs (Decidable (_ ∧ _))

/-- What stands at the same line and column stands at the same position. -/
lemma Diagnostic.StandsAt.of_same {d e : Diagnostic} {p : Position} (h : e.StandsAt p)
    (hline : e.line = d.line) (hcolumn : e.column = d.column) : d.StandsAt p :=
  ⟨hline.symm.trans h.1, hcolumn.symm.trans h.2⟩

/-- Of two diagnostics the one that stands first is shown first. -/
lemma Report.sorted_pair {d e : Diagnostic} (h : d.before e = false) : Report.sorted [d, e] = [e, d] := by
  simp [Report.sorted, List.mergeSort, List.MergeSort.Internal.splitInTwo, h]

namespace Reading

variable {source : List Char} {withDump : Bool} {d e : Diagnostic}

/-- Every error is a fault of the text as tokens or of the tokens as a program. -/
lemma kind_of_mem_errors (he : e ∈ (check source withDump).errors) :
    e.kind = .grammatical ∨ e.kind = .lexical ∧
      ∃ f ∈ (TokenStream.ofText source).faults, e = .ofFault f := by
  obtain ⟨f, hf, rfl⟩ := List.mem_map.mp (List.mem_mergeSort.mp he)
  rcases List.mem_append.mp hf with hf | hf
  · cases hlexical : f.isLexical with
    | true => exact .inr ⟨by simp [Diagnostic.ofFault, Diagnostic.at_, DiagnosticKind.ofFault, hlexical],
        f, hf, rfl⟩
    | false =>
      exact .inl (by simp [Diagnostic.ofFault, Diagnostic.at_, DiagnosticKind.ofFault, hlexical])
  · have hgrammatical := (SyntaxTree.raised_ofTokens _ _ f hf).grammatical
    exact .inl (by simp [Diagnostic.ofFault, Diagnostic.at_, DiagnosticKind.ofFault, hgrammatical])

/-- An error that is not lexical stands where a token begins or ends. -/
lemma exists_token_of_ne_lexical (he : e ∈ (check source withDump).errors) (hkind : e.kind ≠ .lexical) :
    ∃ t ∈ (TokenStream.ofText source).tokens, e.StandsAt t.span.start ∨ e.StandsAt t.span.stop := by
  obtain ⟨f, hf, rfl⟩ := List.mem_map.mp (List.mem_mergeSort.mp he)
  rcases List.mem_append.mp hf with hf | hf
  · have hlexical : f.isLexical = true := (TokenStream.lexical_of_mem_faults _ f hf).isLexical
    exact absurd (by simp [Diagnostic.ofFault, Diagnostic.at_, DiagnosticKind.ofFault, hlexical]) hkind
  · obtain ⟨t, ht, hat⟩ := (SyntaxTree.raised_ofTokens _ _ f hf).raisedAt
    rw [supplied_ofText] at ht
    have hstands {p : Position} (hp : f.span.start = p) : (Diagnostic.ofFault f).StandsAt p :=
      hp ▸ ⟨rfl, rfl⟩
    exact ⟨t, ht, hat.imp hstands fun hpoint => hstands (congrArg Span.start hpoint)⟩

/-- No lexical error stands at the place of a first error of the grammar. -/
lemma ne_lexical_of_head? (hfirst : (check source withDump).errors.head? = some d)
    (hkind : d.kind = .grammatical) (he : e ∈ (check source withDump).errors) (hline : e.line = d.line)
    (hcolumn : e.column = d.column) : e.kind ≠ .lexical := by
  intro hlexical
  obtain ⟨ds, hds⟩ := List.head?_eq_some_iff.mp hfirst
  have hsorted : ((check source withDump).errors).Pairwise fun d e => d.before e = true :=
    Report.pairwise_sorted _
  rw [hds] at hsorted he
  rcases List.mem_cons.mp he with rfl | he
  · simp [hkind] at hlexical
  · have hbefore := (List.pairwise_cons.mp hsorted).1 e he
    simp [Diagnostic.before, hline, hcolumn, hkind, hlexical, DiagnosticKind.rank] at hbefore

/-- A text that is cut behind the line of its first error has no error of another kind at the place of that
error.  If the first error is one of the grammar, the cut must go through no heredoc and no continued line,
the scanner must go back to no literal in front of the cut, and nothing that the cut leaves open may begin
at the place of the error.  If it is a lexical one, it must stand where no token begins or ends: at a token
the grammar may find an error too, even in a text that is not cut. -/
theorem check_firstLines (source : List Char) (withDump : Bool) {d : Diagnostic}
    (hfirst : (check source withDump).errors.head? = some d)
    (hcut : d.kind = .grammatical → CutClean (firstLines d.line source) ∧
      StraightTo (Source.byteLength (firstLines d.line source)) source)
    (hopen : d.kind = .grammatical → ∀ f ∈ (TokenStream.ofText (firstLines d.line source)).faults,
      d.StandsAt f.span.start → f.cause.leavesOpen = false)
    (hplace : d.kind = .lexical → ∀ t ∈ (TokenStream.ofText (firstLines d.line source)).tokens,
      ¬ d.StandsAt t.span.start ∧ ¬ d.StandsAt t.span.stop) :
    ∀ e ∈ (check (firstLines d.line source) withDump).errors,
      e.line = d.line → e.column = d.column → e.kind = d.kind := by
  intro e he hline hcolumn
  have hd : d ∈ (check source withDump).errors := List.mem_of_head? hfirst
  rcases kind_of_mem_errors hd with hgrammatical | ⟨hlexical, -⟩
  · rcases kind_of_mem_errors he with hkind | ⟨hkind, f, hf, rfl⟩
    · rw [hkind, hgrammatical]
    exfalso
    obtain ⟨hclean, hback⟩ := hcut hgrammatical
    obtain ⟨tail, hsource, htail⟩ := exists_append_firstLines d.line source
    generalize firstLines d.line source = cut at *
    subst hsource
    have hclosed := hopen hgrammatical f hf ⟨hline.symm, hcolumn.symm⟩
    have hfault := TokenStream.mem_faults_of_cut htail hclean hback hf hclosed
    have herror : Diagnostic.ofFault f ∈ (check (cut ++ tail) withDump).errors :=
      List.mem_mergeSort.mpr (List.mem_map_of_mem (List.mem_append_left _ hfault))
    exact ne_lexical_of_head? hfirst hgrammatical herror hline hcolumn hkind
  · by_contra hne
    obtain ⟨t, ht, hat⟩ := exists_token_of_ne_lexical he (hlexical ▸ hne)
    obtain ⟨hstart, hstop⟩ := hplace hlexical t ht
    rcases hat with hat | hat
    · exact hstart (hat.of_same hline hcolumn)
    · exact hstop (hat.of_same hline hcolumn)

/-- A method that is never closed, with a string in its first line and a string behind it that is never
closed either, which is gone back to. -/
theorem check_firstLines_method :
    let source := "def m(s = \"a\")\n  p s\nt = \"b\nputs \"c\"\n".toList
    let d : Diagnostic :=
      ⟨.grammatical, "unexpected end of input, expected `end` to close `def`", 1, 1⟩
    (check source false).errors.head? = some d ∧ d.kind = .grammatical ∧
      CutClean (firstLines d.line source) ∧
      StraightTo (Source.byteLength (firstLines d.line source)) source ∧
      (∀ f ∈ (TokenStream.ofText (firstLines d.line source)).faults, d.StandsAt f.span.start →
        f.cause.leavesOpen = false) ∧
      (check (firstLines d.line source) false).errors ≠ [] ∧
      ∀ e ∈ (check (firstLines d.line source) false).errors,
        e.line = d.line → e.column = d.column → e.kind = d.kind := by
  intro source d
  have hfaults : (ofText .standard source).tree.faults.map .ofFault =
      [⟨.lexical, "unterminated string literal", 3, 5⟩, d] := by decide +kernel
  have hfirst : (check source false).errors.head? = some d := by
    change (Report.sorted ((ofText .standard source).tree.faults.map .ofFault)).head? = some d
    rw [hfaults, Report.sorted_pair (by decide)]
    rfl
  have hcut : CutClean (firstLines d.line source) :=
    { straight := straight_of_finish (by decide +kernel)
      heredocs := fun s hs _ r hr => by
        have hnone := resume_eq_none_of_visited (by decide +kernel) hs
        simp [hnone] at hr
      continued := by decide +kernel }
  have hback : StraightTo (Source.byteLength (firstLines d.line source)) source :=
    straightTo_of_finish (by decide +kernel)
  have hopen : ∀ f ∈ (TokenStream.ofText (firstLines d.line source)).faults, d.StandsAt f.span.start →
      f.cause.leavesOpen = false := by decide +kernel
  exact ⟨hfirst, rfl, hcut, hback, hopen, by decide +kernel,
    check_firstLines source false hfirst (fun _ => ⟨hcut, hback⟩) (fun _ => hopen) (by simp [d])⟩

/-- A string behind a number is an error of the grammar.  Cut behind the line where it begins, the string
never closes, which is an error of another kind at the same place. -/
theorem not_check_firstLines :
    let source := "1 \"abc\ndef\"\n".toList
    let d : Diagnostic := ⟨.grammatical, "unexpected `\"`, expected newline or `;`", 1, 3⟩
    (check source false).errors.head? = some d ∧
      ¬ ∀ e ∈ (check (firstLines d.line source) false).errors,
        e.line = d.line → e.column = d.column → e.kind = d.kind := by
  intro source d
  refine ⟨by decide +kernel, fun hsame => ?_⟩
  have herror : (⟨.lexical, "unterminated string literal", 1, 3⟩ : Diagnostic) ∈
      (check (firstLines d.line source) false).errors :=
    List.mem_mergeSort.mpr (by decide +kernel)
  exact absurd (hsame _ herror rfl rfl) (by decide)

end Reading

end RubyCheck
