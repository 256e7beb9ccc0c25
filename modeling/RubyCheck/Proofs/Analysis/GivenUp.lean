import RubyCheck.Proofs.Check
import RubyCheck.Proofs.Analysis.Finding
import RubyCheck.Proofs.Grammar.Apart
import RubyCheck.Proofs.Grammar.Program
import RubyCheck.Proofs.Scanner.Spelling
import RubyCheck.Proofs.TokenStream

/-!
# Regions that are given up are not warned about

In a text without two angle brackets in a row, nothing is found inside a region that was given up:
no node that a finding may point at begins there, and tokens there are not looked at.  A token that
a rule looks at and that begins in no such region is found exactly once.
-/

namespace RubyCheck

namespace TokenStream

/-- The tokens of code and the openings of literals in a text cover some of it. -/
lemma written_ofText (source : List Char) : ∀ t ∈ (ofText source).tokens, t.Written := by
  obtain ⟨s, hrun, hstream⟩ := exists_run source
  rw [hstream, tokens_ofScanner]
  refine List.forall_mem_append.mpr ⟨fun t ht => ?_, ?_⟩
  · exact Scanner.written_of_run (hrun _ le_rfl) t (List.mem_reverse.mp ht)
  · exact List.forall_mem_singleton.mpr (Scanner.written_of_not rfl)

/-- The tokens of a text are in order by their bytes. -/
lemma rises_ofText (source : List Char) (hsource : ¬ "<<".toList <:+: source) :
    (Tape.ofTokens (ofText source).tokens).Rises 0 := by
  have htokens : (Tape.ofTokens (ofText source).tokens).current ::
      (Tape.ofTokens (ofText source).tokens).ahead = (ofText source).tokens :=
    Reading.supplied_ofText source
  refine ⟨?_, ?_, ?_, Nat.zero_le _⟩
  · rw [htokens]
    exact fun t ht => ⟨(at_of_mem_ofText source t ht).exact.start_le_stop, written_ofText source t ht⟩
  · rw [htokens]
    exact (before_ofText source hsource).imp fun t u h => h.2.1
  · cases (ofText source).tokens with
    | nil => simp [Tape.ofTokens]
    | cons t ts => simp [Tape.ofTokens]

end TokenStream

/-- Whether a finding is about a single token at some place. -/
def Finding.isOfTokenAt (at_ : Position) (f : Finding) : Bool :=
  f.cause.isOfToken && f.position == at_

namespace Reading

open Grammar (State)

variable {limits : Limits} {source : List Char}

/-- No node that is pointed at begins in a region that was given up. -/
lemma apart_of_listing (limits : Limits) (hsource : ¬ "<<".toList <:+: source) :
    (ofText limits source).tree.root.Everywhere
      (Analysis.Pointed fun position => ∀ p ∈ (ofText limits source).tree.root.listing,
        p.2.kind = .error → p.2.span.contains position.byte = false) := by
  obtain ⟨ns, s', hreads, -, -, htree⟩ :=
    SyntaxTree.exists_reads limits (TokenStream.ofText source).tokens
  set root := (ofText limits source).tree.root
  have hroot : root = .inner .program ⟨_, _⟩ ns := congrArg SyntaxTree.root htree
  have hinside := hreads.apart (TokenStream.rises_ofText source hsource)
  have hapart : Node.Apart
      (State.ofTokens limits (TokenStream.ofText source).tokens).start.byte [root]
      s'.start.byte := by
    rw [hroot]
    exact .unheld hinside (by simp [Node.inner]) rfl
  have hparts : ∀ {depth : ℕ}, ∀ p ∈ root.outline depth, p.2 ∈ Node.parts [root] := by
    intro depth p hp
    rw [← Node.map_outlineEach depth]
    refine List.mem_map_of_mem ?_
    rw [Node.outlineEach]
    exact List.mem_append_left _ hp
  refine Node.everywhere_of_outline root fun q (hq : q ∈ root.outline 0) hpointed p hp hkind => ?_
  rw [Node.listing_eq] at hp
  have hheld : q.2.isHeld = true := by
    rw [Node.isHeld, hpointed, Bool.true_or]
  have h := hapart.apart q.2 (hparts q hq) p.2 (hparts p hp) hheld hkind
  simp only [Span.contains, Bool.and_eq_false_iff, decide_eq_false_iff_not]
  omega

/-- A token at which something is found covers some text. -/
lemma isWritten_of_tokenFinding? {t : Token} {f : Finding}
    (h : Analysis.tokenFinding? t = some f) : t.kind.isWritten = true := by
  unfold Analysis.tokenFinding? at h
  split at h
  · rename_i hkind
    rw [hkind]
    rfl
  · rename_i hkind
    rw [hkind]
    rfl
  · simp at h

/-- Tokens that begin elsewhere show nothing at some place. -/
lemma filter_tokenFindings_eq_nil {given : List Span} {at_ : Position} {ts : List Token}
    (hts : ∀ u ∈ ts, u.kind.isWritten = true → u.span.start ≠ at_) :
    (Analysis.tokenFindings given ts).filter (·.isOfTokenAt at_) = [] := by
  refine List.filter_eq_nil_iff.mpr fun f hf hat => ?_
  obtain ⟨u, hu, hfound⟩ := List.mem_filterMap.mp hf
  refine hts u (List.mem_filter.mp hu).1 (isWritten_of_tokenFinding? hfound) ?_
  rw [← Analysis.position_of_tokenFinding? hfound]
  exact eq_of_beq (Bool.and_eq_true_iff.mp hat).2

/-- Where no other token begins, only what a token shows is found. -/
lemma filter_tokenFindings {given : List Span} {t : Token} {f : Finding} {ts us : List Token}
    (hf : Analysis.tokenFinding? t = some f)
    (hgiven : ∀ span ∈ given, span.contains t.span.start.byte = false)
    (hts : ∀ u ∈ ts, u.kind.isWritten = true → u.span.start ≠ t.span.start)
    (hus : ∀ u ∈ us, u.kind.isWritten = true → u.span.start ≠ t.span.start) :
    (Analysis.tokenFindings given (ts ++ t :: us)).filter
      (·.isOfTokenAt t.span.start) = [f] := by
  have houtside : (!given.any (·.contains t.span.start.byte)) = true := by
    simpa using hgiven
  have hshown : Analysis.tokenFindings given (ts ++ t :: us) =
      Analysis.tokenFindings given ts ++ f :: Analysis.tokenFindings given us := by
    unfold Analysis.tokenFindings
    rw [List.filter_append, List.filterMap_append, List.filter_cons, if_pos houtside,
      List.filterMap_cons_some hf]
  have hhere : f.isOfTokenAt t.span.start = true := by
    rw [Finding.isOfTokenAt, Analysis.isOfToken_of_tokenFinding? hf,
      Analysis.position_of_tokenFinding? hf]
    exact beq_self_eq_true _
  rw [hshown, List.filter_append, List.filter_cons, if_pos hhere, filter_tokenFindings_eq_nil hts,
    filter_tokenFindings_eq_nil hus, List.nil_append]

/-- A token at which something can be found begins where no other such token does. -/
lemma ne_start_of_tokens {t : Token} {ts us : List Token} (hsource : ¬ "<<".toList <:+: source)
    (htokens : (TokenStream.ofText source).tokens = ts ++ t :: us) (ht : t.kind.isWritten = true) :
    (∀ u ∈ ts, u.kind.isWritten = true → u.span.start ≠ t.span.start) ∧
      ∀ u ∈ us, u.kind.isWritten = true → u.span.start ≠ t.span.start := by
  have horder := (TokenStream.before_ofText source hsource).pairwise
  have hwritten := TokenStream.written_ofText source
  rw [htokens] at horder hwritten
  obtain ⟨-, hbehind, hbefore⟩ := List.pairwise_append.mp horder
  constructor
  · intro u hu hkind hstart
    have hlt := hwritten u (List.mem_append_left _ hu) hkind
    have hle := (hbefore u hu t List.mem_cons_self).2.1
    rw [hstart] at hlt
    omega
  · intro u hu hkind hstart
    have hlt := hwritten t (List.mem_append_right _ List.mem_cons_self) ht
    have hle := ((List.pairwise_cons.mp hbehind).1 u hu).2.1
    rw [hstart] at hle
    omega

/-- What a token shows that begins in no region that was given up is found there, once. -/
lemma filter_findings (limits : Limits) {t : Token} {f : Finding}
    (hsource : ¬ "<<".toList <:+: source) (ht : t ∈ (ofText limits source).stream.tokens)
    (hgiven : ∀ p ∈ (ofText limits source).tree.root.listing,
      p.2.kind = .error → p.2.span.contains t.span.start.byte = false)
    (hf : Analysis.tokenFinding? t = some f) :
    (ofText limits source).findings.filter
      (·.isOfTokenAt t.span.start) = [f] := by
  obtain ⟨ts, us, htokens⟩ := List.append_of_mem ht
  have hne := ne_start_of_tokens hsource htokens (isWritten_of_tokenFinding? hf)
  have hspans : ∀ span ∈ (ofText limits source).tree.errorSpans,
      span.contains t.span.start.byte = false := by
    refine List.forall_mem_map.mpr fun p hp => ?_
    have hlisted := List.mem_filter.mp hp
    exact hgiven p hlisted.1 (by simpa using hlisted.2)
  have hothers : (Analysis.treeFindings (ofText limits source).tree).filter
      (·.isOfTokenAt t.span.start) = [] := by
    refine List.filter_eq_nil_iff.mpr fun g hg hat => ?_
    have hcause := (Analysis.points_treeFindings (apart_of_listing limits hsource) g hg).1
    rw [Finding.isOfTokenAt, hcause, Bool.false_and] at hat
    exact absurd hat Bool.false_ne_true
  rw [findings, Analysis.findings, List.filter_append, hothers, htokens, List.nil_append]
  exact filter_tokenFindings hf hspans hne.1 hne.2

/-- In a text without two angle brackets in a row, nothing is found inside a region that was given
up, and every octal integer and every regular expression that could have been a division is found
exactly once if it begins in no such region. -/
theorem findings_apart (limits : Limits) (source : List Char)
    (hsource : ¬ "<<".toList <:+: source) :
    (∀ f ∈ (ofText limits source).findings, ∀ p ∈ (ofText limits source).tree.root.listing,
      p.2.kind = .error → p.2.span.contains f.position.byte = false) ∧
    ∀ t ∈ (ofText limits source).stream.tokens,
      (∀ p ∈ (ofText limits source).tree.root.listing,
        p.2.kind = .error → p.2.span.contains t.span.start.byte = false) →
      (t.kind = .legacyOctal → (ofText limits source).findings.filter
        (·.isOfTokenAt t.span.start) =
          [⟨.legacyOctal t.text, t.span.start⟩]) ∧
      (t.kind = .regexBegin → t.ambiguous = true → (ofText limits source).findings.filter
        (·.isOfTokenAt t.span.start) =
          [⟨.ambiguousRegex, t.span.start⟩]) := by
  refine ⟨List.forall_mem_append.mpr ⟨fun f hf => ?_, fun f hf => ?_⟩, fun t ht hgiven => ⟨?_, ?_⟩⟩
  · exact (Analysis.points_treeFindings (apart_of_listing limits hsource) f hf).2
  · obtain ⟨t, ht, hfound⟩ := List.mem_filterMap.mp hf
    rw [Analysis.position_of_tokenFinding? hfound]
    intro p hp hkind
    have houtside := (List.mem_filter.mp ht).2
    simp only [Bool.not_eq_true', List.any_eq_false, Bool.not_eq_true] at houtside
    refine houtside p.2.span (List.mem_map_of_mem (List.mem_filter.mpr ⟨hp, ?_⟩))
    exact beq_iff_eq.mpr hkind
  · intro hkind
    exact filter_findings limits hsource ht hgiven (by simp [Analysis.tokenFinding?, hkind])
  · intro hkind hambiguous
    refine filter_findings limits hsource ht hgiven ?_
    simp [Analysis.tokenFinding?, hkind, hambiguous]

/-- Octal integers in front of a statement that was given up and in it. -/
theorem findings_apart_octal :
    ¬ "<<".toList <:+: "010\nx = 011 +\n".toList ∧
      ∃ t ∈ (ofText .standard "010\nx = 011 +\n".toList).stream.tokens,
        t.kind = .legacyOctal ∧
          (∀ p ∈ (ofText .standard "010\nx = 011 +\n".toList).tree.root.listing,
            p.2.kind = .error → p.2.span.contains t.span.start.byte = false) ∧
          (ofText .standard "010\nx = 011 +\n".toList).findings.filter
            (·.isOfTokenAt t.span.start) = [⟨.legacyOctal t.text, t.span.start⟩] := by
  set source := "010\nx = 011 +\n".toList
  have hsource : ¬ "<<".toList <:+: source := by decide
  obtain ⟨t, ht, hkind, hgiven⟩ : ∃ t ∈ (ofText .standard source).stream.tokens,
      t.kind = .legacyOctal ∧ ∀ p ∈ (ofText .standard source).tree.root.listing,
        p.2.kind = .error → p.2.span.contains t.span.start.byte = false := by
    rw [Node.listing_eq]
    decide +kernel
  have hfound := ((findings_apart .standard source hsource).2 t ht hgiven).1 hkind
  exact ⟨hsource, t, ht, hkind, hgiven, hfound⟩

end Reading

end RubyCheck
