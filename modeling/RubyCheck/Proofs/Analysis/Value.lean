import RubyCheck.Check
import RubyCheck.Proofs.Analysis.Repeated
import RubyCheck.Proofs.Nesting
import RubyCheck.Proofs.SyntaxTree
import RubyCheck.Proofs.Tree.Meaning

/-!
# Values of a `case` that count as equal

A value of a `case` is found to be repeated if an earlier one has its value.  Two literals with one
value denote alike: the same number, the same name, the same content or the same body.  But they may
differ in the options of a regular expression and in how the content of a text is taken, so that a
clause can be found to be ignored which is not.  Besides, the value of a `%q` literal is its whole
text, and a symbol between wide delimiters has no name in its value; such a literal may be mistaken
for another one (`Node.Mistaken`).
-/

namespace RubyCheck

open Analysis

namespace Node

variable {ts : List Token} {n m : Node} {v : LiteralValue}

/-- A literal has the value of another one that is not alike. -/
inductive Mistaken (ts : List Token) : Node → Node → Prop
  /-- The content of the other one is the whole text of a `%q` literal. -/
  | percent {n m : Node} {t : Token} {manner : Manner} : n.IsToken ts .string t →
      t.kind = .percentLiteral → m.Denotes ts (.text t.text manner) → Mistaken ts n m
  /-- The other one is a symbol without a name. -/
  | wide {n m : Node} {t : Token} {manner : Manner} : n.IsToken ts .symbol t → t.kind = .symbol →
      t.Wide → m.Denotes ts (.symbol "" manner) → Mistaken ts n m
  | bothWide {n m : Node} {t t' : Token} : n.IsToken ts .symbol t → t.kind = .symbol → t.Wide →
      m.IsToken ts .symbol t' → t'.kind = .symbol → t'.Wide → Mistaken ts n m

/-- Two literals denote alike. -/
def Alike (ts : List Token) (n m : Node) : Prop :=
  ∃ d d', n.Denotes ts d ∧ m.Denotes ts d' ∧ d.Alike d'

lemma Alike.symm (h : n.Alike ts m) : m.Alike ts n := by
  obtain ⟨d, d', hd, hd', halike⟩ := h
  exact ⟨d', d, hd', hd, Meaning.value_eq_iff.mp (Meaning.value_eq_iff.mpr halike).symm⟩

/-- A literal whose value is kept of what it denotes, and another one with that value. -/
lemma Denotes.alike_or_mistaken {d : Meaning} (hd : n.Denotes ts d) (hv : d.value = v)
    (hm : m.Valued ts v) : n.Alike ts m ∨ m.Mistaken ts n := by
  cases hm with
  | @kept d' hd' => exact .inl ⟨d, d', hd, hd', Meaning.value_eq_iff.mp hv⟩
  | percent ht hkind hcs =>
    cases d with
    | text content manner =>
      obtain rfl := LiteralValue.string.inj hv
      exact .inr (.percent ht hkind hd)
    | _ => cases hv
  | wide ht hkind hwide =>
    cases d with
    | symbol name manner =>
      obtain rfl := LiteralValue.symbol.inj hv
      exact .inr (.wide ht hkind hwide hd)
    | _ => cases hv

/-- Two literals with the same value denote alike, unless one is mistaken for the other. -/
lemma Valued.alike_or_mistaken (hn : n.Valued ts v) (hm : m.Valued ts v) :
    n.Alike ts m ∨ n.Mistaken ts m ∨ m.Mistaken ts n := by
  cases hn with
  | kept hd => exact (hd.alike_or_mistaken rfl hm).imp_right .inr
  | @percent t cs ht hkind hcs =>
    generalize hv : LiteralValue.string t.text = v at hm
    cases hm with
    | kept hd =>
      rcases hd.alike_or_mistaken hv.symm (.percent ht hkind hcs) with halike | hmistaken
      · exact .inl halike.symm
      · exact .inr (.inl hmistaken)
    | percent ht' hkind' hcs' =>
      have hsame := hcs
      rw [LiteralValue.string.inj hv] at hsame
      obtain rfl := hsame.unique hcs'
      exact .inl ⟨_, _, .percent ht hkind hcs, .percent ht' hkind' hcs', .same _⟩
    | wide => cases hv
  | @wide t ht hkind hwide =>
    generalize hv : LiteralValue.symbol "" = v at hm
    cases hm with
    | kept hd =>
      rcases hd.alike_or_mistaken hv.symm (.wide ht hkind hwide) with halike | hmistaken
      · exact .inl halike.symm
      · exact .inr (.inl hmistaken)
    | percent => cases hv
    | wide ht' hkind' hwide' =>
      exact .inr (.inl (.bothWide ht hkind hwide ht' hkind' hwide'))

/-- What the clauses of a `case` compare with stands in it. -/
lemma everywhere_of_mem_comparedLiterals {P : Node → Prop} {choice : Node}
    (h : choice.Everywhere P) (hn : n ∈ comparedLiterals choice) :
    n.Everywhere P ∧ n.literal?.isSome = true := by
  obtain ⟨hmem, hsome⟩ := List.mem_filter.mp hn
  obtain ⟨clause, hclause, hvalue⟩ := List.mem_flatMap.mp hmem
  have hbelow := h.children clause (List.mem_of_mem_filter hclause)
  refine ⟨?_, hsome⟩
  split at hvalue
  · cases hvalue
  · rename_i values body hchildren
    exact (hbelow.children values (by simp [hchildren])).children n hvalue

end Node

namespace Reading

variable {limits : Limits} {source : List Char}

/-- In a text without faults, two values of a `case` that count as equal denote alike, unless one is
mistaken for the other: numbers are the same, and so are the names of symbols, the contents of texts
and the bodies of regular expressions, but neither need the options be nor how a text is taken. -/
theorem alike_of_literal?_eq (hnone : (ofText limits source).tree.faults = []) :
    ∀ p ∈ (ofText limits source).tree.root.outline 0,
      ∀ n ∈ comparedLiterals p.2, ∀ m ∈ comparedLiterals p.2, n.literal? = m.literal? →
        n.Alike (ofText limits source).stream.tokens m ∨
          n.Mistaken (ofText limits source).stream.tokens m ∨
            m.Mistaken (ofText limits source).stream.tokens n := by
  intro p hp n hn m hm heq
  have hwhole := SyntaxTree.whole_of_ofText (List.append_eq_nil_iff.mp hnone).1
  have hspelled : (ofText limits source).tree.root.Everywhere
      (Node.Spelled (ofText limits source).stream.tokens) := by
    obtain ⟨ts, e, htokens, he, -⟩ := (TokenStream.ofText_ends source).2.1
    have hspelled := SyntaxTree.spelled_ofTokens limits (TokenStream.ofText source).tokens
    rwa [Tape.supplied_eq htokens he] at hspelled
  have hchoice := hspelled.everywhere.of_mem_outline hp
  obtain ⟨hn, hsome⟩ := Node.everywhere_of_mem_comparedLiterals hchoice hn
  obtain ⟨hm, -⟩ := Node.everywhere_of_mem_comparedLiterals hchoice hm
  obtain ⟨v, hv⟩ := Option.isSome_iff_exists.mp hsome
  exact (Node.valued_of_literal? hwhole hn hv).alike_or_mistaken
    (Node.valued_of_literal? hwhole hm (heq ▸ hv))

/-- A number in two bases. -/
theorem alike_of_literal?_eq_ten :
    let reading := ofText .standard "case x\nwhen 10\n1\nwhen 0xA\n2\nend\n".toList
    reading.tree.faults = [] ∧ ∃ n m : Node, n.text = some "10" ∧ m.text = some "0xA" ∧
      n.literal? = m.literal? ∧
        (n.Alike reading.stream.tokens m ∨ n.Mistaken reading.stream.tokens m ∨
          m.Mistaken reading.stream.tokens n) := by
  intro reading
  have hnone : reading.tree.faults = [] := by decide +kernel
  obtain ⟨p, hp, n, hn, m, hm, htext, htext', heq⟩ :
      ∃ p ∈ reading.tree.root.outline 0, ∃ n ∈ comparedLiterals p.2, ∃ m ∈ comparedLiterals p.2,
        n.text = some "10" ∧ m.text = some "0xA" ∧ n.literal? = m.literal? := by
    decide +kernel
  exact ⟨hnone, n, m, htext, htext', heq, alike_of_literal?_eq hnone p hp n hn m hm heq⟩

/-- Two regular expressions that denote different things, as they have different options, count as
equal. -/
theorem unlike_of_options :
    let reading := ofText .standard "case x\nwhen /a/\n1\nwhen /a/i\n2\nend\n".toList
    reading.tree.faults = [] ∧ reading.findings = [⟨.duplicateValue "/a/" 2, ⟨23, 3, 5⟩⟩] ∧
      ∃ p ∈ reading.tree.root.outline 0, ∃ n ∈ comparedLiterals p.2, ∃ m ∈ comparedLiterals p.2,
        n.literal? = m.literal? ∧ n.Denotes reading.stream.tokens (.regex "a" ∅) ∧
          m.Denotes reading.stream.tokens (.regex "a" {'i'}) ∧
            ∀ d, n.Denotes reading.stream.tokens d → ¬m.Denotes reading.stream.tokens d := by
  intro reading
  obtain ⟨p, hp, n, hn, m, hm, heq, hkind, hspan, hkind', hspan'⟩ :
      ∃ p ∈ reading.tree.root.outline 0, ∃ n ∈ comparedLiterals p.2, ∃ m ∈ comparedLiterals p.2,
        n.literal? = m.literal? ∧ n.kind = .regex ∧ n.span = ⟨⟨12, 1, 5⟩, ⟨15, 1, 8⟩⟩ ∧
          m.kind = .regex ∧ m.span = ⟨⟨23, 3, 5⟩, ⟨27, 3, 9⟩⟩ := by
    decide +kernel
  refine ⟨by decide +kernel, by decide +kernel, p, hp, n, hn, m, hm, heq, ?_, ?_, ?_⟩
  · let q : Quotation :=
      ⟨⟨.regexBegin, "/", ⟨⟨12, 1, 5⟩, ⟨13, 1, 6⟩⟩, true, false⟩,
        [⟨.stringContent, "a", ⟨⟨13, 1, 6⟩, ⟨14, 1, 7⟩⟩, false, false⟩],
        ⟨.stringEnd, "/", ⟨⟨14, 1, 7⟩, ⟨15, 1, 8⟩⟩, false, false⟩⟩
    have hdenotes : n.Denotes reading.stream.tokens (.regex q.body q.options) :=
      .regex ⟨hkind, by decide +kernel, hspan⟩ ⟨rfl, by decide, rfl⟩
    have hd : Meaning.regex q.body q.options = .regex "a" ∅ := by decide +kernel
    rwa [hd] at hdenotes
  · let q : Quotation :=
      ⟨⟨.regexBegin, "/", ⟨⟨23, 3, 5⟩, ⟨24, 3, 6⟩⟩, true, false⟩,
        [⟨.stringContent, "a", ⟨⟨24, 3, 6⟩, ⟨25, 3, 7⟩⟩, false, false⟩],
        ⟨.stringEnd, "/i", ⟨⟨25, 3, 7⟩, ⟨27, 3, 9⟩⟩, false, false⟩⟩
    have hdenotes : m.Denotes reading.stream.tokens (.regex q.body q.options) :=
      .regex ⟨hkind', by decide +kernel, hspan'⟩ ⟨rfl, by decide, rfl⟩
    have hd : Meaning.regex q.body q.options = .regex "a" {'i'} := by decide +kernel
    rwa [hd] at hdenotes
  · intro d hd hd'
    obtain ⟨body, rfl⟩ : ∃ body, d = .regex body ∅ := by
      refine hd.exists_body hkind ?_
      rw [hspan]
      decide +kernel
    obtain ⟨body', hbody⟩ : ∃ body', Meaning.regex body ∅ = .regex body' {'i'} := by
      refine hd'.exists_body hkind' ?_
      rw [hspan']
      decide +kernel
    exact absurd (Meaning.regex.inj hbody).2 (by decide)

end Reading

end RubyCheck
