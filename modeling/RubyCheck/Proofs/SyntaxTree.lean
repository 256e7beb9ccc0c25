import Mathlib.Data.List.DropRight
import RubyCheck.Proofs.Grammar.Order
import RubyCheck.Proofs.Grammar.Program
import RubyCheck.Proofs.Grammar.Scope
import RubyCheck.Proofs.Grammar.Variable
import RubyCheck.Proofs.Scanner.Remember
import RubyCheck.Proofs.Scanner.Spelling
import RubyCheck.Proofs.TokenStream

/-!
# What the trees of texts are

The theorems about the grammar, put together for all tokens, and with those about tokens for whole
texts.  Reading comes to an end of the text and makes a tree whose nodes have the children of
their kinds and, if the tokens stand in order, stand in order themselves.  The uses of variables are
names of the text, and the slash behind a name that the tokens tell to be a variable divides.  In a
text without faults, which names are variables follows from the scopes of the tree.
-/

namespace RubyCheck.SyntaxTree

open Scanner

/-! ### Ends -/

/-- Whatever the tokens are, reading gives a tree and stands at an end of the text: at the first one,
unless reading was given up, and then at the last token.  And whatever a statement comes to, every
round of a list of statements leaves fewer tokens to the next one, or ends the list at the end of the
text or at a token where the list stops. -/
theorem ofTokens_ends (limits : Limits) (tokens : List Token) {levels : ℕ}
    (hlevels : tokens.length < levels) :
    (∃ root s before, Grammar.program levels (.ofTokens limits tokens) = .ok root s ∧
      s.tape.kind = .eof ∧ Tape.supplied tokens = before ++ s.tape.current :: s.tape.ahead ∧
      (s.gaveUp = false → ∀ t ∈ before, t.kind ≠ .eof) ∧ (s.gaveUp = true → s.tape.ahead = [])) ∧
    ∀ (levels : ℕ) (stops : List TokenKind) (seen : List Node) (s : Grammar.State),
      s.tape.Ends → s.tape.left ≤ levels →
        ∃ round s', Grammar.statementRound ⟨levels + 1, Grammar.production levels⟩ stops seen s =
            .ok round s' ∧ round.Progresses stops s s' := by
  constructor
  · obtain ⟨ns, s', hrun, -, hreads, hkind⟩ :=
      Grammar.program_reads (s := .ofTokens limits tokens) (Tape.ends_ofTokens tokens)
        (Nat.lt_of_le_of_lt (Tape.left_ofTokens_le tokens) hlevels)
    have hpasses : Grammar.Passes (.ofTokens limits tokens) s'.leaveScope :=
      .inScope true hreads.passes
    obtain ⟨before, htokens, hover, hbefore⟩ :=
      hpasses.reached (Grammar.reached_ofTokens limits tokens)
    exact ⟨_, _, before, hrun, hkind, htokens, hbefore, hover⟩
  · intro levels stops seen s hends hleft
    exact Grammar.statementRound_progresses levels stops seen hends hleft

/-- A closer that closes nothing, where one fault is all that may be reported. -/
theorem ofTokens_ends_closer :
    (TokenStream.ofText ")\nx\n".toList).tokens.length < 6 ∧
      ∃ root s before, Grammar.program 6
          (.ofTokens ⟨1, 2, by decide, by decide⟩ (TokenStream.ofText ")\nx\n".toList).tokens) =
            .ok root s ∧
        s.tape.kind = .eof ∧
        Tape.supplied (TokenStream.ofText ")\nx\n".toList).tokens =
          before ++ s.tape.current :: s.tape.ahead ∧
        (s.gaveUp = false → ∀ t ∈ before, t.kind ≠ .eof) ∧
        (s.gaveUp = true → s.tape.ahead = []) := by
  have hlevels : (TokenStream.ofText ")\nx\n".toList).tokens.length < 6 := by decide +kernel
  exact ⟨hlevels, (ofTokens_ends ⟨1, 2, by decide, by decide⟩ _ hlevels).1⟩

/-- Of two ends of the text, reading stands at the second one if one fault is all that may be reported
and a closer that closes nothing is in front of them.  And the list of statements in brackets ends in a
round that takes no token and is not at the end of the text. -/
theorem ofTokens_ends_secondEnd :
    let closer : Token := { Token.empty (.punct .rParen) .origin with text := ")" }
    let first := TokenStream.endToken ⟨1, 0, 1⟩
    let second := TokenStream.endToken ⟨2, 0, 2⟩
    let s : Grammar.State :=
      .ofTokens ⟨1, 2, by decide, by decide⟩ [closer, first, second]
    (∃ root s', Grammar.program 4 s = .ok root s' ∧ s'.tape.kind = .eof ∧
      Tape.supplied [closer, first, second] =
        [closer, first] ++ s'.tape.current :: s'.tape.ahead ∧ first.kind = .eof) ∧
    ∃ round s', Grammar.statementRound ⟨4, Grammar.production 3⟩ [.punct .rParen] [] s = .ok round s' ∧
      s'.tape = s.tape ∧ s'.tape.kind ≠ .eof := by
  intro closer first second s
  refine ⟨⟨_, _, rfl, rfl, rfl, rfl⟩, ⟨_, _, rfl, rfl, ?_⟩⟩
  decide

/-! ### Layouts -/

/-- Whatever the tokens are, every node of their tree has the children of its kind. -/
theorem ofTokens_laidOut (limits : Limits) (tokens : List Token) :
    (ofTokens limits tokens).root.Everywhere Node.LaidOut := by
  obtain ⟨ns, s', hreads, hfits, -, htree⟩ := exists_reads limits tokens
  rw [htree]
  exact .intro hfits hreads.laidOut

/-! ### Order -/

/-- If the tokens stand in order, the nodes of their tree begin one behind another in pre-order, and
none of them ends before it begins. -/
theorem ofTokens_inOrder (limits : Limits) {tokens : List Token} (htokens : Token.InOrder tokens) :
    ((ofTokens limits tokens).root.listing.map fun p => p.2.span.start).Pairwise (· ≤ ·) ∧
      ∀ p ∈ (ofTokens limits tokens).root.listing, p.2.span.start ≤ p.2.span.stop := by
  obtain ⟨ns, s', hreads, -, -, htree⟩ := exists_reads limits tokens
  have hfrom : ((Grammar.State.ofTokens limits tokens).enterScope true).tape.From
      (Grammar.State.ofTokens limits tokens).start :=
    ⟨Tape.inOrder_supplied htokens, le_refl _⟩
  have hroot : Node.Ascends (Grammar.State.ofTokens limits tokens).start
      [(ofTokens limits tokens).root] s'.start := by
    rw [htree]
    exact .one (le_refl _) (Position.le_later _ _) (hreads.ascends hfrom)
  have hlisting : (ofTokens limits tokens).root.listing =
      Node.outlineEach 0 [(ofTokens limits tokens).root] := by
    simp [Node.listing_eq, Node.outlineEach]
  rw [hlisting]
  exact ⟨hroot.pairwise, hroot.start_le_stop⟩

/-- An array that is never closed, and a statement behind it. -/
theorem ofTokens_inOrder_unclosed :
    Token.InOrder (TokenStream.ofText "x = [1\ny".toList).tokens ∧
      ((ofTokens .standard (TokenStream.ofText "x = [1\ny".toList).tokens).root.listing.map
        fun p => p.2.span.start).Pairwise (· ≤ ·) := by
  have htokens : Token.InOrder (TokenStream.ofText "x = [1\ny".toList).tokens := by
    decide +kernel
  exact ⟨htokens, (ofTokens_inOrder .standard htokens).1⟩

/-! ### Variables -/

/-- Without its colons a label begins as it did. -/
lemma head?_labelName {label : String} {c : Char} (hhead : c ∈ label.toList.head?) (hc : c ≠ ':') :
    c ∈ (Grammar.labelName label).toList.head? := by
  have hname : (Grammar.labelName label).toList = label.toList.rdropWhile (· == ':') :=
    String.toList_ofList
  obtain ⟨colons, happend⟩ := List.rdropWhile_prefix (· == ':') (l := label.toList)
  have hne : label.toList.rdropWhile (· == ':') ≠ [] := by
    rw [Ne, List.rdropWhile_eq_nil_iff]
    intro hall
    exact hc (by simpa using hall c (List.mem_of_mem_head? hhead))
  rw [← happend, List.head?_append_of_ne_nil _ hne] at hhead
  rwa [hname]

/-- A name that begins with no dot can be that of a variable. -/
lemma ne_of_head? {name : String} {c : Char} (hhead : c ∈ name.toList.head?) (hc : c ≠ '.') :
    name ≠ "" ∧ name ≠ "..." := by
  constructor
  · rintro rfl
    simp at hhead
  · rintro rfl
    exact hc (Option.mem_unique hhead rfl)

/-- A token whose spelling is right can name a variable if it can name anything. -/
lemma named_of_spelled {t : Token} (h : t.Spelled) : Grammar.Named t := by
  rintro name (hkind | hkind)
  · obtain ⟨c, hhead, hdot, -⟩ := h.1 (.inl hkind)
    exact ne_of_head? hhead hdot
  · obtain ⟨c, hhead, hdot, hcolon⟩ := h.1 (.inr hkind)
    exact ne_of_head? (head?_labelName hhead hcolon) hdot

/-- The tokens of a text are spelled as their kinds are. -/
lemma spelled_of_ofText (source : List Char) :
    ∀ t ∈ (TokenStream.ofText source).tokens, t.Spelled := by
  obtain ⟨s, hrun, hstream⟩ := TokenStream.exists_run source
  intro t ht
  rw [hstream, TokenStream.tokens_ofScanner, List.mem_append, List.mem_reverse] at ht
  rcases ht with ht | ht
  · exact spelled_of_run (hrun _ le_rfl) t ht
  · obtain rfl := List.mem_singleton.mp ht
    exact spelled_of_ne (by simp [TokenStream.endToken, Token.empty])
      (by simp [TokenStream.endToken, Token.empty])

/-- The tokens of a text without faults are whole. -/
lemma whole_of_ofText {source : List Char} (hnone : (TokenStream.ofText source).faults = []) :
    ∀ t ∈ (TokenStream.ofText source).tokens, t.Whole := by
  obtain ⟨s, hrun, hstream⟩ := TokenStream.exists_run source
  rw [hstream] at hnone ⊢
  rw [TokenStream.tokens_ofScanner, List.forall_mem_append, List.forall_mem_singleton]
  have hwhole := whole_of_run (hrun _ le_rfl) (List.reverse_eq_nil_iff.mp hnone)
  refine ⟨fun t ht => hwhole t (List.mem_reverse.mp ht), ?_⟩
  exact Token.whole_of_ne (by simp [TokenStream.endToken, Token.empty])

/-- The tokens of a text can name variables. -/
lemma named_of_ofText (source : List Char) :
    ∀ t ∈ (TokenStream.ofText source).tokens, Grammar.Named t :=
  fun t ht => named_of_spelled (spelled_of_ofText source t ht)

/-- Without a fault, the bare names of a text are resolved in its tree. -/
lemma resolved_ofText {limits : Limits} {source : List Char}
    (hok : (ofText limits source).faults = []) :
    Resolved [] (ofText limits source).root.situated := by
  obtain ⟨ts, p, hend, -⟩ := TokenStream.exists_endToken source
  set tokens := (TokenStream.ofText source).tokens with htokens
  obtain ⟨ns, s', hreads, -, -, htree⟩ := exists_reads limits tokens
  have hfaults : s'.faults = #[] := by
    have htail : (ofTokens limits tokens).faults = [] := (List.append_eq_nil_iff.mp hok).2
    rw [htree] at htail
    exact Array.toList_eq_nil_iff.mp htail
  have hnamed : ((Grammar.State.ofTokens limits tokens).enterScope true).Named := by
    change ∀ t ∈ Tape.supplied tokens, Grammar.Named t
    rw [Tape.supplied_eq hend rfl]
    exact named_of_ofText source
  have htold := hreads.told hfaults hnamed Grammar.Agrees.outermost
  have hopens (span : Span) :
      (Node.inner .program span ns).opens = some (true, ([] : List Node).length) := rfl
  change Resolved [] (ofTokens limits tokens).root.situated
  rw [htree, Node.situated, Node.situate_of_opens_some (hopens _) rfl]
  exact .cons (by simp [Node.isBareName, Node.inner]) htold.resolved

/-- In the tree of a text that has no fault, a bare name is a local variable exactly if a node in
front of it in pre-order makes a variable of that name and can be seen from it: the innermost scope
around that node is the innermost one around the name, or is around it with no closed scope in
between. -/
theorem ofText_resolved (limits : Limits) (source : List Char)
    (hok : (ofText limits source).faults = []) {before after : List (Scopes × Node)}
    {around : Scopes} {n : Node}
    (hn : (ofText limits source).root.situated = before ++ (around, n) :: after)
    (hname : n.isBareName = true) :
    n.kind = .localVariable ↔ ∃ p ∈ before, p.2.declares = true ∧ p.2.name = n.name ∧
      ∃ scope ∈ p.1.head?, scope.1 ∈ visible around := by
  have hresolved := resolved_ofText hok
  rw [hn] at hresolved
  rw [hresolved.of_mem hname, List.nil_append]
  constructor
  · rintro ⟨opener, hvisible, hmade⟩
    obtain ⟨p, hp, hdeclares, hsame, scope, hscope, rfl⟩ := mem_declarations.mp hmade
    exact ⟨p, hp, hdeclares, hsame, scope, hscope, hvisible⟩
  · rintro ⟨p, hp, hdeclares, hsame, scope, hscope, hvisible⟩
    exact ⟨scope.1, hvisible, mem_declarations.mpr ⟨p, hp, hdeclares, hsame, scope, hscope, rfl⟩⟩

/-- A block that reads the variable of the line above. -/
theorem ofText_resolved_block :
    (ofText .standard "x = 1\neach \x7b |y| x \x7d\n".toList).faults = [] ∧
      ∃ before around n after,
        (ofText .standard "x = 1\neach \x7b |y| x \x7d\n".toList).root.situated =
          before ++ (around, n) :: after ∧
        n.isBareName = true ∧ n.kind = .localVariable ∧ 1 < around.length ∧
        ∃ p ∈ before, p.2.declares = true ∧ p.2.name = n.name ∧
          ∃ scope ∈ p.1.head?, scope.1 ∈ visible around := by
  set source := "x = 1\neach \x7b |y| x \x7d\n".toList
  set nodes := (ofText .standard source).root.situated
  have hok : (ofText .standard source).faults = [] := by decide +kernel
  obtain ⟨hlength, hname, hkind, haround⟩ : ∃ _ : 9 < nodes.length,
      nodes[9].2.isBareName = true ∧ nodes[9].2.kind = .localVariable ∧ 1 < nodes[9].1.length := by
    decide +kernel
  have hsplit : nodes = nodes.take 9 ++ (nodes[9].1, nodes[9].2) :: nodes.drop 10 := by
    rw [← List.drop_eq_getElem_cons hlength, List.take_append_drop]
  exact ⟨hok, _, _, _, _, hsplit, hname, hkind, haround,
    (ofText_resolved .standard source hok hsplit hname).mp hkind⟩

end RubyCheck.SyntaxTree
