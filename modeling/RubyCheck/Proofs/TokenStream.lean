import Mathlib.Data.List.Chain
import RubyCheck.Proofs.Scanner.Apart
import RubyCheck.Proofs.Scanner.Closing
import RubyCheck.Proofs.Scanner.Return
import RubyCheck.Proofs.Scanner.Wording

/-!
# What the tokens of a text are

The theorems about scanners at work, put together for whole texts: reading ends, the tokens stand
where their spans say, they are well bracketed, and they have no byte in common if no heredoc is read
over.  In a text without heredocs they and the gaps between them make up the text, and a literal that
never closes ends on its line.
-/

namespace RubyCheck.TokenStream

open Scanner

/-! ### Reading ends -/

/-- Reading a text comes to its end, and more steps than are allowed would change nothing. -/
theorem exists_run (source : List Char) :
    ∃ s, (∀ fuel, stepsFor source.length ≤ fuel → run fuel (Scanner.ofText source) = some s) ∧
      ofText source = .ofScanner s := by
  have hsafe : Safe (Placed source) (Scanner.ofText source) :=
    .outer (sound_ofText (placed_ofText source))
  have hsome := run_isSome hsafe (effort_lt_stepsFor hsafe.holds)
  obtain ⟨s, hs⟩ := Option.isSome_iff_exists.mp hsome
  refine ⟨s, fun fuel hfuel => run_mono hfuel hs, ?_⟩
  have hfinish : (Scanner.ofText source).finish = some s := hs
  rw [ofText, hfinish]
  rfl

lemma tokens_ofScanner (s : Scanner) :
    (ofScanner s).tokens = s.tokens.reverse ++ [endToken s.cursor.position] := by
  simp [ofScanner]

/-- The tokens of a text end with the end of the text, which counts as set off, and it stands nowhere
else. -/
lemma exists_endToken (source : List Char) :
    ∃ ts p, (ofText source).tokens = ts ++ [endToken p] ∧ ∀ t ∈ ts, t.kind ≠ .eof := by
  obtain ⟨s, hrun, hstream⟩ := exists_run source
  refine ⟨s.tokens.reverse, s.cursor.position, ?_, fun t ht heof => ?_⟩
  · rw [hstream, tokens_ofScanner]
  · have hbracketed := (bracketed_of_run (hrun _ le_rfl)).1
    exact absurd heof (ne_eof_of_enclosed hbracketed t (List.mem_reverse.mp ht))

/-- Reading a text comes to its end, its last token and no other is the end of the text, and the
cursor moves backwards only where an opener is gone back to that never was before, or at a line
break behind which bodies of heredocs end; and this cannot go on forever, in no state that is passed
through. -/
theorem ofText_ends (source : List Char) :
    (∃ s, (∀ fuel, stepsFor source.length ≤ fuel → run fuel (Scanner.ofText source) = some s) ∧
      ofText source = .ofScanner s) ∧
    (∃ ts e, (ofText source).tokens = ts ++ [e] ∧ e.kind = .eof ∧ ∀ t ∈ ts, t.kind ≠ .eof) ∧
    (∀ s s', Visited source s → Turn s s' → s'.cursor.position.byte < s.cursor.position.byte →
      (∃ opener, GoesBack s s' opener) ∨ Jumps s s') ∧
    (∀ s s' : Scanner, s.endOfText = .more s' →
      ∃ opener ∉ s.singleLine, s'.singleLine = opener :: s.singleLine) ∧
    ∀ states n, Visited source (states 0) → Turns states n →
      n < stepsFor source.length ∧
        ∀ i j a b, i < j → j < n → GoesBack (states i) (states (i + 1)) a →
          GoesBack (states j) (states (j + 1)) b → a ≠ b := by
  refine ⟨exists_run source, ?_, ?_, fun s s' h => singleLine_of_endOfText h, ?_⟩
  · obtain ⟨ts, p, hend, hts⟩ := exists_endToken source
    exact ⟨ts, endToken p, hend, rfl, hts⟩
  · rintro s s' h ⟨fuel, hstep⟩ hback
    exact back_or_jump h.safe hstep hback
  · intro states n h hturns
    exact ⟨hturns.lt_stepsFor h, fun i j a b hij hj hi hj' => hturns.goesBack_ne h hij hj hi hj'⟩

/-! ### Places -/

lemma at_of_mem_ofText (source : List Char) : ∀ t ∈ (ofText source).tokens, t.At source := by
  intro t ht
  obtain ⟨s, hrun, hstream⟩ := exists_run source
  have hplaced := placed_of_run (hrun _ le_rfl)
  rw [hstream, tokens_ofScanner, List.mem_append, List.mem_reverse, List.mem_singleton] at ht
  rcases ht with ht | rfl
  · exact hplaced.tokens t ht
  · exact Token.at_empty .eof hplaced.cursor.exact

lemma exact_of_mem_faults (source : List Char) :
    ∀ f ∈ (ofText source).faults, f.span.Exact source := by
  intro f hf
  obtain ⟨s, hrun, hstream⟩ := exists_run source
  rw [hstream, ofScanner, List.mem_reverse] at hf
  exact (placed_of_run (hrun _ le_rfl)).faults f hf

/-- Every fault that is found in splitting a text into tokens is lexical, and worded on one line. -/
lemma lexical_of_mem_faults (source : List Char) : ∀ f ∈ (ofText source).faults, f.cause.Lexical := by
  intro f hf
  obtain ⟨s, hrun, hstream⟩ := exists_run source
  rw [hstream, ofScanner, List.mem_reverse] at hf
  exact worded_of_run (hrun _ le_rfl) f hf

/-- Every token has the text between the two ends of its span, which are exact positions in their
order, and every fault has a span with such ends. -/
theorem ofText_placed (source : List Char) :
    (∀ t ∈ (ofText source).tokens,
      Source.slice? source t.span.start.byte t.span.stop.byte = some t.text.toList ∧
        t.span.start.byte ≤ t.span.stop.byte ∧
        t.span.start.Exact source ∧ t.span.stop.Exact source) ∧
    ∀ f ∈ (ofText source).faults,
      f.span.start.byte ≤ f.span.stop.byte ∧
        f.span.start.Exact source ∧ f.span.stop.Exact source := by
  constructor
  · intro t ht
    have hat := at_of_mem_ofText source t ht
    exact ⟨hat.slice?_eq, hat.exact.start_le_stop, hat.exact.start, hat.exact.stop⟩
  · intro f hf
    have hexact := exact_of_mem_faults source f hf
    exact ⟨hexact.start_le_stop, hexact.start, hexact.stop⟩

/-! ### Brackets -/

/-- The tokens in front of the end of the text are well bracketed, nothing is left open there, and
content is never empty. -/
theorem ofText_bracketed (source : List Char) :
    ∃ ts e, (ofText source).tokens = ts ++ [e] ∧ e.kind = .eof ∧
      (ts.map (·.kind)).foldlM enclose [] = some [] ∧
      ∀ t ∈ ts, t.kind = .stringContent → t.text ≠ "" := by
  obtain ⟨s, hrun, hstream⟩ := exists_run source
  obtain ⟨henclosed, hcontent⟩ := bracketed_of_run (hrun _ le_rfl)
  refine ⟨s.tokens.reverse, endToken s.cursor.position, ?_, rfl, ?_, ?_⟩
  · rw [hstream, tokens_ofScanner]
  · rw [← enclosed_eq_foldlM, henclosed]
  · exact fun t ht => hcontent t (List.mem_reverse.mp ht)

/-! ### Gaps -/

/-- In a text without two angle brackets in a row, tokens and gaps make up the text that was read. -/
lemma exists_tiling {source : List Char} (hsource : ¬ "<<".toList <:+: source) :
    ∃ before, Tiling source (ofText source).faults before (ofText source).tokens.reverse := by
  obtain ⟨s, hrun, hstream⟩ := exists_run source
  obtain ⟨⟨-, before, -, hposition, htiling⟩, -⟩ := tiled_of_run hsource (hrun _ le_rfl)
  have hreverse : (ofText source).tokens.reverse = endToken s.cursor.position :: s.tokens := by
    rw [hstream, tokens_ofScanner]
    simp
  rw [hreverse]
  refine ⟨before, (htiling.mono fun f hf => ?_).empty ?_⟩
  · rw [hstream]
    exact List.mem_reverse.mpr hf
  · rw [show s.cursor.position = _ from hposition]
    rfl

/-- In a text without two angle brackets in a row, a gap is in front of every token. -/
lemma follows_of_ofText {source : List Char} (hsource : ¬ "<<".toList <:+: source)
    {newer older : List Token} {t : Token}
    (htokens : (ofText source).tokens.reverse = newer ++ t :: older) :
    (lastStop older).Follows source (ofText source).faults t.span.start := by
  obtain ⟨before, htiling⟩ := exists_tiling hsource
  rw [htokens] at htiling
  exact htiling.follows

/-- In a text without two angle brackets in a row, the tokens are in their order, and in front of
the first one and between any two there is nothing but a gap; if the end of the text is not at its
end, the line that ends the program follows. -/
theorem ofText_tiled (source : List Char) (hsource : ¬ "<<".toList <:+: source) :
    (∀ t ts, (ofText source).tokens = t :: ts →
      Position.origin.Follows source (ofText source).faults t.span.start) ∧
    (∀ ts t u us, (ofText source).tokens = ts ++ t :: u :: us →
      t.span.stop.byte ≤ u.span.start.byte ∧
        t.span.stop.Follows source (ofText source).faults u.span.start) ∧
    ∀ ts e, (ofText source).tokens = ts ++ [e] →
      ∃ before rest, source = before ++ rest ∧ e.span = .point (.behind before) ∧
        (rest = [] ∨
          (Position.behind before).column = 0 ∧ ∃ after, rest = "__END__".toList ++ after ∧
            (after = [] ∨ (∃ behind, after = '\n' :: behind) ∨
              ∃ behind, after = '\r' :: '\n' :: behind)) := by
  refine ⟨fun t ts htokens => ?_, fun ts t u us htokens => ?_, fun ts e htokens => ?_⟩
  · have htokens' : (ofText source).tokens.reverse = ts.reverse ++ t :: [] := by simp [htokens]
    exact follows_of_ofText hsource htokens'
  · have htokens' : (ofText source).tokens.reverse = us.reverse ++ u :: t :: ts.reverse := by
      simp [htokens]
    have h := follows_of_ofText hsource htokens'
    exact ⟨h.byte_le, h⟩
  · obtain ⟨s, hrun, hstream⟩ := exists_run source
    obtain ⟨⟨-, before, hbefore, hposition, -⟩, hend⟩ := tiled_of_run hsource (hrun _ le_rfl)
    have he : e = endToken s.cursor.position := by
      rw [hstream, tokens_ofScanner] at htokens
      exact (List.singleton_inj.mp (List.append_inj' htokens rfl).2).symm
    refine ⟨before, s.cursor.rest, hbefore, ?_, ?_⟩
    · rw [he, show s.cursor.position = _ from hposition]
      rfl
    · rcases hend with hrest | ⟨-, hline, hmarker⟩
      · exact .inl hrest
      · have hcolumn : s.cursor.position.column = 0 := by simpa [Cursor.atLineStart] using hline
        rw [show s.cursor.position = _ from hposition] at hcolumn
        exact .inr ⟨hcolumn, eq_of_atEndMarker hmarker⟩

/-- A text with a comment, a continued line and a character that begins no token. -/
theorem ofText_tiled_comment :
    ¬ "<<".toList <:+: "a \\\n \x01 # b\n__END__\n".toList ∧
      ∀ ts t u us, (ofText "a \\\n \x01 # b\n__END__\n".toList).tokens = ts ++ t :: u :: us →
        t.span.stop.byte ≤ u.span.start.byte ∧
          t.span.stop.Follows "a \\\n \x01 # b\n__END__\n".toList
            (ofText "a \\\n \x01 # b\n__END__\n".toList).faults u.span.start :=
  ⟨by decide, (ofText_tiled _ (by decide)).2.1⟩

/-- A token that ends where another one begins or before. -/
def Before (t u : Token) : Prop :=
  t.span.start.byte ≤ t.span.stop.byte ∧ t.span.stop.byte ≤ u.span.start.byte ∧
    u.span.start.byte ≤ u.span.stop.byte

instance : Trans Before Before Before where
  trans h h' := ⟨h.1, h.2.1.trans (h'.1.trans h'.2.1), h'.2.2⟩

lemma before_ofText (source : List Char) (hsource : ¬ "<<".toList <:+: source) :
    (ofText source).tokens.IsChain Before := by
  have hinorder : ∀ t ∈ (ofText source).tokens, t.span.start.byte ≤ t.span.stop.byte :=
    fun t ht => (at_of_mem_ofText source t ht).exact.start_le_stop
  refine List.isChain_iff_forall_rel_of_append_cons_cons.mpr fun t u ts us htokens => ?_
  have hmem : t ∈ (ofText source).tokens ∧ u ∈ (ofText source).tokens := by simp [htokens]
  have htokens' : (ofText source).tokens.reverse = us.reverse ++ u :: t :: ts.reverse := by
    simp [htokens]
  have hgap := follows_of_ofText hsource htokens'
  exact ⟨hinorder t hmem.1, hgap.byte_le, hinorder u hmem.2⟩

/-! ### No text is read twice -/

/-- A text without two angle brackets in a row opens no heredoc. -/
lemma passesBodies_ofText {source : List Char} (hsource : ¬ "<<".toList <:+: source) :
    PassesBodies source (ofText source).tokens := by
  intro t ht _ hopens
  obtain ⟨before, middle, rest, hsplit, htext, -⟩ := at_of_mem_ofText source t ht
  have hmiddle : t.text.toList = middle := by rw [htext, String.toList_ofList]
  have hbegins : "<<".toList <+: middle := hmiddle ▸ List.isPrefixOf_iff_prefix.mp hopens
  exact absurd (hsplit ▸ hbegins.isInfix.trans (List.infix_append before middle rest)) hsource

/-- No byte is in two tokens, if every line on which a heredoc opens is read to its end in code: then
reading jumps behind its body where that line ends. -/
theorem ofText_apart (source : List Char) (hpass : PassesBodies source (ofText source).tokens) :
    (ofText source).tokens.Pairwise fun t u => t.span.Apart u.span := by
  obtain ⟨s, hrun, hstream⟩ := exists_run source
  rw [hstream, tokens_ofScanner] at hpass ⊢
  have hapart := apart_of_run (hrun _ le_rfl)
    (hpass.of_subset fun t ht => List.mem_append_left _ (List.mem_reverse.mpr ht))
  refine List.pairwise_append.mpr
    ⟨List.pairwise_reverse.mpr (hapart.imp Span.Apart.symm), List.pairwise_singleton _ _, ?_⟩
  intro t _ e he
  obtain rfl := List.mem_singleton.mp he
  exact t.span.apart_point _

/-- A text with two heredocs on one line, one of them with code and with another heredoc inside, and
with a left shift. -/
theorem ofText_apart_heredocs :
    PassesBodies "f <<A, <<~B\n#\x7bg <<C\nc\nC\n\x7d a\nA\n  b\n  B\np x << 1\n".toList
        (ofText "f <<A, <<~B\n#\x7bg <<C\nc\nC\n\x7d a\nA\n  b\n  B\np x << 1\n".toList).tokens ∧
      (ofText "f <<A, <<~B\n#\x7bg <<C\nc\nC\n\x7d a\nA\n  b\n  B\np x << 1\n".toList).tokens.Pairwise
        fun t u => t.span.Apart u.span :=
  ⟨by decide +kernel, ofText_apart _ (by decide +kernel)⟩

/-- A text with a heredoc whose line break is inside a string: its body is read twice, in the heredoc
and in the string. -/
theorem ofText_not_apart :
    ¬ (ofText "f <<A, \"x\nb\nA\ny\" # \"\n".toList).tokens.Pairwise
      fun t u => t.span.Apart u.span := by
  intro h
  have hbyte := List.pairwise_iff_getElem.mp h 2 6 (by decide +kernel) (by decide +kernel)
    (by decide) 10
  revert hbyte
  decide +kernel

/-! ### Literals that never close -/

/-- In a text without two angle brackets in a row, every opening token opens a literal that is closed;
and if the closing token has no text, as the text never wrote the delimiter, then no line break in
the content of the literal lacks a backslash, and the literal is closed on the line of its opener,
but for escaped line breaks and the lines of the code inside it. -/
theorem ofText_cut (source : List Char) (hsource : ¬ "<<".toList <:+: source) :
    (∀ t ∈ (ofText source).tokens, t.kind = .stringBegin ∨ t.kind = .regexBegin →
      ∃ l ∈ literals (ofText source).tokens, l.opening = t) ∧
    ∀ l ∈ literals (ofText source).tokens, l.closing.text = "" → l.Cut := by
  obtain ⟨s, hrun, hstream⟩ := exists_run source
  obtain ⟨hopen, hcut⟩ := cut_of_run hsource (hrun _ le_rfl)
  have hliterals : literals (ofText source).tokens = (reading s.tokens).closed := by
    rw [hstream, ofScanner, literals_reverse, reading, Literals.read_plain (.inr rfl)]
  rw [hliterals]
  refine ⟨fun t ht hkind => ?_, hcut⟩
  rw [hstream, tokens_ofScanner, List.mem_append, List.mem_reverse, List.mem_singleton] at ht
  rcases ht with ht | rfl
  · exact hopen t ht hkind
  · rcases hkind with hkind | hkind <;> simp [endToken, Token.empty] at hkind

/-- A stray quote, with code over a line break in its literal and more code on the next line. -/
theorem ofText_cut_quote :
    ¬ "<<".toList <:+: "p \"a#\x7b1\n\x7db\nq\n".toList ∧
      (∃ l ∈ literals (ofText "p \"a#\x7b1\n\x7db\nq\n".toList).tokens, l.closing.text = "") ∧
      ∀ l ∈ literals (ofText "p \"a#\x7b1\n\x7db\nq\n".toList).tokens,
        l.closing.text = "" → l.Cut :=
  ⟨by decide, by decide +kernel, (ofText_cut _ (by decide)).2⟩

/-! ### Going back -/

/-- A text is read in turns, and whenever one of them goes back to an opener, the scanner is in an
earlier state again, the one in which the literal opens there.  All that is left of what came in
between is the names that were learnt and the literals that end on their line.  But the state is not
restored as a whole: that a name is being defined or the parameters of a block are being read is
cleared, and so is the last literal of several lines.  In `def "#{if }` with two line breaks behind it,
`if` is a name when it is read first and a keyword when it is read again. -/
theorem ofText_comesBack (source : List Char) :
    ∃ (states : ℕ → Scanner) (n : ℕ) (s : Scanner),
      states 0 = Scanner.ofText source ∧ Turns states n ∧
      (∃ fuel, (states n).step (run fuel) = some (.done s)) ∧ ofText source = .ofScanner s ∧
      ∀ j < n, ∀ opener, GoesBack (states j) (states (j + 1)) opener →
        ∃ i < j, (states i).InCode ∧ ((states i).opening? (states i).spaceSeen).isSome = true ∧
          (states i).cursor.position.byte = opener ∧
          states (j + 1) =
            (states i).revisited (states j).locals (opener :: (states j).singleLine) := by
  obtain ⟨s, hrun, hstream⟩ := exists_run source
  obtain ⟨states, n, hstart, hsteps, f, -, hdone⟩ := exists_turns (hrun _ le_rfl)
  have hturns : Turns states n := by
    intro i hi
    obtain ⟨f, -, hmore⟩ := hsteps i hi
    exact ⟨f, hmore⟩
  exact ⟨states, n, s, hstart, hturns, ⟨f, hdone⟩, hstream,
    fun _ hj _ hback => hturns.comesBack hstart hj hback⟩

/-- A name that is assigned in what was given up stays known: scanning anew, with the string at the
beginning ending on its line from the outset, reads the slash behind it otherwise. -/
theorem ofText_ne_afresh :
    (Scanner.ofText "\"a\nb\"\ny = 1\n\"; y /2/\n".toList).finish.map (·.singleLine) = some [0] ∧
      { Scanner.ofText "\"a\nb\"\ny = 1\n\"; y /2/\n".toList with
        singleLine := [0] }.finish.map ofScanner ≠
          some (ofText "\"a\nb\"\ny = 1\n\"; y /2/\n".toList) := by
  decide +kernel

end RubyCheck.TokenStream
