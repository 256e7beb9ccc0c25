import RubyCheck.Proofs.Scanner.Line

/-!
# Lexemes are measured on the line

Names, numbers, symbols without quotes, characters and openers of percent literals have the same
length in any two texts that begin with the same line.
-/

namespace RubyCheck.Scanner

open Text

/-! ### Words -/

/-- A word and the blank behind it are found by looking at the line. -/
lemma atWord_lineAhead {word : List Char} (h : InLine word) (cs : List Char) :
    atWord word (lineAhead cs) = atWord word cs := by
  unfold atWord
  rw [← isPrefixOf_lineAhead h cs]
  by_cases hword : word.isPrefixOf (lineAhead cs) = true
  · have hlength := (List.isPrefixOf_iff_prefix.mp hword).length_le
    rw [← lineAhead_drop hlength]
    generalize cs.drop word.length = ds
    congr 1
    cases lineView ds with
    | endOfText => rfl
    | lineBreak ds => exact (by decide : true = isBlank '\n')
    | carriageReturn ds => exact (by decide : true = isBlank '\r')
    | more c ds hc => rw [lineAhead_cons_of_in hc]; rfl
  · rw [Bool.eq_false_iff.mpr hword, Bool.false_and, Bool.false_and]

/-! ### Names -/

/-- What goes on a name is on the line. -/
lemma within_continuesName : Within continuesName := by decide

/-- Whether an assignment follows can be told from the line. -/
lemma assigns_lineAhead (cs : List Char) : assigns (lineAhead cs) = assigns cs := by
  have hany (cs : List Char) : compoundAssignments.any (·.isPrefixOf (lineAhead cs)) =
      compoundAssignments.any (·.isPrefixOf cs) := any_isPrefixOf_lineAhead (by decide +kernel) cs
  unfold assigns
  rw [dropWhile_lineAhead (by decide)]
  generalize cs.dropWhile (fun c => c == ' ' || c == '\t') = ds
  cases lineView ds with
  | endOfText => rfl
  | lineBreak ds => rfl
  | carriageReturn ds => rfl
  | more c ds hc =>
    have hds := hany (c :: ds)
    rw [lineAhead_cons_of_in hc] at hds ⊢
    cases lineView ds with
    | endOfText => rfl
    | lineBreak ds => rw [lineAhead_lineBreak] at hds ⊢; grind
    | carriageReturn ds => rw [lineAhead_carriageReturn] at hds ⊢; grind
    | more d ds hd => rw [lineAhead_cons_of_in hd] at hds ⊢; grind

/-- The length of a name can be told from the line. -/
lemma nameLength_lineAhead (cs : List Char) : nameLength (lineAhead cs) = nameLength cs := by
  unfold nameLength
  dsimp only
  rw [takeWhile_lineAhead within_continuesName, drop_takeWhile_lineAhead within_continuesName]
  generalize cs.drop (cs.takeWhile continuesName).length = ds
  cases lineView ds with
  | endOfText => rfl
  | lineBreak ds => rfl
  | carriageReturn ds => rfl
  | more c ds hc =>
    rw [lineAhead_cons_of_in hc]
    cases lineView ds with
    | endOfText => rfl
    | lineBreak ds => rw [lineAhead_lineBreak]; grind
    | carriageReturn ds => rw [lineAhead_carriageReturn]; grind
    | more d ds hd =>
      rw [lineAhead_cons_of_in hd]
      by_cases hmark : c = '?' ∨ c = '!'
      · by_cases hassign : d = '='
        · subst hassign
          rcases hmark with rfl | rfl <;> rfl
        · rcases hmark with rfl | rfl <;> simp [hassign]
      · rw [not_or] at hmark
        simp [hmark]

/-- A name is no longer than the text. -/
lemma nameLength_le (cs : List Char) : nameLength cs ≤ cs.length := by
  have hname := (List.takeWhile_prefix (l := cs) continuesName).length_le
  unfold nameLength
  dsimp only
  have hmark {c : Char} {ds : List Char}
      (h : cs.drop (cs.takeWhile continuesName).length = c :: ds) :
      (cs.takeWhile continuesName).length + 1 ≤ cs.length := by
    have := congrArg List.length h
    simp at this
    omega
  split
  · exact hname
  · exact hname
  · rename_i h
    exact hmark h
  · rename_i h
    exact hmark h
  · exact hname

/-- The length of a symbol made of a name can be told from the line. -/
lemma symbolNameLength_lineAhead (cs : List Char) :
    symbolNameLength (lineAhead cs) = symbolNameLength cs := by
  unfold symbolNameLength
  dsimp only
  rw [takeWhile_lineAhead within_continuesName, drop_takeWhile_lineAhead within_continuesName]
  generalize cs.drop (cs.takeWhile continuesName).length = ds
  cases lineView ds with
  | endOfText => rfl
  | lineBreak ds => rfl
  | carriageReturn ds => rfl
  | more c ds hc =>
    rw [lineAhead_cons_of_in hc]
    cases lineView ds with
    | endOfText => rfl
    | lineBreak ds => rw [lineAhead_lineBreak]; grind
    | carriageReturn ds => rw [lineAhead_carriageReturn]; grind
    | more d ds hd =>
      rw [lineAhead_cons_of_in hd]
      by_cases hmark : c = '?' ∨ c = '!'
      · by_cases hassign : d = '='
        · subst hassign
          rcases hmark with rfl | rfl <;> rfl
        · rcases hmark with rfl | rfl <;> simp [hassign]
      · rw [not_or] at hmark
        by_cases hassign : c = '='
        · subst hassign
          by_cases hother : d = '=' ∨ d = '~' ∨ d = '>'
          · rcases hother with rfl | rfl | rfl <;> rfl
          · simp only [not_or] at hother
            simp [hother]
        · simp [hmark, hassign]

/-- The name of a symbol is no longer than the text. -/
lemma symbolNameLength_le (cs : List Char) : symbolNameLength cs ≤ cs.length := by
  have hname := (List.takeWhile_prefix (l := cs) continuesName).length_le
  have hmark {c : Char} {ds : List Char}
      (h : cs.drop (cs.takeWhile continuesName).length = c :: ds) :
      (cs.takeWhile continuesName).length + 1 ≤ cs.length := by
    have := congrArg List.length h
    simp at this
    omega
  unfold symbolNameLength
  dsimp only
  split
  case h_3 h | h_4 h | h_8 h => exact hmark h
  all_goals exact hname

/-- The name of a global variable is measured on the line. -/
lemma globalNameLength?_lineAhead (cs : List Char) :
    globalNameLength? (lineAhead cs) = globalNameLength? cs := by
  cases lineView cs with
  | endOfText => rfl
  | lineBreak ds => rfl
  | carriageReturn ds => rfl
  | more c ds hc =>
    have hname := takeWhile_lineAhead within_continuesName (c :: ds)
    have hdigits := takeWhile_lineAhead (p := isAsciiDigit) (by decide) (c :: ds)
    rw [lineAhead_cons_of_in hc] at hname hdigits ⊢
    simp only [globalNameLength?, hname, hdigits, any_head?_lineAhead within_continuesName]

/-- The name of a global variable is no longer than the text. -/
lemma globalNameLength?_le {cs : List Char} {n : ℕ} (h : globalNameLength? cs = some n) :
    n ≤ cs.length := by
  unfold globalNameLength? at h
  split at h
  · simp at h
  rename_i c cs
  have hbegins (p : Char → Bool) := (List.takeWhile_prefix (l := c :: cs) p).length_le
  split at h
  · exact Option.some.inj h ▸ hbegins _
  split at h
  · exact Option.some.inj h ▸ hbegins _
  split at h
  · obtain rfl := Option.some.inj h
    cases cs with
    | nil => simp
    | cons d ds => split <;> simp
  split at h
  · exact Option.some.inj h ▸ by simp
  · simp at h

/-! ### Symbols and characters -/

/-- A second sigil stands on the same line as the first. -/
lemma sigils_le {c : Char} (hc : isInLine c = true) (cs : List Char) :
    (if c = '@' && cs.head? == some '@' then 2 else 1) ≤ (lineAhead (c :: cs)).length := by
  rw [lineAhead_cons_of_in hc, List.length_cons]
  split
  · rename_i hsecond
    simp only [Bool.and_eq_true, beq_iff_eq] at hsecond
    obtain ⟨ds, rfl⟩ : ∃ ds, cs = '@' :: ds := List.head?_eq_some_iff.mp hsecond.2
    rw [lineAhead_cons_of_in (by decide)]
    simp
  · omega

/-- The length of a symbol that is not quoted can be told from the line. -/
lemma symbolLength?_lineAhead {cs : List Char}
    (hquote : cs.head? ≠ some '"' ∧ cs.head? ≠ some '\'') :
    symbolLength? (lineAhead cs) = symbolLength? cs := by
  cases lineView cs with
  | endOfText => rfl
  | lineBreak ds => rfl
  | carriageReturn ds => rfl
  | more c ds hc =>
    have hsigils := lineAhead_drop (sigils_le hc ds)
    have hsymbol := symbolNameLength_lineAhead (c :: ds)
    have hinline : ∀ word ∈ symbolOperators, InLine word := by decide +kernel
    have hoperator := find?_isPrefixOf_lineAhead hinline (c :: ds)
    have hquoted : (decide (c = '"') || decide (c = '\'')) = false := by simpa using hquote
    rw [lineAhead_cons_of_in hc] at hsigils hsymbol hoperator ⊢
    simp only [symbolLength?, hsymbol, hoperator, head?_lineAhead (c := '@') (by decide), ← hsigils,
      any_head?_lineAhead (p := startsName) (by decide), takeWhile_lineAhead within_continuesName,
      hquoted]
    rfl

/-- How far a quoted text reaches is counted within the text. -/
lemma quotedEnd_le (quote : Char) (n : ℕ) (cs : List Char) :
    (quotedEnd quote n cs).1 ≤ n + cs.length := by
  fun_induction quotedEnd quote n cs with
  | case1 n => simp
  | case2 n => simp
  | case3 n c cs ih => simp only [List.length_cons]; omega
  | case4 n cs => simp
  | case5 n c cs _ _ _ ih => simp only [List.length_cons]; omega

/-- A symbol is no longer than the text. -/
lemma symbolLength?_le {cs : List Char} {n : ℕ} {complete : Bool}
    (h : symbolLength? cs = some (n, complete)) : n ≤ cs.length := by
  unfold symbolLength? at h
  split at h
  · simp at h
  rename_i c cs
  split at h
  · obtain ⟨rfl, -⟩ := Prod.mk.inj (Option.some.inj h)
    exact symbolNameLength_le (c :: cs)
  split at h
  · dsimp only at h
    generalize (if (decide (c = '@') && cs.head? == some '@') = true then 2 else 1) = k at h
    split at h
    · rename_i hstarts
      obtain ⟨rfl, -⟩ := Prod.mk.inj (Option.some.inj h)
      have hname := (List.takeWhile_prefix (l := (c :: cs).drop k) continuesName).length_le
      have hdrop : (c :: cs).drop k ≠ [] := by
        intro hnil
        simp [hnil] at hstarts
      have := List.length_pos_iff.mpr hdrop
      rw [List.length_drop] at hname this
      omega
    · simp at h
  split at h
  · obtain ⟨rfl, -⟩ := Prod.mk.inj (Option.some.inj h)
    have := quotedEnd_le c 1 cs
    rw [List.length_cons]
    omega
  · obtain ⟨op, hop, heq⟩ := Option.map_eq_some_iff.mp h
    obtain ⟨rfl, -⟩ := Prod.mk.inj heq
    have hstarts := List.find?_some hop
    exact (List.isPrefixOf_iff_prefix.mp hstarts).length_le

/-- The length of a character literal can be told from the line, unless it is a backslash. -/
lemma characterLength?_lineAhead {cs : List Char} (h : cs.head? ≠ some '\\') (mark : Char) :
    characterLength? (mark :: lineAhead cs) = characterLength? (mark :: cs) := by
  cases lineView cs with
  | endOfText => rfl
  | lineBreak ds => rfl
  | carriageReturn ds => rfl
  | more c ds hc =>
    have hslash : c ≠ '\\' := by simpa using h
    rw [lineAhead_cons_of_in hc]
    simp only [characterLength?, hslash, any_head?_lineAhead within_continuesName, if_false]

/-- A character is no longer than the text. -/
lemma characterLength?_le {cs : List Char} {n : ℕ} (h : characterLength? cs = some n) :
    n ≤ cs.length := by
  unfold characterLength? at h
  split at h
  · rename_i c ds
    split at h
    · simp at h
    split at h
    · obtain rfl := Option.some.inj h
      simp only [List.length_cons]
      omega
    split at h
    · simp at h
    · obtain rfl := Option.some.inj h
      simp
  · simp at h

/-! ### Percent literals -/

/-- A line does not end with the delimiter of a percent literal. -/
lemma percentOpener?_lineAhead (cs : List Char) :
    percentOpener? (lineAhead cs) = percentOpener? cs := by
  cases lineView cs with
  | endOfText => rfl
  | lineBreak ds => rfl
  | carriageReturn ds => rfl
  | more c ds hc =>
    rw [lineAhead_cons_of_in hc]
    by_cases hletter : isAsciiLetter c = true
    · cases lineView ds with
      | endOfText => rfl
      | lineBreak ds =>
        have hblank : isBlank '\n' = true := by decide
        simp [percentOpener?, hletter, hblank]
      | carriageReturn ds =>
        have hblank : isBlank '\r' = true := by decide
        simp [percentOpener?, hletter, hblank]
      | more d ds hd => rw [lineAhead_cons_of_in hd]; rfl
    · simp [percentOpener?, hletter]

/-! ### Numbers -/

namespace Numeral

/-- Digits and bars stand within a line. -/
lemma within_isDigitOrBar : Within isDigitOrBar := by decide

/-- Digits stand within a line. -/
lemma within_isAsciiDigit : Within isAsciiDigit := by decide

/-- A fraction is measured on the line. -/
lemma fractionLength_lineAhead (cs : List Char) :
    fractionLength (lineAhead cs) = fractionLength cs := by
  cases lineView cs with
  | endOfText => rfl
  | lineBreak ds => rfl
  | carriageReturn ds => rfl
  | more c ds hc =>
    rw [lineAhead_cons_of_in hc]
    by_cases hpoint : c = '.'
    · subst hpoint
      cases lineView ds with
      | endOfText => rfl
      | lineBreak ds => rfl
      | carriageReturn ds => rfl
      | more d ds hd =>
        have hdigits := takeWhile_lineAhead within_isDigitOrBar (d :: ds)
        rw [lineAhead_cons_of_in hd] at hdigits ⊢
        simp only [fractionLength, hdigits]
    · simp [fractionLength, hpoint]

/-- A fraction is no longer than the text. -/
lemma fractionLength_le (cs : List Char) : fractionLength cs ≤ cs.length := by
  unfold fractionLength
  split
  · rename_i c ds
    have hdigits := (List.takeWhile_prefix (l := c :: ds) isDigitOrBar).length_le
    split
    · rw [List.length_cons]
      omega
    · omega
  · omega

/-- An exponent is measured on the line. -/
lemma exponentLength_lineAhead (cs : List Char) :
    exponentLength (lineAhead cs) = exponentLength cs := by
  cases lineView cs with
  | endOfText => rfl
  | lineBreak ds => cases ds <;> rfl
  | carriageReturn ds => cases ds <;> rfl
  | more e ds he =>
    rw [lineAhead_cons_of_in he]
    cases lineView ds with
    | endOfText => rfl
    | lineBreak ds =>
      have hdigit : isAsciiDigit '\n' = false := by decide
      simp [exponentLength, hdigit]
    | carriageReturn ds =>
      have hdigit : isAsciiDigit '\r' = false := by decide
      simp [exponentLength, hdigit]
    | more c ds hc =>
      have hdigits := takeWhile_lineAhead within_isAsciiDigit (c :: ds)
      rw [lineAhead_cons_of_in hc] at hdigits ⊢
      simp only [exponentLength, hdigits, takeWhile_lineAhead within_isAsciiDigit,
        any_head?_lineAhead within_isAsciiDigit]

/-- An exponent is no longer than the text. -/
lemma exponentLength_le (cs : List Char) : exponentLength cs ≤ cs.length := by
  unfold exponentLength
  split
  · rename_i e c ds
    have hdigits := (List.takeWhile_prefix (l := c :: ds) isAsciiDigit).length_le
    have hmore := (List.takeWhile_prefix (l := ds) isAsciiDigit).length_le
    simp only [List.length_cons] at hdigits ⊢
    split_ifs <;> omega
  · omega

/-- The suffix of a number is measured on the line. -/
lemma suffixLength_lineAhead (cs : List Char) : suffixLength (lineAhead cs) = suffixLength cs := by
  cases lineView cs with
  | endOfText => rfl
  | lineBreak ds => rfl
  | carriageReturn ds => rfl
  | more c ds hc =>
    rw [lineAhead_cons_of_in hc]
    simp only [suffixLength, any_head?_lineAhead within_continuesName]

/-- The suffix of a number is no longer than the text. -/
lemma suffixLength_le (cs : List Char) : suffixLength cs ≤ cs.length := by
  unfold suffixLength
  split
  · split
    · simp
    · omega
  · omega

/-- The digits of no base end a line. -/
lemma within_baseDigit? {c : Char} {isDigit : Char → Bool} (h : baseDigit? c = some isDigit) :
    Within isDigit := by
  unfold baseDigit? at h
  split at h
  case h_9 => simp at h
  all_goals
    obtain rfl := Option.some.inj h
    decide

/-- A number with a prefix is measured on the line. -/
lemma ofPrefixed?_lineAhead (cs : List Char) : ofPrefixed? (lineAhead cs) = ofPrefixed? cs := by
  cases lineView cs with
  | endOfText => rfl
  | lineBreak ds => rfl
  | carriageReturn ds => rfl
  | more c ds hc =>
    have hdigits := takeWhile_lineAhead within_isDigitOrBar (c :: ds)
    rw [lineAhead_cons_of_in hc] at hdigits ⊢
    cases hbase : baseDigit? c with
    | none => simp only [ofPrefixed?, hbase, hdigits]
    | some isDigit =>
      simp only [ofPrefixed?, hbase, takeWhile_lineAhead (within_baseDigit? hbase)]

/-- A number with a prefix is no longer than the text, its zero included. -/
lemma ofPrefixed?_le {cs : List Char} {n : Numeral} (h : ofPrefixed? cs = some n) :
    n.length ≤ cs.length + 1 := by
  cases cs with
  | nil => simp [ofPrefixed?] at h
  | cons c cs =>
    rw [ofPrefixed?] at h
    have hdigits (p : Char → Bool) := (List.takeWhile_prefix (l := cs) p).length_le
    have hall := (List.takeWhile_prefix (l := c :: cs) isDigitOrBar).length_le
    simp only [List.length_cons] at hall ⊢
    split at h
    · rename_i isDigit hbase
      obtain rfl := Option.some.inj h
      have := hdigits isDigit
      dsimp only
      omega
    split at h
    · dsimp only at h
      split at h
      · obtain rfl := Option.some.inj h
        dsimp only
        omega
      · obtain rfl := Option.some.inj h
        dsimp only
        omega
    · simp at h

/-- A decimal number is measured on the line. -/
lemma ofDecimal_lineAhead (cs : List Char) : ofDecimal (lineAhead cs) = ofDecimal cs := by
  have hwhole := length_takeWhile_le_lineAhead within_isDigitOrBar cs
  have hfraction := fractionLength_le ((lineAhead cs).drop (cs.takeWhile isDigitOrBar).length)
  rw [List.length_drop] at hfraction
  unfold ofDecimal
  dsimp only
  rw [takeWhile_lineAhead within_isDigitOrBar, ← lineAhead_drop hwhole, fractionLength_lineAhead,
    ← lineAhead_drop, exponentLength_lineAhead]
  rw [← lineAhead_drop hwhole, fractionLength_lineAhead] at hfraction
  omega

/-- A decimal number is no longer than the text. -/
lemma ofDecimal_le (cs : List Char) : (ofDecimal cs).length ≤ cs.length := by
  have hwhole := (List.takeWhile_prefix (l := cs) isDigitOrBar).length_le
  have hfraction := fractionLength_le (cs.drop (cs.takeWhile isDigitOrBar).length)
  rw [List.length_drop] at hfraction
  have hexponent := exponentLength_le (cs.drop ((cs.takeWhile isDigitOrBar).length +
    fractionLength (cs.drop (cs.takeWhile isDigitOrBar).length)))
  rw [List.length_drop] at hexponent
  simp only [ofDecimal]
  omega

/-- The number that a text begins with, without a suffix. -/
def bare (cs : List Char) : Numeral :=
  (if cs.head? == some '0' then ofPrefixed? cs.tail else none).getD (ofDecimal cs)

/-- A number without its suffix is no longer than the text. -/
lemma bare_le (cs : List Char) : (bare cs).length ≤ cs.length := by
  have hdecimal := ofDecimal_le cs
  unfold bare
  split
  · rename_i hzero
    obtain ⟨ds, rfl⟩ := List.head?_eq_some_iff.mp (beq_iff_eq.mp hzero)
    cases hprefixed : ofPrefixed? ('0' :: ds).tail with
    | none => exact hdecimal
    | some n => exact ofPrefixed?_le hprefixed
  · exact hdecimal

/-- A number without its suffix is measured on the line. -/
lemma bare_lineAhead (cs : List Char) : bare (lineAhead cs) = bare cs := by
  unfold bare
  rw [head?_lineAhead (by decide), ofDecimal_lineAhead]
  cases lineView cs with
  | endOfText => rfl
  | lineBreak ds => rfl
  | carriageReturn ds => rfl
  | more c ds hc => rw [lineAhead_cons_of_in hc, List.tail_cons, List.tail_cons, ofPrefixed?_lineAhead]

/-- A number with its suffix is no longer than the text. -/
lemma ofText_le (cs : List Char) : (ofText cs).length ≤ cs.length := by
  have hbare := bare_le cs
  have hsuffix := suffixLength_le (cs.drop (bare cs).length)
  rw [List.length_drop] at hsuffix
  change (bare cs).length + suffixLength (cs.drop (bare cs).length) ≤ cs.length
  omega

/-- A number is measured by looking at its line. -/
theorem ofText_lineAhead (cs : List Char) : ofText (lineAhead cs) = ofText cs := by
  have hbare := bare_le (lineAhead cs)
  rw [bare_lineAhead] at hbare
  have hsuffix : suffixLength ((lineAhead cs).drop (bare cs).length) =
      suffixLength (cs.drop (bare cs).length) := by
    rw [← lineAhead_drop hbare, suffixLength_lineAhead]
  have hlength := ofText_le (lineAhead cs)
  change (bare (lineAhead cs)).length +
    suffixLength ((lineAhead cs).drop (bare (lineAhead cs)).length) ≤ _ at hlength
  rw [bare_lineAhead, hsuffix] at hlength
  have hof (ds : List Char) : ofText ds =
      { bare ds with
        length := (bare ds).length + suffixLength (ds.drop (bare ds).length)
        malformed := (bare ds).malformed ||
          hasDoubleBar (ds.take ((bare ds).length + suffixLength (ds.drop (bare ds).length))) ||
          (ds.take ((bare ds).length + suffixLength (ds.drop (bare ds).length))).getLast? ==
            some '_' } := rfl
  rw [hof, hof, bare_lineAhead, hsuffix, take_lineAhead hlength]

end Numeral

end RubyCheck.Scanner
