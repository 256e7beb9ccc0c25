import RubyCheck.Proofs.Scanner.Lexeme
import RubyCheck.Proofs.Scanner.Lookahead

/-!
# Looking ahead in a longer text

Literals, heredocs, embedded documents and the search for a line that goes on with a method call look
beyond the line.  What they find in a text they also find in the text with something behind it, at the
same place: the search ends where it did.  Only a search that ran to the end of the text may go on.
-/

namespace RubyCheck.Scanner

open Text

variable {tail cs : List Char}

/-! ### Lines -/

/-- A line ends in the text, or where the text ends. -/
def Held (tail cs : List Char) : Prop := '\n' ∈ cs ∨ tail.head? = some '\n'

lemma Held.of_cons {c : Char} (h : Held tail (c :: cs)) (hc : c ≠ '\n') : Held tail cs := by
  refine h.imp_left fun hmem => ?_
  simpa [hc.symm] using hmem

lemma takeWhile_append_of_held (h : Held tail cs) :
    (cs ++ tail).takeWhile (· != '\n') = cs.takeWhile (· != '\n') := by
  induction cs with
  | nil =>
    have hhead : tail.head? = some '\n' := by simpa [Held] using h
    obtain ⟨rest, rfl⟩ := List.head?_eq_some_iff.mp hhead
    rfl
  | cons c cs ih =>
    by_cases hc : c = '\n'
    · subst hc
      rfl
    · rw [List.cons_append, List.takeWhile_cons_of_pos (by simpa using hc),
        List.takeWhile_cons_of_pos (by simpa using hc), ih (h.of_cons hc)]

/-- The line ahead does not change when something is put behind its end. -/
lemma lineAhead_append (h : Held tail cs) : lineAhead (cs ++ tail) = lineAhead cs := by
  have hline (ds : List Char) : lineAhead ds = (ds.takeWhile (· != '\n')).takeWhile (· != '\r') := by
    rw [List.takeWhile_takeWhile]
    unfold lineAhead isInLine
    congr 1
    funext c
    rw [Bool.eq_iff_iff]
    simp [and_comm]
  rw [hline, hline, takeWhile_append_of_held h]

/-- A text that ends with a line break, or is empty. -/
def WholeLines (cs : List Char) : Prop := ∀ c ∈ cs.getLast?, c = '\n'

lemma WholeLines.drop (h : WholeLines cs) (n : ℕ) : WholeLines (cs.drop n) := by
  by_cases hn : n < cs.length
  · intro c hc
    rw [List.getLast?_drop, if_neg (Nat.not_le.mpr hn)] at hc
    exact h c hc
  · rw [List.drop_eq_nil_of_le (Nat.not_lt.mp hn)]
    simp [WholeLines]

lemma WholeLines.held (h : WholeLines cs) (hne : cs ≠ []) (tail : List Char) : Held tail cs := by
  refine .inl ?_
  have hlast := List.getLast?_eq_some_getLast hne
  have hbreak := h _ hlast
  rw [← hbreak]
  exact List.getLast_mem hne

/-! ### Literals -/

/-- A backslash at the end of a text or in front of a character is no case of another character. -/
lemma ne_backslash {c : Char} {cs : List Char} (hlast : c = '\\' → cs = [] → False)
    (hescape : ∀ d ds, c = '\\' → cs = d :: ds → False) : c ≠ '\\' := by
  intro hc
  cases cs with
  | nil => exact hlast hc rfl
  | cons d ds => exact hescape d ds hc rfl

lemma quotedEnd_cons {c : Char} (hc : c ≠ '\\') (quote : Char) (n : ℕ) (cs : List Char) :
    quotedEnd quote n (c :: cs) = if c = quote then (n + 1, true) else quotedEnd quote (n + 1) cs := by
  rw [quotedEnd]
  · exact fun h => absurd h hc
  · exact fun _ _ h => absurd h hc

/-- A quote that is found in a text is found in a longer text. -/
lemma quotedEnd_append {quote : Char} {n m : ℕ} (h : quotedEnd quote n cs = (m, true))
    (tail : List Char) : quotedEnd quote n (cs ++ tail) = (m, true) := by
  fun_induction quotedEnd quote n cs with
  | case1 => simp at h
  | case2 => simp at h
  | case3 n c cs ih => exact ih h
  | case4 n cs hlast hescape =>
    rw [List.cons_append, quotedEnd_cons (ne_backslash hlast hescape), if_pos rfl]
    exact h
  | case5 n c cs hlast hescape hne ih =>
    rw [List.cons_append, quotedEnd_cons (ne_backslash hlast hescape), if_neg hne]
    exact ih h

/-- A quote that is not found is looked for up to the end of the text. -/
lemma quotedEnd_false {quote : Char} {n m : ℕ} (h : quotedEnd quote n cs = (m, false)) :
    m = n + cs.length := by
  fun_induction quotedEnd quote n cs with
  | case1 n => simpa [eq_comm] using h
  | case2 n => simpa [eq_comm] using h
  | case3 n c cs ih =>
    rw [ih h]
    simp only [List.length_cons]
    omega
  | case4 n cs _ _ => simp at h
  | case5 n c cs _ _ _ ih =>
    rw [ih h, List.length_cons]
    omega

lemma verbatimEnd_cons {c : Char} (hc : c ≠ '\\') (bracket : Option Char) (close : Char)
    (nesting n : ℕ) (cs : List Char) :
    verbatimEnd bracket close nesting n (c :: cs) =
      if c = close then
        if nesting = 0 then (n + 1, true) else verbatimEnd bracket close (nesting - 1) (n + 1) cs
      else if bracket = some c then verbatimEnd bracket close (nesting + 1) (n + 1) cs
      else verbatimEnd bracket close nesting (n + 1) cs := by
  rw [verbatimEnd]
  · exact fun h => absurd h hc
  · exact fun _ _ h => absurd h hc

lemma verbatimEnd_append {bracket : Option Char} {close : Char} {nesting n m : ℕ}
    (h : verbatimEnd bracket close nesting n cs = (m, true)) (tail : List Char) :
    verbatimEnd bracket close nesting n (cs ++ tail) = (m, true) := by
  fun_induction verbatimEnd bracket close nesting n cs with
  | case1 => simp at h
  | case2 => simp at h
  | case3 nesting n c cs ih => exact ih h
  | case4 n cs hlast hescape =>
    rw [List.cons_append, verbatimEnd_cons (ne_backslash hlast hescape), if_pos rfl, if_pos rfl]
    exact h
  | case5 nesting n cs hnesting hlast hescape ih =>
    rw [List.cons_append, verbatimEnd_cons (ne_backslash hlast hescape), if_pos rfl, if_neg hnesting]
    exact ih h
  | case6 nesting n c cs hlast hescape hne hbracket ih =>
    rw [List.cons_append, verbatimEnd_cons (ne_backslash hlast hescape), if_neg hne,
      if_pos hbracket]
    exact ih h
  | case7 nesting n c cs hlast hescape hne hbracket ih =>
    rw [List.cons_append, verbatimEnd_cons (ne_backslash hlast hescape), if_neg hne,
      if_neg hbracket]
    exact ih h

/-- A closing delimiter that is not found is looked for up to the end of the text. -/
lemma verbatimEnd_false {bracket : Option Char} {close : Char} {nesting n m : ℕ}
    (h : verbatimEnd bracket close nesting n cs = (m, false)) : m = n + cs.length := by
  fun_induction verbatimEnd bracket close nesting n cs with
  | case1 nesting n => simpa [eq_comm] using h
  | case2 nesting n => simpa [eq_comm] using h
  | case3 nesting n c cs ih =>
    rw [ih h]
    simp only [List.length_cons]
    omega
  | case4 n cs _ _ => simp at h
  | case5 nesting n cs _ _ _ ih =>
    rw [ih h, List.length_cons]
    omega
  | case6 nesting n c cs _ _ _ _ ih =>
    rw [ih h, List.length_cons]
    omega
  | case7 nesting n c cs _ _ _ _ ih =>
    rw [ih h, List.length_cons]
    omega

lemma contentEnd_cons {c : Char} (hc : c ≠ '\\') (hbreak : c ≠ '\n') (l : OpenLiteral) (n : ℕ)
    (cs : List Char) :
    contentEnd l n (c :: cs) =
      if l.interpolates && c == '#' && cs.head? == some '\x7b' then (.interpolation, n, l)
      else if l.close == some c then
        if l.nesting == 0 then (.delimiter, n, l)
        else contentEnd { l with nesting := l.nesting - 1 } (n + 1) cs
      else if l.bracket == some c then contentEnd { l with nesting := l.nesting + 1 } (n + 1) cs
      else contentEnd l (n + 1) cs := by
  rw [contentEnd]
  · exact fun h => absurd h hc
  · exact fun _ h => absurd h hc
  · exact fun _ _ h => absurd h hc
  · exact hbreak

lemma verbatimEnd_le (bracket : Option Char) (close : Char) (nesting n : ℕ) (cs : List Char) :
    (verbatimEnd bracket close nesting n cs).1 ≤ n + cs.length := by
  fun_induction verbatimEnd bracket close nesting n cs
  all_goals
    simp only [List.length_cons, List.length_nil]
    omega

/-- Content that ends before the text does ends there in a longer text. -/
lemma contentEnd_append {l l' : OpenLiteral} {n m : ℕ} {stop : ContentEnd}
    (h : contentEnd l n cs = (stop, m, l')) (hstop : stop ≠ .endOfText)
    (htail : tail.head? ≠ some '\x7b') : contentEnd l n (cs ++ tail) = (stop, m, l') := by
  have hbrace (ds : List Char) : ((ds ++ tail).head? == some '\x7b') = (ds.head? == some '\x7b') := by
    cases ds with
    | nil => simpa using htail
    | cons d ds => rfl
  fun_induction contentEnd l n cs with
  | case1 => simp at h; exact absurd h.1.symm hstop
  | case2 => simp at h; exact absurd h.1.symm hstop
  | case3 l n cs ih => exact ih h
  | case4 l n d cs hd ih =>
    rw [List.cons_append, List.cons_append, contentEnd]
    · exact ih h
    · exact hd
  | case5 l n cs hsingle =>
    rw [List.cons_append, contentEnd, if_pos hsingle]
    exact h
  | case6 l n cs hsingle ih =>
    rw [List.cons_append, contentEnd, if_neg hsingle]
    exact ih h
  | case7 l n c cs hlast _ hescape hbreak hcode =>
    rw [List.cons_append, contentEnd_cons (ne_backslash hlast hescape) hbreak, hbrace, if_pos hcode]
    exact h
  | case8 l n c cs hlast _ hescape hbreak hcode hclose hnesting =>
    rw [List.cons_append, contentEnd_cons (ne_backslash hlast hescape) hbreak, hbrace, if_neg hcode,
      if_pos hclose, if_pos hnesting]
    exact h
  | case9 l n c cs hlast _ hescape hbreak hcode hclose hnesting ih =>
    rw [List.cons_append, contentEnd_cons (ne_backslash hlast hescape) hbreak, hbrace, if_neg hcode,
      if_pos hclose, if_neg hnesting]
    exact ih h
  | case10 l n c cs hlast _ hescape hbreak hcode hclose hbracket ih =>
    rw [List.cons_append, contentEnd_cons (ne_backslash hlast hescape) hbreak, hbrace, if_neg hcode,
      if_neg hclose, if_pos hbracket]
    exact ih h
  | case11 l n c cs hlast _ hescape hbreak hcode hclose hbracket ih =>
    rw [List.cons_append, contentEnd_cons (ne_backslash hlast hescape) hbreak, hbrace, if_neg hcode,
      if_neg hclose, if_neg hbracket]
    exact ih h

/-! ### Between tokens -/

/-- A word and the blank behind it are found in a longer text. -/
lemma atWord_append {word : List Char} (hword : InLine word) (h : Held tail cs) :
    atWord word (cs ++ tail) = atWord word cs := by
  rw [← atWord_lineAhead hword, lineAhead_append h, atWord_lineAhead hword]

lemma documentEnd_le {n m : ℕ} (h : documentEnd n cs = (m, true)) : m ≤ n + cs.length := by
  fun_induction documentEnd n cs with
  | case1 n => simp at h
  | case2 n cs _ =>
    have hline := (List.takeWhile_prefix (l := cs) (· != '\n')).length_le
    obtain ⟨rfl, -⟩ := Prod.mk.inj h
    rw [List.length_cons]
    omega
  | case3 n cs _ ih =>
    have := ih h
    rw [List.length_cons]
    omega
  | case4 n c cs _ ih =>
    have := ih h
    rw [List.length_cons]
    omega

/-- The last line of an embedded document is found in a longer text. -/
lemma documentEnd_append {n m : ℕ} (h : documentEnd n cs = (m, true))
    (hcs : WholeLines cs ∨ tail.head? = some '\n') : documentEnd n (cs ++ tail) = (m, true) := by
  have hheld (ds : List Char) (hds : WholeLines ds ∨ tail.head? = some '\n') (hne : ds ≠ []) :
      Held tail ds := hds.elim (fun hds => hds.held hne tail) .inr
  fun_induction documentEnd n cs with
  | case1 n => simp at h
  | case2 n cs hend =>
    have hline := hheld cs (hcs.imp_left (·.drop 1)) (ne_nil_of_atWord (by decide) hend)
    rw [List.cons_append, documentEnd, atWord_append (by decide +kernel) hline, if_pos hend,
      takeWhile_append_of_held hline]
    exact h
  | case3 n cs hend ih =>
    have hne : cs ≠ [] := by
      rintro rfl
      simp [documentEnd] at h
    rw [List.cons_append, documentEnd,
      atWord_append (by decide +kernel) (hheld cs (hcs.imp_left (·.drop 1)) hne), if_neg hend]
    exact ih h (hcs.imp_left (·.drop 1))
  | case4 n c cs hc ih =>
    rw [List.cons_append, documentEnd]
    · exact ih h (hcs.imp_left (·.drop 1))
    · exact hc

lemma WholeLines.eq_of_cons {c : Char} (h : WholeLines (c :: cs)) (hcs : cs = []) : c = '\n' := by
  subst hcs
  exact h c (by simp)

lemma continuesChain_true (c : Char) (cs : List Char) :
    continuesChain true (c :: cs) = continuesChain (c != '\n') cs := by
  rw [continuesChain.eq_def]
  rfl

lemma continuesChain_blank {c : Char} (hc : isBlank c = true) (cs : List Char) :
    continuesChain false (c :: cs) = continuesChain false cs := by
  rw [continuesChain.eq_def]
  simp only [Bool.false_eq_true, if_false, hc, if_true]

/-- Whether a method call goes on behind whole lines, and behind nothing that follows them, is seen in
those lines. -/
lemma continuesChain_append {inComment : Bool} (htail : continuesChain false tail = false)
    (hcs : WholeLines cs) (hne : cs = [] → inComment = false) :
    continuesChain inComment (cs ++ tail) = continuesChain inComment cs := by
  fun_induction continuesChain inComment cs with
  | case1 b =>
    rw [hne rfl]
    exact htail
  | case2 c cs ih =>
    rw [List.cons_append, continuesChain_true]
    refine ih (hcs.drop 1) fun hnil => ?_
    simp [hcs.eq_of_cons hnil]
  | case3 b c cs hb hblank ih =>
    obtain rfl : b = false := by simpa using hb
    rw [List.cons_append, continuesChain_blank hblank]
    exact ih (hcs.drop 1) fun _ => rfl
  | case4 b cs hb hblank ih =>
    obtain rfl : b = false := by simpa using hb
    exact ih (hcs.drop 1) fun hnil => absurd (hcs.eq_of_cons hnil) (by decide)
  | case5 b hb d ds hblank hhash =>
    obtain rfl : b = false := by simpa using hb
    rfl
  | case6 => exact absurd (hcs.eq_of_cons rfl) (by decide)
  | case7 b hb d ds hblank hhash =>
    obtain rfl : b = false := by simpa using hb
    rfl
  | case8 b c cs hb hblank hhash hdot hdot' hamp =>
    obtain rfl : b = false := by simpa using hb
    cases cs with
    | nil =>
      obtain rfl := hcs.eq_of_cons rfl
      exact absurd (by decide) hblank
    | cons d ds =>
      have hc : c ≠ '.' ∧ c ≠ '&' := ⟨fun h => hdot d ds h rfl, fun h => hamp d ds h rfl⟩
      rw [List.cons_append, continuesChain.eq_def]
      simp [hblank, hhash, hc]

/-! ### Heredocs -/

/-- A terminator between quotes is found in a longer text, and no other is. -/
lemma quotedTerminator?_append {quote : Char} (hquote : quote ≠ '\n') (h : Held tail cs) :
    quotedTerminator? quote (cs ++ tail) = quotedTerminator? quote cs := by
  by_cases hmem : quote ∈ cs
  · obtain ⟨before, behind, rfl, hbefore⟩ := List.eq_append_cons_of_mem hmem
    have hall : ∀ c ∈ before, (c != quote) = true := by
      intro c hc
      simpa using ne_of_mem_of_not_mem hc hbefore
    have hfound (rest : List Char) : (before ++ quote :: rest).takeWhile (· != quote) = before := by
      rw [List.takeWhile_append_of_pos hall]
      simp
    unfold quotedTerminator?
    rw [List.append_assoc, List.cons_append, hfound, hfound]
    simp
  · have hall : ∀ c ∈ cs, (c != quote) = true := by
      intro c hc
      simpa using ne_of_mem_of_not_mem hc hmem
    have hshort : quotedTerminator? quote cs = none := by
      unfold quotedTerminator?
      rw [List.takeWhile_eq_self_iff.mpr hall]
      simp
    have hbreak : '\n' ∈ (cs ++ tail).takeWhile (· != quote) := by
      rw [List.takeWhile_append_of_pos hall]
      rcases h with h | h
      · exact List.mem_append_left _ h
      · obtain ⟨rest, rfl⟩ := List.head?_eq_some_iff.mp h
        rw [List.takeWhile_cons_of_pos (by simpa using hquote.symm)]
        simp
    rw [hshort]
    unfold quotedTerminator?
    simp [hbreak]

lemma takeWhile_append_of_within {p : Char → Bool} (hp : Within p) (h : Held tail cs) :
    (cs ++ tail).takeWhile p = cs.takeWhile p := by
  rw [← takeWhile_lineAhead hp, lineAhead_append h, takeWhile_lineAhead hp]

/-- The opener of a heredoc is found in a longer text. -/
lemma heredocOpener?_append {s t : Scanner} (hrest : t.cursor.rest = s.cursor.rest ++ tail)
    (hexpects : t.expects = s.expects) (h : Held tail s.cursor.rest) :
    t.heredocOpener? = s.heredocOpener? := by
  unfold heredocOpener?
  rw [hrest, hexpects]
  generalize s.cursor.rest = cs at h
  by_cases hshift : ∃ after, cs = '<' :: '<' :: after
  · obtain ⟨after, rfl⟩ := hshift
    have hafter : Held tail after := (h.of_cons (by decide)).of_cons (by decide)
    have hindented : ((after ++ tail).head?.any fun c => c == '~' || c == '-') =
        after.head?.any fun c => c == '~' || c == '-' := by
      rw [← any_head?_lineAhead (by decide), lineAhead_append hafter,
        any_head?_lineAhead (by decide)]
    simp only [List.cons_append, hindented]
    obtain ⟨body, hbody, hlong, hheld⟩ : ∃ body,
        (if (after.head?.any fun c => c == '~' || c == '-') = true then after.tail else after) =
            body ∧
          (if (after.head?.any fun c => c == '~' || c == '-') = true then (after ++ tail).tail
            else after ++ tail) = body ++ tail ∧ Held tail body := by
      by_cases hmark : (after.head?.any fun c => c == '~' || c == '-') = true
      · cases after with
        | nil => simp at hmark
        | cons c cs =>
          refine ⟨cs, if_pos hmark, if_pos hmark, hafter.of_cons ?_⟩
          rintro rfl
          simp at hmark
      · exact ⟨after, if_neg hmark, if_neg hmark, hafter⟩
    rw [hbody, hlong]
    cases body with
    | nil =>
      have hhead : tail.head? = some '\n' := by simpa [Held] using hheld
      obtain ⟨rest, rfl⟩ := List.head?_eq_some_iff.mp hhead
      rfl
    | cons c cs =>
      rw [List.cons_append]
      dsimp only
      by_cases hquote : (decide (c = '"') || decide (c = '\'') || decide (c = '\x60')) = true
      · have hbreak : c ≠ '\n' := by
          rintro rfl
          simp at hquote
        rw [if_pos hquote, if_pos hquote, quotedTerminator?_append hbreak (hheld.of_cons hbreak)]
      · rw [if_neg hquote, if_neg hquote, ← List.cons_append,
          takeWhile_append_of_within within_continuesName hheld]
  · have hlong : ∀ after, cs ++ tail ≠ '<' :: '<' :: after := by
      intro after heq
      rcases cs with _ | ⟨c, _ | ⟨d, ds⟩⟩
      · rw [List.nil_append] at heq
        simp [Held, heq] at h
      · simp only [List.cons_append, List.nil_append, List.cons.injEq] at heq
        simp [Held, heq.1, heq.2] at h
      · simp only [List.cons_append, List.cons.injEq] at heq
        exact hshift ⟨ds, by rw [heq.1, heq.2.1]⟩
    split
    · rename_i after heq
      exact absurd heq (hlong after)
    · split
      · exact absurd ⟨_, rfl⟩ hshift
      · rfl

/-- No empty line ends a heredoc. -/
lemma HeredocOpener.endsAt_nil {o : HeredocOpener} (h : o.terminator ≠ []) :
    o.endsAt [] = false := by
  unfold HeredocOpener.endsAt
  cases o.indented with
  | true => simpa [trimLeft] using h.symm
  | false => simpa using h.symm

/-- The terminator line of a heredoc is found in a longer text. -/
lemma range_append (o : HeredocOpener) (hterminator : o.terminator ≠ []) {start n : ℕ}
    {line : List Char} (hcs : WholeLines cs) (hline : cs = [] → line = [])
    (h : (o.range start n line cs).terminated = true) (tail : List Char) :
    o.range start n line (cs ++ tail) = o.range start n line cs := by
  have hends := o.endsAt_nil hterminator
  fun_induction HeredocOpener.range o start n line cs with
  | case1 start n line hend => rw [hline rfl, hends] at hend; simp at hend
  | case2 start n line hend => simp at h
  | case3 start n line cs hend => rw [List.cons_append, HeredocOpener.range, if_pos hend]
  | case4 start n line cs hend ih =>
    rw [List.cons_append, HeredocOpener.range, if_neg hend]
    exact ih (hcs.drop 1) (fun _ => rfl) h
  | case5 start n line c cs hc ih =>
    rw [List.cons_append, HeredocOpener.range]
    · exact ih (hcs.drop 1) (fun hnil => absurd (hcs.eq_of_cons hnil) hc) h
    · exact hc

/-- The range of a heredoc that ends before the text does is the same in a longer text. -/
lemma range_append_of_lt (o : HeredocOpener) {start n : ℕ} {line : List Char}
    (h : (o.range start n line cs).whole < n + cs.length) (tail : List Char) :
    o.range start n line (cs ++ tail) = o.range start n line cs := by
  fun_induction HeredocOpener.range o start n line cs with
  | case1 start n line _ => simp at h
  | case2 start n line _ => simp at h
  | case3 start n line cs hend => rw [List.cons_append, HeredocOpener.range, if_pos hend]
  | case4 start n line cs hend ih =>
    rw [List.cons_append, HeredocOpener.range, if_neg hend]
    refine ih ?_
    rw [List.length_cons] at h
    omega
  | case5 start n line c cs hc ih =>
    rw [List.cons_append, HeredocOpener.range]
    · refine ih ?_
      rw [List.length_cons] at h
      omega
    · exact hc

/-- A terminator between quotes is not empty, stands on one line, and is followed by the quote. -/
lemma quotedTerminator?_spec {quote : Char} {terminator : List Char}
    (h : quotedTerminator? quote cs = some terminator) :
    terminator ≠ [] ∧ '\n' ∉ terminator ∧ ∃ rest, cs = terminator ++ quote :: rest := by
  unfold quotedTerminator? at h
  dsimp only at h
  split at h
  · simp at h
  · rename_i hnone
    obtain rfl := Option.some.inj h
    simp only [Bool.or_eq_true, not_or, beq_iff_eq, List.isEmpty_iff, List.contains_iff_mem] at hnone
    refine ⟨hnone.1.2, hnone.2, ?_⟩
    have hmem : quote ∈ cs := by
      by_contra hmem
      refine hnone.1.1 (congrArg List.length (List.takeWhile_eq_self_iff.mpr fun c hc => ?_))
      simpa using ne_of_mem_of_not_mem hc hmem
    obtain ⟨before, behind, rfl, hbefore⟩ := List.eq_append_cons_of_mem hmem
    refine ⟨behind, ?_⟩
    rw [List.takeWhile_append_of_pos fun c hc => by simpa using ne_of_mem_of_not_mem hc hbefore]
    simp

/-- The opener of a heredoc stands on one line, and names a terminator. -/
lemma heredocOpener?_spec {s : Scanner} {o : HeredocOpener} (h : s.heredocOpener? = some o) :
    o.terminator ≠ [] ∧ '\n' ∉ o.terminator ∧
      ∃ opener rest, s.cursor.rest = opener ++ rest ∧ opener.length = o.length ∧ '\n' ∉ opener := by
  unfold heredocOpener? at h
  split at h
  case h_2 => simp at h
  rename_i after hrest
  rw [hrest]
  obtain ⟨marks, body, hmarks, hafter, hbreak, hbody⟩ : ∃ marks body,
      marks.length = (if (after.head?.any fun c => c == '~' || c == '-') = true then 3 else 2) ∧
        '<' :: '<' :: after = marks ++ body ∧ '\n' ∉ marks ∧
        (if (after.head?.any fun c => c == '~' || c == '-') = true then after.tail else after) =
          body := by
    by_cases hmark : (after.head?.any fun c => c == '~' || c == '-') = true
    · cases after with
      | nil => simp at hmark
      | cons c cs =>
        refine ⟨['<', '<', c], cs, (if_pos hmark).symm, rfl, ?_, if_pos hmark⟩
        have hc : c ≠ '\n' := by
          rintro rfl
          simp at hmark
        simp [hc.symm]
    · exact ⟨['<', '<'], after, (if_neg hmark).symm, rfl, by decide, if_neg hmark⟩
  rw [hafter]
  dsimp only at h
  rw [hbody, ← hmarks] at h
  cases body with
  | nil => simp at h
  | cons c cs =>
    dsimp only at h
    split at h
    · rename_i hquote
      obtain ⟨terminator, hterminator, rfl⟩ := Option.map_eq_some_iff.mp h
      obtain ⟨hne, hline, rest, rfl⟩ := quotedTerminator?_spec hterminator
      have hc : c ≠ '\n' := by
        rintro rfl
        simp at hquote
      refine ⟨hne, hline, marks ++ c :: (terminator ++ [c]), rest, by simp, ?_, ?_⟩
      · simp only [List.length_append, List.length_cons, List.length_nil]
        omega
      · simp [hbreak, hline, hc.symm]
    split at h
    · simp at h
    split at h
    · simp at h
    · rename_i hstarts _
      obtain rfl := Option.some.inj h
      have hc : continuesName c = true := continuesName_of_startsName (by simpa using hstarts)
      have hline : '\n' ∉ (c :: cs).takeWhile continuesName := fun hmem =>
        absurd (List.mem_takeWhile_imp hmem) (by decide)
      refine ⟨?_, hline, marks ++ (c :: cs).takeWhile continuesName,
        (c :: cs).dropWhile continuesName, ?_, by simp, ?_⟩
      · rw [List.takeWhile_cons_of_pos hc]
        exact List.cons_ne_nil _ _
      · rw [List.append_assoc, List.takeWhile_append_dropWhile]
      · rw [List.mem_append, not_or]
        exact ⟨hbreak, hline⟩

end RubyCheck.Scanner
