import RubyCheck.Proofs.Scanner.Lookahead

/-!
# Looking ahead in lines that end differently

A text may have a carriage return in front of every line break.  Its lines are the same, and what is
looked for across lines is found in the same way: where a chain goes on, where an embedded document
ends, and whether the program ends.
-/

namespace RubyCheck

/-- The text with a carriage return in front of every line break. -/
def returned (cs : List Char) : List Char :=
  cs.flatMap fun c => if c = '\n' then ['\r', '\n'] else [c]

/-! ### Texts -/

@[simp] lemma returned_nil : returned [] = [] := rfl

@[simp] lemma returned_lineBreak (cs : List Char) :
    returned ('\n' :: cs) = '\r' :: '\n' :: returned cs := rfl

lemma returned_cons {c : Char} (hc : c ≠ '\n') (cs : List Char) :
    returned (c :: cs) = c :: returned cs := by
  simp [returned, hc]

@[simp] lemma returned_append (cs ds : List Char) :
    returned (cs ++ ds) = returned cs ++ returned ds :=
  List.flatMap_append

/-- A text without a line break stays as it is. -/
lemma returned_eq_self {cs : List Char} (h : '\n' ∉ cs) : returned cs = cs := by
  induction cs with
  | nil => rfl
  | cons c cs ih =>
    rw [List.mem_cons, not_or] at h
    rw [returned_cons (Ne.symm h.1), ih h.2]

/-- Either both texts are empty, or both begin with a dot or neither does. -/
lemma exists_head_returned (cs : List Char) :
    cs = [] ∧ returned cs = [] ∨
      ∃ c d ds es, cs = c :: ds ∧ returned cs = d :: es ∧ (d = '.' ↔ c = '.') := by
  cases cs with
  | nil => exact .inl ⟨rfl, rfl⟩
  | cons c cs =>
    by_cases hc : c = '\n'
    · subst hc
      exact .inr ⟨_, _, _, _, rfl, rfl, by decide⟩
    · exact .inr ⟨_, _, _, _, rfl, returned_cons hc cs, Iff.rfl⟩

namespace Scanner

open Text

variable {cs : List Char}

/-! ### Looking ahead -/

lemma lineAhead_returned (cs : List Char) : lineAhead (returned cs) = lineAhead cs := by
  induction cs with
  | nil => rfl
  | cons c cs ih =>
    by_cases hc : c = '\n'
    · subst hc
      rfl
    · rw [returned_cons hc, lineAhead_cons, lineAhead_cons, ih]

/-- A part of the line is the same in both texts. -/
lemma returned_take {n : ℕ} (h : n ≤ (lineAhead cs).length) : returned (cs.take n) = cs.take n := by
  refine returned_eq_self fun hmem => ?_
  rw [← take_lineAhead h] at hmem
  have hin := List.mem_takeWhile_imp (List.mem_of_mem_take hmem)
  exact absurd hin (by decide)

lemma atWord_returned {word : List Char} (h : InLine word) (cs : List Char) :
    atWord word (returned cs) = atWord word cs := by
  rw [← atWord_lineAhead h, lineAhead_returned, atWord_lineAhead h]

/-- A chain goes on behind line breaks whatever stands in front of them. -/
lemma continuesChain_returned (inComment : Bool) (cs : List Char) :
    continuesChain inComment (returned cs) = continuesChain inComment cs := by
  induction cs generalizing inComment with
  | nil => rfl
  | cons c cs ih =>
    by_cases hc : c = '\n'
    · subst hc
      cases inComment with
      | true => exact ih false
      | false => exact ih false
    · rw [returned_cons hc]
      unfold continuesChain
      simp only [ih]
      -- Behind a dot or an ampersand only the next character counts, and no line break does.
      obtain hdot | hdot := eq_or_ne c '.'
      · subst hdot
        rcases exists_head_returned cs with ⟨rfl, hcs⟩ | ⟨d, e, ds, es, rfl, hcs, hde⟩
        · rfl
        · simp [hcs, bne, beq_eq_decide, hde]
      obtain hand | hand := eq_or_ne c '&'
      · subst hand
        rcases exists_head_returned cs with ⟨rfl, hcs⟩ | ⟨d, e, ds, es, rfl, hcs, hde⟩
        · rfl
        · simp [hcs, hde]
      simp [hdot, hand]

/-- The program ends at the same place. -/
lemma atEndMarker_returned (h : '\r' ∉ cs) : atEndMarker (returned cs) = atEndMarker cs := by
  have hmark : InLine "__END__".toList := by decide +kernel
  have hbegins : "__END__".toList.isPrefixOf (returned cs) = "__END__".toList.isPrefixOf cs := by
    rw [← isPrefixOf_lineAhead hmark, lineAhead_returned, isPrefixOf_lineAhead hmark]
  unfold atEndMarker
  rw [hbegins]
  by_cases hstarts : "__END__".toList.isPrefixOf cs = true
  · obtain ⟨ds, rfl⟩ := List.isPrefixOf_iff_prefix.mp hstarts
    have hdrop (es : List Char) : ("__END__".toList ++ es).drop 7 = es := rfl
    have hmarked : returned ("__END__".toList ++ ds) = "__END__".toList ++ returned ds := by
      rw [returned_append]
      exact congrArg (· ++ returned ds) (returned_eq_self (by decide +kernel))
    rw [hmarked, hdrop, hdrop]
    congr 1
    cases ds with
    | nil => rfl
    | cons d ds =>
      have hd : d ≠ '\r' := by
        rintro rfl
        simp at h
      by_cases hbreak : d = '\n'
      · subst hbreak
        rfl
      · rw [returned_cons hbreak]
        simp [hd, hbreak]
  · rw [Bool.not_eq_true] at hstarts
    rw [hstarts, Bool.false_and, Bool.false_and]

/-! ### Ends of lines -/

/-- The end of a line: of the text, or in front of a line break. -/
def AtBreak (cs : List Char) : Prop := cs = [] ∨ cs.head? = some '\n'

/-- The carriage return that stands in front of a line break. -/
def returnBefore (cs : List Char) : List Char := if cs.head? = some '\n' then ['\r'] else []

/-- Up to the end of the line and its carriage return. -/
lemma takeWhile_returned (h : '\r' ∉ cs) :
    ∃ line rest, cs = line ++ rest ∧ AtBreak rest ∧ cs.takeWhile (· != '\n') = line ∧
      (returned cs).takeWhile (· != '\n') = returned line ++ returnBefore rest := by
  induction cs with
  | nil => exact ⟨[], [], rfl, .inl rfl, rfl, rfl⟩
  | cons c cs ih =>
    by_cases hc : c = '\n'
    · subst hc
      exact ⟨[], '\n' :: cs, rfl, .inr rfl, rfl, rfl⟩
    · obtain ⟨line, rest, rfl, hrest, hline, hreturned⟩ := ih fun hmem => h (List.mem_cons_of_mem _ hmem)
      have hne : (c != '\n') = true := by simpa using hc
      refine ⟨c :: line, rest, rfl, hrest, ?_, ?_⟩
      · rw [List.takeWhile_cons_of_pos (by simpa using hc), hline]
      · rw [returned_cons hc, List.takeWhile_cons_of_pos (by simpa using hc), hreturned,
          returned_cons hc]
        rfl

/-- An embedded document ends with the same line, found or not. -/
lemma documentEnd_returned (h : '\r' ∉ cs) :
    ∃ body rest found, cs = body ++ rest ∧ AtBreak rest ∧
      (∀ n, documentEnd n cs = (n + body.length, found)) ∧
      ∀ n, documentEnd n (returned cs) = (n + (returned body ++ returnBefore rest).length, found) := by
  have hword : InLine "=end".toList := by decide +kernel
  induction cs with
  | nil => exact ⟨[], [], false, rfl, .inl rfl, fun _ => rfl, fun _ => rfl⟩
  | cons c cs ih =>
    have hcs : '\r' ∉ cs := fun hmem => h (List.mem_cons_of_mem _ hmem)
    have hreturn : c ≠ '\r' := fun hc => h (hc ▸ List.mem_cons_self)
    obtain ⟨body, rest, found, hsplit, hrest, hend, hend'⟩ := ih hcs
    by_cases hc : c = '\n'
    · subst hc
      have hskip (n : ℕ) : documentEnd n (returned ('\n' :: cs)) =
          documentEnd (n + 1) ('\n' :: returned cs) := rfl
      by_cases hfound : atWord "=end".toList cs = true
      · obtain ⟨line, rest, hsplit, hrest, hline, hreturned⟩ := takeWhile_returned hcs
        refine ⟨'\n' :: line, rest, true, by rw [hsplit]; rfl, hrest, fun n => ?_, fun n => ?_⟩
        · rw [documentEnd, if_pos hfound, hline, List.length_cons]
          congr 1
          omega
        · rw [hskip, documentEnd, if_pos (by rw [atWord_returned hword, hfound]), hreturned,
            returned_lineBreak, List.cons_append, List.cons_append, List.length_cons,
            List.length_cons]
          congr 1
          omega
      · refine ⟨'\n' :: body, rest, found, by rw [hsplit]; rfl, hrest, fun n => ?_, fun n => ?_⟩
        · rw [documentEnd, if_neg hfound, hend, List.length_cons]
          congr 1
          omega
        · rw [hskip, documentEnd, if_neg (by rw [atWord_returned hword]; exact hfound), hend',
            returned_lineBreak, List.cons_append, List.cons_append, List.length_cons,
            List.length_cons]
          congr 1
          omega
    · have hstep (n : ℕ) (ds : List Char) : documentEnd n (c :: ds) = documentEnd (n + 1) ds := by
        rw [documentEnd]
        exact hc
      refine ⟨c :: body, rest, found, by rw [hsplit]; rfl, hrest, fun n => ?_, fun n => ?_⟩
      · rw [hstep, hend, List.length_cons]
        congr 1
        omega
      · rw [returned_cons hc, hstep, hend', returned_cons hc, List.cons_append, List.length_cons]
        congr 1
        omega

end Scanner

end RubyCheck
