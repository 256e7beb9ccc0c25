import RubyCheck.Proofs.Scanner.Append
import RubyCheck.Proofs.Scanner.Bare
import RubyCheck.Proofs.Scanner.Snapshot

/-!
# Blank lines and comments

Where nothing but blanks and comments is ahead, a step of a scanner of code finds no fault whatever it
expects (`step_idle`): a blank beyond ASCII begins a name, and no name is a fault.
-/

namespace RubyCheck.Scanner

open Text

/-- Whether nothing but blanks and comments is ahead. -/
def idle (inComment : Bool) : List Char → Bool
  | [] => true
  | c :: cs =>
    if inComment then idle (c != '\n') cs
    else if isBlank c then idle false cs
    else c == '#' && idle true cs

variable {c : Char} {cs tail : List Char} {s s' : Scanner} {spaced : Bool}

/-! ### Idle texts -/

lemma idle_true (c : Char) (cs : List Char) : idle true (c :: cs) = idle (c != '\n') cs := by
  rw [idle, if_pos rfl]

lemma idle_blank (hc : isBlank c = true) (cs : List Char) :
    idle false (c :: cs) = idle false cs := by
  rw [idle, if_neg Bool.false_ne_true, if_pos hc]

/-- An idle text goes on with a blank or a comment. -/
lemma idle_cons (h : idle false (c :: cs) = true) :
    isBlank c = true ∧ idle false cs = true ∨ c = '#' ∧ idle true cs = true := by
  rw [idle, if_neg Bool.false_ne_true] at h
  split at h
  · rename_i hc
    exact .inl ⟨hc, h⟩
  · simp only [Bool.and_eq_true, beq_iff_eq] at h
    exact .inr h

/-- A comment ends with its line, and behind it the text is idle too. -/
lemma idle_comment (h : idle true cs = true) :
    idle false (cs.drop (cs.takeWhile (· != '\n')).length) = true := by
  induction cs with
  | nil => rfl
  | cons c cs ih =>
    rw [idle_true] at h
    by_cases hc : c = '\n'
    · subst hc
      exact (idle_blank (by decide) cs).trans h
    · rw [List.takeWhile_cons_of_pos (by simpa using hc), List.length_cons, List.drop_succ_cons]
      have hne : (c != '\n') = true := by simpa using hc
      rw [hne] at h
      exact ih h

/-- Behind a run of characters that are no comment the text is idle too. -/
lemma idle_run {p : Char → Bool} (hp : p '#' = false) (h : idle false cs = true) :
    idle false (cs.drop (cs.takeWhile p).length) = true := by
  induction cs with
  | nil => rfl
  | cons c cs ih =>
    by_cases hc : p c = true
    · rcases idle_cons h with ⟨-, hidle⟩ | ⟨rfl, -⟩
      · rw [List.takeWhile_cons_of_pos hc, List.length_cons, List.drop_succ_cons]
        exact ih hidle
      · simp [hp] at hc
    · rw [List.takeWhile_cons_of_neg hc]
      exact h

/-- A character of code is not what an idle text goes on with. -/
lemma idle_head?_ne (h : idle false cs = true) {d : Char} (hd : isBlank d = false) (hcomment : d ≠ '#') :
    cs.head? ≠ some d := by
  intro hhead
  obtain ⟨ds, rfl⟩ := List.head?_eq_some_iff.mp hhead
  rcases idle_cons h with ⟨hblank, -⟩ | ⟨rfl, -⟩
  · simp [hd] at hblank
  · exact hcomment rfl

/-- Whether a chain goes on behind a text and another line depends on that line only if the text is
idle. -/
lemma idle_of_continuesChain_ne {inComment : Bool} (htail : tail.head? = some '\n')
    (h : continuesChain inComment (cs ++ tail) ≠ continuesChain inComment cs) :
    idle inComment cs = true := by
  obtain ⟨rest, rfl⟩ := List.head?_eq_some_iff.mp htail
  fun_induction continuesChain inComment cs with
  | case1 => rfl
  | case2 c cs ih =>
    rw [idle_true]
    rw [List.cons_append, continuesChain_true] at h
    exact ih h
  | case3 b c cs hb hblank ih =>
    obtain rfl : b = false := by simpa using hb
    rw [idle_blank hblank]
    rw [List.cons_append, continuesChain_blank hblank] at h
    exact ih h
  | case4 b cs hb hblank ih =>
    obtain rfl : b = false := by simpa using hb
    exact ih h
  | case5 b hb d ds hblank hhash =>
    obtain rfl : b = false := by simpa using hb
    exact absurd rfl h
  | case6 b hb hblank hhash =>
    obtain rfl : b = false := by simpa using hb
    exact absurd rfl h
  | case7 b hb d ds hblank hhash =>
    obtain rfl : b = false := by simpa using hb
    exact absurd rfl h
  | case8 b c cs hb hblank hhash hdot hdot' hamp =>
    obtain rfl : b = false := by simpa using hb
    refine absurd ?_ h
    cases cs with
    | nil =>
      have hc : c ≠ '.' := fun hc => hdot' hc rfl
      by_cases hand : c = '&'
      · subst hand
        rfl
      · rw [List.cons_append, continuesChain.eq_def]
        simp [hblank, hhash, hc, hand]
    | cons d ds =>
      have hc : c ≠ '.' ∧ c ≠ '&' := ⟨fun h => hdot d ds h rfl, fun h => hamp d ds h rfl⟩
      rw [List.cons_append, continuesChain.eq_def]
      simp [hblank, hhash, hc]

/-! ### Names -/

/-- A name that is no keyword is read as one token. -/
lemma core_scanPlainName (n : ℕ) (dotFollows : Bool) :
    ∃ kind, (s.scanPlainName n spaced dotFollows).core = (s.emit kind n spaced).core := by
  unfold scanPlainName remember
  dsimp only
  split_ifs
  all_goals exact ⟨_, rfl⟩

/-- A name in front of neither a colon nor an equals sign is read as one token. -/
lemma core_scanName (s : Scanner) (spaced : Bool)
    (hcolon : (s.cursor.rest.drop (nameLength s.cursor.rest)).head? ≠ some ':')
    (hequals : (s.cursor.rest.drop (nameLength s.cursor.rest)).head? ≠ some '=') :
    ∃ kind, (s.scanName spaced).core = (s.emit kind (nameLength s.cursor.rest) spaced).core := by
  have hlabel : ((s.cursor.rest.drop (nameLength s.cursor.rest)).head? == some ':') = false :=
    beq_false_of_ne hcolon
  have hsetter : "=(".toList.isPrefixOf (s.cursor.rest.drop (nameLength s.cursor.rest)) = false := by
    rw [Bool.eq_false_iff]
    intro hstarts
    obtain ⟨ds, hds⟩ := List.isPrefixOf_iff_prefix.mp hstarts
    exact hequals (by rw [← hds]; rfl)
  unfold scanName
  simp only [hlabel, hsetter, Bool.and_false, Bool.false_and, Bool.false_eq_true, if_false]
  split
  · exact ⟨_, rfl⟩
  · exact core_scanPlainName _ _

/-- No operator that a definition names begins a name. -/
lemma definedOperator?_of_name (hat : s.cursor.rest = c :: cs) (hc : startsName c = true) :
    s.definedOperator? = none := by
  have hnone : definedOperators.find? s.cursor.startsWith = none := by
    have hheads : definedOperators.all (·.head?.any (!startsName ·)) = true := by decide +kernel
    refine List.find?_eq_none.mpr fun op hop hstarts => ?_
    have hhead := List.all_eq_true.mp hheads op hop
    obtain ⟨d, ds, rfl⟩ : ∃ d ds, op = d :: ds := by
      refine List.exists_cons_of_ne_nil ?_
      rintro rfl
      simp at hhead
    rw [Cursor.startsWith, hat] at hstarts
    simp only [List.isPrefixOf, Bool.and_eq_true, beq_iff_eq] at hstarts
    simp [hstarts.1, hc] at hhead
  unfold definedOperator?
  rw [hnone]
  simp

/-- The token that begins with a character of names. -/
lemma scanToken_of_name (nested : Scanner → Option Scanner) (hat : s.cursor.rest = c :: cs)
    (hc : startsName c = true) (hdigit : isAsciiDigit c = false) :
    s.scanToken nested c = some (({ s with spaceSeen := false } : Scanner).scanName s.spaceSeen) := by
  have hdefined : ({ s with spaceSeen := false } : Scanner).definedOperator? = none :=
    definedOperator?_of_name hat hc
  unfold scanToken scanTokenAt
  simp only [hdefined, hdigit, hc, Bool.false_eq_true, if_false, if_true]

/-! ### Reading nothing -/

/-- A scanner that reads code, and jumps nowhere in what is ahead. -/
structure Coding (s : Scanner) : Prop where
  code : s.InCode
  inPlace : s.resume = none ∨ '\n' ∉ s.cursor.rest

/-- A scanner goes on in the same code, and has found no more faults. -/
structure Faultless (s s' : Scanner) : Prop where
  modes : s'.modes = s.modes
  faults : s'.faults = s.faults

lemma Faultless.inCode (h : Faultless s s') (hcode : s.InCode) : s'.InCode := by
  obtain ⟨d, outer, hmodes⟩ := hcode
  exact ⟨d, outer, h.modes.trans hmodes⟩

/-- A scanner that stays in the same code and jumps nowhere reads code further on. -/
lemma Coding.forward (h : s.Coding) (hs : Faultless s s') (hresume : s'.resume = s.resume) {n : ℕ}
    (hcursor : s'.cursor = Cursor.advanceBy n s.cursor) : s'.Coding := by
  refine ⟨hs.inCode h.code, h.inPlace.imp hresume.trans fun hline hmem => hline ?_⟩
  rw [hcursor, Cursor.rest_advanceBy] at hmem
  exact List.mem_of_mem_drop hmem

/-- A step in code. -/
lemma step_of_code (hcode : s.InCode) (nested : Scanner → Option Scanner) :
    s.step nested =
    if s.atTopLine && atEndMarker s.cursor.rest then some (.done s)
    else match s.skipTrivia? with
      | some s' => some (.more s')
      | none =>
        match s.cursor.rest with
        | [] => some s.endOfText
        | c :: _ => (s.scanToken nested c).map .more := by
  obtain ⟨d, outer, hmodes⟩ := hcode
  cases s
  cases hmodes
  rfl

/-- Where the program does not end, what stands between tokens is passed over. -/
lemma step_of_skipTrivia (hcode : s.InCode) (hend : (s.atTopLine && atEndMarker s.cursor.rest) = false)
    (hpass : s.skipTrivia? = some s') (nested : Scanner → Option Scanner) :
    s.step nested = some (.more s') := by
  rw [step_of_code hcode, hend, hpass]
  rfl

/-- Where nothing stands between tokens, a token is read. -/
lemma step_of_scanToken (hcode : s.InCode) (hend : (s.atTopLine && atEndMarker s.cursor.rest) = false)
    (hnone : s.skipTrivia? = none) (hat : s.cursor.rest = c :: cs) (nested : Scanner → Option Scanner) :
    s.step nested = (s.scanToken nested c).map .more := by
  rw [step_of_code hcode, hend, hnone, hat]
  rfl

/-- Behind a line break reading goes on where it was to be gone on, with nothing to jump over. -/
lemma faultless_scanNewline : Faultless s s.scanNewline ∧ s.scanNewline.resume = none ∧
    s.scanNewline.cursor = s.resume.getD (Cursor.advanceBy 1 s.cursor) := by
  unfold Scanner.scanNewline
  split
  · exact ⟨⟨rfl, rfl⟩, rfl, rfl⟩
  · exact ⟨⟨rfl, rfl⟩, rfl, rfl⟩

/-- Reading a name that nothing belongs to finds no fault. -/
lemma faultless_scanName (s : Scanner)
    (hcolon : (s.cursor.rest.drop (nameLength s.cursor.rest)).head? ≠ some ':')
    (hequals : (s.cursor.rest.drop (nameLength s.cursor.rest)).head? ≠ some '=') :
    Faultless s (({ s with spaceSeen := false } : Scanner).scanName s.spaceSeen) ∧
      (({ s with spaceSeen := false } : Scanner).scanName s.spaceSeen).resume = s.resume ∧
      (({ s with spaceSeen := false } : Scanner).scanName s.spaceSeen).cursor =
        Cursor.advanceBy (nameLength s.cursor.rest) s.cursor := by
  obtain ⟨kind, hcore⟩ :=
    core_scanName { s with spaceSeen := false } s.spaceSeen hcolon hequals
  exact ⟨⟨(modes_eq_of_core hcore :), (congrArg Scanner.faults hcore :)⟩, (resume_eq_of_core hcore :),
    (cursor_eq_of_core hcore :)⟩

/-- A blank that is no space of a line, and no end of one, lies beyond ASCII. -/
lemma isBeyondAscii_of_blank (hblank : isBlank c = true) (hline : c ∉ lineBlanks) (hbreak : c ≠ '\n')
    (hreturn : c ≠ '\r') : isBeyondAscii c = true := by
  by_contra hascii
  have hlt : c.toNat < 128 := by simpa [isBeyondAscii] using hascii
  have hall : ∀ n < 128, isBlank (Char.ofNat n) = true →
      Char.ofNat n ∈ '\n' :: '\r' :: lineBlanks := by decide +kernel
  have hmem := hall c.toNat hlt (by rwa [Char.ofNat_toNat])
  rw [Char.ofNat_toNat, List.mem_cons, List.mem_cons] at hmem
  tauto

/-- A name has the length of its run of characters, unless a mark belongs to it. -/
lemma nameLength_eq (hquestion : (cs.drop (cs.takeWhile continuesName).length).head? ≠ some '?')
    (hbang : (cs.drop (cs.takeWhile continuesName).length).head? ≠ some '!') :
    nameLength cs = (cs.takeWhile continuesName).length := by
  unfold nameLength
  dsimp only
  generalize cs.drop (cs.takeWhile continuesName).length = ds at hquestion hbang
  split
  · rfl
  · rfl
  · exact absurd rfl hquestion
  · exact absurd rfl hbang
  · rfl

/-- A blank beyond ASCII begins a name, which goes on with nothing but such blanks. -/
lemma Coding.scanToken_idle (h : s.Coding) (hat : s.cursor.rest = c :: cs)
    (hbeyond : isBeyondAscii c = true) (hidle : idle false s.cursor.rest = true) :
    s.skipTrivia? = none ∧ ∃ s', (∀ nested, s.scanToken nested c = some s') ∧ Faultless s s' ∧
      s'.Coding ∧ idle false s'.cursor.rest = true := by
  have hge : 128 ≤ c.toNat := by simpa [isBeyondAscii] using hbeyond
  have hne {d : Char} (hd : d.toNat < 128) : c ≠ d := by
    rintro rfl
    omega
  have hname : startsName c = true := by simp [startsName, hbeyond]
  have hdigit : isAsciiDigit c = false := by
    rw [isAsciiDigit, Bool.and_eq_false_iff]
    right
    rw [decide_eq_false_iff_not, Char.le_def, UInt32.le_iff_toNat_le]
    exact Nat.not_le.mpr (lt_of_lt_of_le (by decide) hge)
  have hline : c ∉ lineBlanks := by
    simp [lineBlanks, hne (d := ' ') (by decide), hne (d := '\t') (by decide),
      hne (d := '\x0b') (by decide), hne (d := '\x0c') (by decide)]
  have hinLine : isInLine c = true := by
    simp [isInLine, hne (d := '\n') (by decide), hne (d := '\r') (by decide)]
  refine ⟨skipTrivia?_token (atDocument_of_head (hne (by decide)) hat) hat hline hinLine
    (hne (by decide)) fun hc => absurd hc (hne (by decide)), ?_⟩
  have hcomment : continuesName '#' = false := by decide
  have hrun := idle_run hcomment hidle
  rw [← nameLength_eq (idle_head?_ne hrun (by decide) (by decide))
    (idle_head?_ne hrun (by decide) (by decide))] at hrun
  obtain ⟨hfaultless, hresume, hcursor⟩ := faultless_scanName s
    (idle_head?_ne hrun (by decide) (by decide)) (idle_head?_ne hrun (by decide) (by decide))
  refine ⟨_, fun nested => scanToken_of_name nested hat hname hdigit, hfaultless,
    h.forward hfaultless hresume hcursor, ?_⟩
  rw [hcursor, Cursor.rest_advanceBy]
  exact hrun

/-- A step in an idle text finds no fault and leaves an idle text. -/
theorem step_idle (h : s.Coding) (hidle : idle false s.cursor.rest = true) (hne : s.cursor.rest ≠ []) :
    ∃ s', (∀ nested, s.step nested = some (.more s')) ∧ Faultless s s' ∧ s'.Coding ∧
      idle false s'.cursor.rest = true := by
  have hmarker : atEndMarker s.cursor.rest = false := by
    have hhead := idle_head?_ne hidle (d := '_') (by decide) (by decide)
    have hstarts : "__END__".toList.isPrefixOf s.cursor.rest = false := by
      rw [Bool.eq_false_iff]
      intro hstarts
      obtain ⟨ds, hds⟩ := List.isPrefixOf_iff_prefix.mp hstarts
      exact hhead (by rw [← hds]; rfl)
    rw [atEndMarker, hstarts, Bool.false_and]
  have hend : (s.atTopLine && atEndMarker s.cursor.rest) = false := by rw [hmarker, Bool.and_false]
  obtain ⟨c, cs, hat⟩ := List.exists_cons_of_ne_nil hne
  have hblank (n : ℕ) : Faultless s (s.skipBlank n) ∧ (s.skipBlank n).Coding :=
    ⟨⟨rfl, rfl⟩, h.forward ⟨rfl, rfl⟩ rfl rfl⟩
  rw [hat] at hidle
  rcases idle_cons hidle with ⟨hspace, htail⟩ | ⟨rfl, hcomment⟩
  · have hone {t : Scanner} (ht : t.cursor = Cursor.advanceBy 1 s.cursor) :
        idle false t.cursor.rest = true := by
      rw [ht, Cursor.rest_advanceBy, hat]
      exact htail
    by_cases hbreak : c = '\n'
    · subst hbreak
      obtain ⟨hfaultless, hresume, hcursor⟩ := faultless_scanNewline (s := s)
      -- A line break is ahead, so there is nothing to jump over.
      have hnone : s.resume = none := h.inPlace.resolve_right fun hline => hline (by simp [hat])
      rw [hnone, Option.getD_none] at hcursor
      exact ⟨_, step_of_skipTrivia h.code hend (skipTrivia?_lineBreak hat), hfaultless,
        ⟨hfaultless.inCode h.code, .inl hresume⟩, hone hcursor⟩
    by_cases hreturn : c = '\r'
    · subst hreturn
      exact ⟨_, step_of_skipTrivia h.code hend (skipTrivia?_return hat), (hblank 1).1, (hblank 1).2,
        hone rfl⟩
    by_cases hline : c ∈ lineBlanks
    · exact ⟨_, step_of_skipTrivia h.code hend (skipTrivia?_blank hline hat), (hblank 1).1, (hblank 1).2,
        hone rfl⟩
    obtain ⟨hnone, t, hread, hfaultless, hcoding, ht⟩ :=
      h.scanToken_idle hat (isBeyondAscii_of_blank hspace hline hbreak hreturn) (hat ▸ hidle)
    refine ⟨t, fun nested => ?_, hfaultless, hcoding, ht⟩
    rw [step_of_scanToken h.code hend hnone hat, hread, Option.map_some]
  · refine ⟨_, step_of_skipTrivia h.code hend (skipTrivia?_comment hat), (hblank _).1, (hblank _).2, ?_⟩
    change idle false (Cursor.advanceBy _ s.cursor).rest = true
    have hrun : idle false (('#' :: cs).drop (('#' :: cs).takeWhile (· != '\n')).length) = true :=
      idle_comment hcomment
    rw [Cursor.rest_advanceBy, Cursor.run, hat]
    exact hrun

end RubyCheck.Scanner
