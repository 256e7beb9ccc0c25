import RubyCheck.Proofs.EndMarker
import RubyCheck.Proofs.Scanner.Idle

/-!
# Scanning the first lines of a text

The first lines of a text are scanned like the whole text, if nothing is left open where they end and no
opener in them is gone back to: up to the blank lines and comments at their end, where a line break may
end a statement that goes on behind them.  `CutStep` says so of one step.  So what is found in them is
found in the whole text (`mem_faults_of_run_cut`), but for literals and documents that are not closed in
them; and it is found there at the end as well, whatever openers behind them are gone back to
(`mem_faults_of_run`).
-/

namespace RubyCheck.Scanner

open Text Source

variable {source cut tail : List Char} {c : Char} {cs : List Char} {s s' t : Scanner} {f : Fault}
  {n fuel : ℕ}

/-! ### States of a text -/

/-- A state that is passed through in reading a text, outside the bodies of its heredocs. -/
structure Underway (source : List Char) (s : Scanner) : Prop where
  visited : Visited source s
  sound : Sound (Placed source) s

lemma underway_ofText (source : List Char) : Underway source (ofText source) :=
  ⟨.start, sound_ofText (placed_ofText source)⟩

/-- Every turn leads to another such state. -/
lemma Underway.turn (h : Underway source s) (hstep : s.step (run fuel) = some (.more s')) :
    Underway source s' := by
  obtain ⟨hsafe, hbody⟩ := (placed_kept source).step_more ((placed_kept source).run_safe fuel)
    (.outer h.sound) hstep
  exact ⟨h.visited.turn ⟨fuel, hstep⟩, hsafe.sound (hbody.trans h.sound.outermost)⟩

/-! ### Where nothing more is found -/

/-- Where the text has run out in code, everything that is open is closed. -/
lemma findsOpen_of_end (hstraight : Straight source) (hs : Underway source s) (hcode : s.InCode)
    (hrest : s.cursor.rest = []) {r : Step} (hstep : s.step (run fuel) = some r) :
    ∃ s', r = .done s' ∧ FindsOpen s s' := by
  have hmarker : atEndMarker s.cursor.rest = false := by
    rw [hrest]
    decide +kernel
  have hend : s.step (run fuel) = some s.endOfText := by
    rw [step_of_code hcode, hmarker, Bool.and_false, skipTrivia?_nil hrest, hrest]
    simp
  obtain rfl : s.endOfText = r := Option.some.inj (hend.symm.trans hstep)
  obtain ⟨d, outer, hmodes⟩ := hcode
  rcases endOfText_cases hrest (by simp [hmodes]) with ⟨hdone, -⟩ | ⟨s', hdone, hcloses⟩ |
    ⟨s', hmore, hrewind⟩
  · exact ⟨s, hdone, .of_faults_eq rfl⟩
  · exact ⟨s', hdone, hcloses.findsOpen⟩
  · obtain ⟨opener, hgoes⟩ := hrewind.goesBack (.outer hs.sound)
    rw [hmore] at hend
    exact absurd hgoes (hstraight s s' opener hs.visited ⟨fuel, hend⟩)

/-- In front of nothing but blanks and comments, only what is left open is found. -/
theorem findsOpen_of_idle (hstraight : Straight source) (hs : Underway source s) (h : s.Coding)
    (hidle : idle false s.cursor.rest = true) (hrun : run fuel s = some t) : FindsOpen s t := by
  induction fuel generalizing s with
  | zero => simp [run] at hrun
  | succ fuel ih =>
    rw [run] at hrun
    by_cases hrest : s.cursor.rest = []
    · cases hstep : s.step (run fuel) with
      | none => simp [hstep] at hrun
      | some r =>
        obtain ⟨s', rfl, hfinds⟩ := findsOpen_of_end hstraight hs h.code hrest hstep
        rw [hstep] at hrun
        obtain rfl := Option.some.inj hrun
        exact hfinds
    · obtain ⟨s', hstep, hfaultless, hcoding, hidle'⟩ := step_idle h hidle hrest
      rw [hstep] at hrun
      exact FindsOpen.trans (.of_faults_eq hfaultless.faults)
        (ih (hs.turn (hstep (run fuel))) hcoding hidle' hrun)

/-! ### Cuts -/

/-- A text that may be cut behind its end: no literal in it is gone back to, no heredoc reaches to its end,
and its last line is not continued. -/
structure CutClean (cut : List Char) : Prop where
  straight : Straight cut
  heredocs : ∀ s, Visited cut s → s.inBody = false → ∀ r ∈ s.resume, r.rest ≠ []
  continued : cut.getLast? ≠ some '\\'

/-- How a step in the first lines of a text is related to the step in the whole text. -/
inductive CutStep (tail : List Char) (nested : Scanner → Option Scanner) (s : Scanner) (r : Step) : Prop
  /-- The same is done in the whole text. -/
  | alike (step : (s.extend tail).step nested = some (r.extend tail))
  /-- From here on nothing is found but what is left open. -/
  | opens (finds : FindsOpen s r.scanner)
      (idle : ∀ s', r = .more s' → s'.Coding ∧ Scanner.idle false s'.cursor.rest = true)

lemma atDocument_extend (htail : tail.head? = some '\n') :
    (s.extend tail).atDocument = s.atDocument := by
  rw [atDocument, atDocument, atTopLine_extend, cursor_extend, Cursor.rest_extend,
    atWord_append (by decide +kernel) (.inr htail)]

/-- A program ends at the same line of the first lines and of the whole text, unless a carriage return
at the end of the first lines is what keeps it going. -/
lemma atEndMarker_of_append (htail : tail.head? = some '\n') :
    atEndMarker (cs ++ tail) = atEndMarker cs ∨ cs = "__END__".toList ++ ['\r'] := by
  have hmark : InLine "__END__".toList := by decide +kernel
  have hbegins : "__END__".toList.isPrefixOf (cs ++ tail) = "__END__".toList.isPrefixOf cs := by
    rw [← isPrefixOf_lineAhead hmark, lineAhead_append (.inr htail), isPrefixOf_lineAhead hmark]
  obtain ⟨rest, rfl⟩ := List.head?_eq_some_iff.mp htail
  unfold atEndMarker
  rw [hbegins]
  by_cases hstarts : "__END__".toList.isPrefixOf cs = true
  · obtain ⟨ds, rfl⟩ := List.isPrefixOf_iff_prefix.mp hstarts
    have hdrop (es : List Char) : ("__END__".toList ++ es).drop 7 = es := rfl
    rw [List.append_assoc, hdrop, hdrop]
    cases ds with
    | nil => exact .inl rfl
    | cons d ds =>
      cases ds with
      | nil =>
        by_cases hd : d = '\r'
        · subst hd
          exact .inr rfl
        · left
          by_cases hbreak : d = '\n'
          · subst hbreak
            rfl
          · simp [hd, hbreak]
      | cons e es =>
        left
        by_cases hd : d = '\r'
        · subst hd
          by_cases he : e = '\n'
          · subst he
            rfl
          · simp [he]
        · by_cases hbreak : d = '\n'
          · subst hbreak
            rfl
          · simp [hd, hbreak]
  · rw [Bool.not_eq_true] at hstarts
    left
    rw [hstarts, Bool.false_and, Bool.false_and]

/-- The line that ends the program, cut behind a carriage return, is a name. -/
lemma step_marker (hcode : s.InCode) (hat : s.cursor.rest = "__END__".toList ++ ['\r']) :
    ∃ s', (∀ nested, s.step nested = some (.more s')) ∧ Faultless s s' ∧ s'.Coding ∧
      idle false s'.cursor.rest = true := by
  have hmarker : atEndMarker s.cursor.rest = false := by
    rw [hat]
    decide +kernel
  have hend : (s.atTopLine && atEndMarker s.cursor.rest) = false := by rw [hmarker, Bool.and_false]
  have hlength : nameLength s.cursor.rest = 7 := by
    rw [hat]
    decide +kernel
  have hbehind : s.cursor.rest.drop (nameLength s.cursor.rest) = ['\r'] := by
    rw [hlength, hat]
    rfl
  have hat' : s.cursor.rest = '_' :: ("_END__".toList ++ ['\r']) := hat
  have hnone : s.skipTrivia? = none :=
    skipTrivia?_token (atDocument_of_head (by decide) hat') hat' (by decide) (by decide) (by decide)
      (by decide)
  obtain ⟨hfaultless, -, hcursor⟩ :=
    faultless_scanName s (by rw [hbehind]; decide) (by rw [hbehind]; decide)
  have hrest : (({ s with spaceSeen := false } : Scanner).scanName s.spaceSeen).cursor.rest = ['\r'] := by
    rw [hcursor, Cursor.rest_advanceBy, hbehind]
  refine ⟨_, fun nested => ?_, hfaultless, ⟨hfaultless.inCode hcode, .inr ?_⟩, ?_⟩
  · rw [step_of_scanToken hcode hend hnone hat', scanToken_of_name nested hat' (by decide) (by decide),
      Option.map_some]
  · rw [hrest]
    decide
  · rw [hrest]
    decide

/-- A line break is read alike, or nothing but blank lines and comments follows it. -/
lemma scanNewline_extend_or_idle (htail : tail.head? = some '\n') (hat : s.cursor.rest = '\n' :: cs) :
    (s.extend tail).scanNewline = s.scanNewline.extend tail ∨
      idle false s.scanNewline.cursor.rest = true := by
  by_cases hmatters : (s.extend tail).newlineMatters = s.newlineMatters
  · exact .inl (scanNewline_extend_of_matters (by simp [hat]) hmatters)
  right
  have hne : s.cursor.rest ≠ [] := by simp [hat]
  obtain ⟨-, -, hcursor⟩ := faultless_scanNewline (s := s)
  have hexpects : (s.extend tail).expects = s.expects := rfl
  rw [hcursor]
  unfold newlineMatters at hmatters
  rw [hexpects] at hmatters
  cases hresume : s.resume with
  | some r =>
    have hresume' : (s.extend tail).resume = some (r.extend tail) := by simp [extend, hresume]
    rw [Option.getD_some]
    refine idle_of_continuesChain_ne htail fun hsame => hmatters ?_
    rw [hresume, hresume']
    simp only [Option.map_some, Option.getD_some, Cursor.rest_extend, hsame]
  | none =>
    have hresume' : (s.extend tail).resume = none := by simp [extend, hresume]
    rw [Option.getD_none, Cursor.rest_advanceBy, List.drop_one]
    refine idle_of_continuesChain_ne htail fun hsame => hmatters ?_
    rw [hresume, hresume', cursor_extend, Cursor.advance_extend hne]
    simp only [Option.map_none, Option.getD_none, Cursor.rest_extend, Cursor.rest_advance, hsame]

/-- A document is read alike, or it goes on behind the first lines. -/
lemma skipDocument_extend_or_runsOut (htail : tail.head? = some '\n') :
    (s.extend tail).skipDocument = s.skipDocument.extend tail ∨ RunsOut s s.skipDocument := by
  unfold skipDocument
  obtain ⟨n, found, hend⟩ : ∃ n found, documentEnd 0 s.cursor.rest = (n, found) := ⟨_, _, rfl⟩
  cases found with
  | true =>
    left
    rw [cursor_extend, Cursor.rest_extend, hend, documentEnd_append hend (.inr htail)]
    exact skip_extend ((documentEnd_le hend).trans_eq (Nat.zero_add _))
  | false =>
    right
    rw [hend]
    refine ⟨?_, rfl, ⟨.unterminatedComment, s.spanOf n⟩, rfl, rfl⟩
    change (Cursor.advanceBy n s.cursor).rest = []
    rw [Cursor.rest_advanceBy, documentEnd_false hend, Nat.zero_add, List.drop_length]

/-- Within a line, and where no document begins, the same is passed over. -/
lemma skipTrivia?_extend_of_line (htail : tail.head? = some '\n') (hdocument : s.atDocument = false)
    (hat : s.cursor.rest = c :: cs) (hbreak : c ≠ '\n') (hcontinued : (c :: cs).getLast? ≠ some '\\') :
    (s.extend tail).skipTrivia? = s.skipTrivia?.map (extend tail) := by
  have hat' : (s.extend tail).cursor.rest = c :: (cs ++ tail) := by
    rw [cursor_extend, Cursor.rest_extend, hat, List.cons_append]
  have hdocument' := (atDocument_extend htail).trans hdocument
  have hblank {n : ℕ} (hn : n ≤ s.cursor.rest.length) :
      some ((s.extend tail).skipBlank n) = (some (s.skipBlank n)).map (extend tail) :=
    congrArg some (skipBlank_extend hn)
  have hone : 1 ≤ s.cursor.rest.length := by simp [hat]
  by_cases hreturn : c = '\r'
  · subst hreturn
    rw [skipTrivia?_return hat, skipTrivia?_return hat', hblank hone]
  by_cases hspace : c ∈ lineBlanks
  · rw [skipTrivia?_blank hspace hat, skipTrivia?_blank hspace hat', hblank hone]
  by_cases hcomment : c = '#'
  · subst hcomment
    have hrun : (s.extend tail).cursor.run (· != '\n') = s.cursor.run (· != '\n') :=
      congrArg List.length (takeWhile_append_of_held (.inr htail))
    have hle : s.cursor.run (· != '\n') ≤ s.cursor.rest.length := (List.takeWhile_prefix _).length_le
    rw [skipTrivia?_comment hat, skipTrivia?_comment hat', hrun, hblank hle]
  have hline : isInLine c = true := by simp [isInLine, hbreak, hreturn]
  by_cases hnext : c = '\\' ∧ cs.head? = some '\n'
  · obtain ⟨rfl, hhead⟩ := hnext
    obtain ⟨ds, rfl⟩ := List.head?_eq_some_iff.mp hhead
    have htwo : 2 ≤ s.cursor.rest.length := by simp [hat]
    rw [skipTrivia?_of_text hdocument, skipTrivia?_of_text hdocument', hat, hat']
    exact hblank htwo
  rw [skipTrivia?_token hdocument hat hspace hline hcomment fun hc hhead => hnext ⟨hc, hhead⟩]
  refine skipTrivia?_token hdocument' hat' hspace hline hcomment fun hc hhead => ?_
  cases cs with
  | nil => exact hcontinued (by rw [hc]; rfl)
  | cons d ds => exact hnext ⟨hc, hhead⟩

/-- What runs out of the first lines leaves nothing to be found but what is open. -/
lemma CutStep.of_runsOut {nested : Scanner → Option Scanner} (hcode : s.InCode) (h : RunsOut s s') :
    CutStep tail nested s (.more s') := by
  obtain ⟨hrest, hmodes, f, hf, hfaults⟩ := h
  refine .opens (.of_faults_cons hf hfaults) ?_
  rintro _ ⟨⟩
  refine ⟨⟨?_, .inr (by simp [hrest])⟩, by rw [hrest]; rfl⟩
  obtain ⟨d, outer, hmodes'⟩ := hcode
  exact ⟨d, outer, hmodes.trans hmodes'⟩

/-- A step that finds nothing and leaves nothing but blanks and comments ahead. -/
lemma CutStep.of_faultless {nested : Scanner → Option Scanner} (h : Faultless s s') (hcoding : s'.Coding)
    (hidle : idle false s'.cursor.rest = true) : CutStep tail nested s (.more s') := by
  refine .opens (.of_faults_eq h.faults) ?_
  rintro _ ⟨⟩
  exact ⟨hcoding, hidle⟩

/-- A heredoc of the first lines has the same body in the whole text: it ends in front of the cut. -/
lemma sameBody_of_cut (hcut : CutClean cut) (hs : Underway cut s') {o : HeredocOpener}
    (ho : s.heredocOpener? = some o) {spaced : Bool} {body : Scanner}
    (heq : s'.core = (s.spliceBody o spaced body).core) : SameBody tail s o := by
  refine sameBody_of_ahead ho (hcut.heredocs s' hs.visited hs.sound.outermost _ ?_)
  rw [resume_eq_of_core heq]
  rfl

/-- A token of the first lines is read alike, or left open where they end. -/
lemma step_cut_of_token (htail : tail.head? = some '\n') (hcut : CutClean cut) (hs : Underway cut s)
    (hcontinued : s.cursor.rest.getLast? ≠ some '\\') (hcode : s.InCode) (hat : s.cursor.rest = c :: cs)
    (hend : (s.atTopLine && atEndMarker s.cursor.rest) = false)
    (hend' : ((s.extend tail).atTopLine && atEndMarker (s.extend tail).cursor.rest) = false)
    (hnone : s.skipTrivia? = none) (hnone' : (s.extend tail).skipTrivia? = none) {r : Step}
    (hstep : s.step (run fuel) = some r) : CutStep tail (run fuel) s r := by
  have hread := hstep
  rw [step_of_scanToken hcode hend hnone hat] at hread
  obtain ⟨s', hscan, rfl⟩ := Option.map_eq_some_iff.mp hread
  rcases scanToken_extend (.inr htail) hcontinued hat (isInLine_of_skipTrivia?_eq_none hat hnone) hscan
    fun _ _ _ ho heq => sameBody_of_cut hcut (hs.turn hstep) ho heq with hextend | hout
  · have hcode' : (s.extend tail).InCode := hcode
    have hat' : (s.extend tail).cursor.rest = c :: (cs ++ tail) := by
      rw [cursor_extend, Cursor.rest_extend, hat, List.cons_append]
    refine .alike ?_
    rw [step_of_scanToken hcode' hend' hnone' hat', hextend]
    rfl
  · exact .of_runsOut hcode hout

/-- A step in the code of the first lines. -/
lemma step_cut_of_code (htail : tail.head? = some '\n') (hcut : CutClean cut) (hs : Underway cut s)
    (hcontinued : s.cursor.rest.getLast? ≠ some '\\') (hcode : s.InCode) {r : Step}
    (hstep : s.step (run fuel) = some r) : CutStep tail (run fuel) s r := by
  by_cases hne : s.cursor.rest = []
  · obtain ⟨s', rfl, hfinds⟩ := findsOpen_of_end hcut.straight hs hcode hne hstep
    exact .opens hfinds (by simp)
  obtain ⟨c, cs, hat⟩ := List.exists_cons_of_ne_nil hne
  have hat' : (s.extend tail).cursor.rest = c :: (cs ++ tail) := by
    rw [cursor_extend, Cursor.rest_extend, hat, List.cons_append]
  have hcode' : (s.extend tail).InCode := hcode
  by_cases hmark : s.cursor.rest = "__END__".toList ++ ['\r']
  · obtain ⟨s', hs', hfaultless, hcoding, hidle⟩ := step_marker hcode hmark
    obtain rfl := Option.some.inj ((hs' _).symm.trans hstep)
    exact .of_faultless hfaultless hcoding hidle
  have hsame : ((s.extend tail).atTopLine && atEndMarker (s.extend tail).cursor.rest) =
      (s.atTopLine && atEndMarker s.cursor.rest) := by
    rw [atTopLine_extend, cursor_extend, Cursor.rest_extend,
      (atEndMarker_of_append htail).resolve_right hmark]
  by_cases hend : (s.atTopLine && atEndMarker s.cursor.rest) = true
  · rw [step_of_code hcode, if_pos hend] at hstep
    obtain rfl := Option.some.inj hstep
    refine .alike ?_
    rw [step_of_code hcode', if_pos (hsame.trans hend)]
    rfl
  rw [Bool.not_eq_true] at hend
  have hend' := hsame.trans hend
  -- What both pass over in the same way.
  have hpassed {u : Scanner} (hu : s.skipTrivia? = some u)
      (hu' : (s.extend tail).skipTrivia? = some (u.extend tail)) : CutStep tail (run fuel) s r := by
    rw [step_of_skipTrivia hcode hend hu] at hstep
    obtain rfl := Option.some.inj hstep
    exact .alike (step_of_skipTrivia hcode' hend' hu' _)
  by_cases hdocument : s.atDocument = true
  · have hskip := skipTrivia?_document ((atDocument_extend htail).trans hdocument)
    rcases skipDocument_extend_or_runsOut htail with hsame | hout
    · exact hpassed (skipTrivia?_document hdocument) (hsame ▸ hskip)
    · rw [step_of_skipTrivia hcode hend (skipTrivia?_document hdocument)] at hstep
      obtain rfl := Option.some.inj hstep
      exact .of_runsOut hcode hout
  rw [Bool.not_eq_true] at hdocument
  by_cases hbreak : c = '\n'
  · subst hbreak
    rcases scanNewline_extend_or_idle htail hat with hsame | hidle
    · exact hpassed (skipTrivia?_lineBreak hat) (hsame ▸ skipTrivia?_lineBreak hat')
    · obtain ⟨hfaultless, hresume, -⟩ := faultless_scanNewline (s := s)
      rw [step_of_skipTrivia hcode hend (skipTrivia?_lineBreak hat)] at hstep
      obtain rfl := Option.some.inj hstep
      exact .of_faultless hfaultless ⟨hfaultless.inCode hcode, .inl hresume⟩ hidle
  have hskip := skipTrivia?_extend_of_line htail hdocument hat hbreak (hat ▸ hcontinued)
  cases htrivia : s.skipTrivia? with
  | some u => exact hpassed htrivia (by rw [hskip, htrivia, Option.map_some])
  | none =>
    have hnone' : (s.extend tail).skipTrivia? = none := by rw [hskip, htrivia, Option.map_none]
    exact step_cut_of_token htail hcut hs hcontinued hcode hat hend hend' htrivia hnone' hstep

/-- A step in the first lines of a text. -/
theorem step_cut (htail : tail.head? = some '\n') (hcut : CutClean cut) (hs : Underway cut s)
    (hcontinued : s.cursor.rest.getLast? ≠ some '\\') {r : Step} (hstep : s.step (run fuel) = some r) :
    CutStep tail (run fuel) s r := by
  have halt : Alternates s.modes := hs.sound.stacked.alternates
  rcases halt.inCode_or_literal with hcode | ⟨l, outer, hmodes⟩
  · exact step_cut_of_code htail hcut hs hcontinued hcode hstep
  have hback : ∀ s' opener, r = .more s' → ¬ GoesBack s s' opener := by
    rintro s' opener rfl
    exact hcut.straight s s' opener hs.visited ⟨fuel, hstep⟩
  have hbrace : tail.head? ≠ some '\x7b' := by simp [htail]
  have hletter : tail.head?.any isAsciiLetter = false := by
    rw [htail]
    decide
  rcases step_extend_or_closes hbrace hletter hs.sound hmodes hstep hback with
    hextend | ⟨t, s', hcontent, hcloses, rfl⟩
  · exact .alike hextend
  · have hs' := hs.turn hstep
    obtain ⟨hcursor, -, -, -, hlength⟩ := hcloses.fields
    obtain ⟨-, hstop, -⟩ := id hcloses
    have hrest : s'.cursor.rest = [] := by rw [hcursor, hstop]
    have hcode : s'.InCode := by
      have halt' : Alternates s'.modes := hs'.sound.stacked.alternates
      rcases halt'.inCode_or_literal with hcode | ⟨l', outer', hmodes'⟩
      · exact hcode
      · rw [hmodes'] at halt' hlength
        obtain rfl : outer' = [] := by simpa using hlength
        cases halt'
    refine .opens ?_ ?_
    · exact hcontent.findsOpen.trans hcloses.findsOpen
    · rintro _ ⟨⟩
      exact ⟨⟨hcode, .inr (by simp [hrest])⟩, by rw [hrest]; rfl⟩

/-! ### Runs -/

/-- A state that going back to brings a fault back, or that stands no further than a place. -/
def Before (n : ℕ) (f : Fault) (u : Scanner) : Prop := f ∈ u.faults ∨ u.cursor.position.byte ≤ n

/-- What is found in the first lines of a text is still found when all is read: an opener that is gone
back to stands behind the place up to which nothing was found since. -/
theorem mem_faults_of_run (hback : StraightTo n source) (hs : Underway source s)
    (hrecorded : Recorded (Before n f) s) (hf : f ∈ s.faults) (hrun : run fuel s = some t) :
    f ∈ t.faults := by
  induction fuel generalizing s with
  | zero => simp [run] at hrun
  | succ fuel ih =>
    rw [run] at hrun
    split at hrun
    · simp at hrun
    · rename_i s' hstep
      obtain rfl := Option.some.inj hrun
      rcases step_done hs.sound.stacked.alternates hstep with ⟨rfl, -⟩ | hcloses
      · exact hf
      · exact hcloses.findsOpen.kept.subset hf
    · rename_i s' hstep
      have hrecorded' : Recorded (Before n f) s' := by
        refine (hrecorded.step_more (placed_kept source) hs.sound hstep).mono ?_
        rintro u (hu | rfl)
        · exact hu
        · exact .inl hf
      refine ih (hs.turn hstep) hrecorded' ?_ hrun
      by_cases hgoes : ∃ opener, GoesBack s s' opener
      · obtain ⟨opener, hgoes⟩ := hgoes
        have hbehind := hback s s' opener hs.visited ⟨fuel, hstep⟩ hgoes
        obtain ⟨u, hu, -, -, hopener, rfl⟩ :=
          hrecorded.goesBack (placed_kept source) hs.sound hstep hgoes
        exact hu.resolve_right (by omega)
      · exact (faults_suffix_of_step hs.sound hstep (not_exists.mp hgoes)).subset hf

/-- A state of the first lines stands no further than where they end. -/
lemma Faces.byte_le (h : Faces source s) : s.cursor.position.byte ≤ Source.byteLength source := by
  obtain ⟨before, hbefore, hposition⟩ := h.cursor
  rw [hposition, Position.byte_behind, hbefore, Source.byteLength_append]
  exact Nat.le_add_right _ _

lemma Faces.getLast?_ne (h : Faces source s) (hsource : source.getLast? ≠ some c) :
    s.cursor.rest.getLast? ≠ some c := by
  obtain ⟨before, rfl, -⟩ := h.cursor
  intro hlast
  rw [List.getLast?_append, hlast] at hsource
  exact hsource rfl

/-- What is found in the first lines of a text is found in the whole text, but for what is left open
where they end. -/
theorem mem_faults_of_run_cut {fuel' : ℕ} {t' : Scanner} (htail : tail.head? = some '\n')
    (hcut : CutClean cut) (hback : StraightTo (Source.byteLength cut) (cut ++ tail))
    (hs : Underway cut s) (hfaces : Faces cut s) (hs' : Underway (cut ++ tail) (s.extend tail))
    (hrecorded : Recorded (Before (Source.byteLength cut) f) (s.extend tail))
    (hrun : run fuel s = some t) (hlong : run fuel' (s.extend tail) = some t') (hf : f ∈ t.faults)
    (hclosed : f.cause.leavesOpen = false) : f ∈ t'.faults := by
  induction fuel generalizing s fuel' with
  | zero => simp [run] at hrun
  | succ fuel ih =>
    by_cases hold : f ∈ s.faults
    · exact mem_faults_of_run hback hs' hrecorded hold hlong
    -- Where nothing but what is open is found, the fault is not.
    have hnone (hfinds : FindsOpen s t) : f ∈ t'.faults := by
      rcases hfinds.found f hf with hmem | hopen
      · exact absurd hmem hold
      · simp [hclosed] at hopen
    rw [run] at hrun
    split at hrun
    · simp at hrun
    · rename_i s'' hstep
      obtain rfl := Option.some.inj hrun
      cases step_cut htail hcut hs (hfaces.getLast?_ne hcut.continued) hstep with
      | opens finds => exact hnone finds
      | alike step =>
        have hdone : run (fuel + 1) (s.extend tail) = some (s''.extend tail) := by
          rw [run, step]
          rfl
        have hsame := (run_mono (le_max_left _ _) hdone).symm.trans
          (run_mono (le_max_right (fuel + 1) _) hlong)
        obtain rfl := Option.some.inj hsame
        exact hf
    · rename_i s'' hstep
      have hs'' := hs.turn hstep
      cases step_cut htail hcut hs (hfaces.getLast?_ne hcut.continued) hstep with
      | opens finds idle =>
        obtain ⟨hcoding, hidle⟩ := idle s'' rfl
        exact hnone (finds.trans (findsOpen_of_idle hcut.straight hs'' hcoding hidle hrun))
      | alike step =>
        have hturn : Turn (s.extend tail) (s''.extend tail) := ⟨fuel, step⟩
        obtain ⟨fuel'', hlong'⟩ := hturn.run hlong
        have hfaces' : Faces cut s'' :=
          faces_of_step hs.sound hfaces hstep fun opener =>
            hcut.straight s s'' opener hs.visited ⟨fuel, hstep⟩
        refine ih hs'' hfaces' (hs'.turn step) ?_ hrun hlong'
        refine (hrecorded.step_more (placed_kept _) hs'.sound step).mono ?_
        rintro u (hu | rfl)
        · exact hu
        · exact .inr hfaces.byte_le

end RubyCheck.Scanner
