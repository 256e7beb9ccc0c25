import RubyCheck.Proofs.Scanner.Extend
import RubyCheck.Proofs.TokenStream

/-!
# The line that ends the program

Nothing behind the line `__END__` changes the tokens of the lines in front of it, nor the faults found
there, if there are none and no opener is gone back to.  A scanner of the lines in front makes the same
steps with that line and more behind them (`step_extend`), because it comes to the end of every literal
and heredoc before its text ends; and where its text ends, the longer text has the line.
-/

namespace RubyCheck

/-! ### Cursors -/

namespace Cursor

variable {source : List Char} {c : Cursor}

lemma Surveys.wholeLines (h : c.Surveys source) (hsource : Scanner.WholeLines source) :
    Scanner.WholeLines c.rest := by
  obtain ⟨before, rfl, -⟩ := h
  have hdrop := hsource.drop before.length
  rwa [List.drop_left] at hdrop

end Cursor

/-- Behind whole lines a line begins. -/
lemma Position.column_behind {source : List Char} (h : Scanner.WholeLines source) :
    (behind source).column = 0 := by
  rcases List.eq_nil_or_concat source with rfl | ⟨before, c, rfl⟩
  · rfl
  · rw [List.concat_eq_append] at h ⊢
    obtain rfl := h c (by simp)
    rw [behind_concat]
    rfl

namespace Scanner

variable {source tail : List Char} {s s' t : Scanner} {nested : Scanner → Option Scanner}

/-! ### Scanners that see the text to its end -/

/-- The scanner sees the text to its end, and goes on where it does. -/
structure Faces (source : List Char) (s : Scanner) : Prop where
  cursor : s.cursor.Surveys source
  resume : ∀ r ∈ s.resume, r.Surveys source

lemma faces_ofText (source : List Char) : Faces source (ofText source) :=
  ⟨Cursor.surveys_ofText source, by simp [ofText, ofCursor]⟩

lemma Faces.seesLines (h : Faces source s) (hsource : WholeLines source) : SeesLines s :=
  ⟨h.cursor.wholeLines hsource, fun r hr => (h.resume r hr).wholeLines hsource⟩

lemma Faces.bodyStart (h : Faces source s) (o : HeredocOpener) : (s.bodyStart o).Surveys source := by
  unfold Scanner.bodyStart
  cases hresume : s.resume with
  | some r => exact h.resume r hresume
  | none =>
    rw [Option.getD_none, Cursor.nextLine_eq_advanceBy]
    exact (h.cursor.advanceBy _).advanceBy _

lemma Faces.content (h : Faces source s) (hmove : Content s t) : Faces source t := by
  obtain ⟨n, hcursor, hresume⟩ := hmove.stride
  exact ⟨hcursor ▸ h.cursor.advanceBy n, hresume ▸ h.resume⟩

lemma Faces.forward (h : Faces source s) (hmove : Forward nested s s') : Faces source s' := by
  cases hmove.stride with
  | on n pos ahead cursor resume => exact ⟨cursor ▸ h.cursor.advanceBy n, resume ▸ h.resume⟩
  | out l outer modes modes' cursor resume => exact ⟨cursor ▸ h.cursor, resume ▸ h.resume⟩
  | jump rest code lineBreak pending resume modes =>
    exact ⟨h.resume _ pending, by simp [resume]⟩
  | heredoc o opener cursor resume =>
    refine ⟨cursor ▸ h.cursor.advanceBy _, fun r hr => ?_⟩
    rw [resume, Option.mem_some] at hr
    exact hr ▸ (h.bodyStart o).advanceBy _

/-! ### Where the text runs out -/

/-- Where a literal is innermost in code, or code in a literal, a literal is open. -/
lemma Alternates.exists_literal {ms : List Mode} (h : Alternates ms) (hdeep : 2 ≤ ms.length) :
    ∃ l, .literal l ∈ ms := by
  cases h with
  | outermost d => simp at hdeep
  | literal l d outer h => exact ⟨l, by simp⟩
  | code d l outer h => exact ⟨l, by simp⟩

/-- A literal that is open where everything is closed at the end of the text is a fault. -/
lemma Closes.faults_ne_nil (hdelimited : ∀ l, .literal l ∈ s.modes → l.close.isSome = true)
    (halt : Alternates s.modes) (h : Closes s s') : s'.faults ≠ [] := by
  have hopen := halt.exists_literal (by obtain ⟨-, -, hdeep, -⟩ := h; exact hdeep)
  have hholds : Alternates s'.modes ∧ (∀ l, .literal l ∈ s'.modes → l.close.isSome = true) ∧
      (s'.faults = [] → ∃ l, .literal l ∈ s'.modes) := by
    refine h.holds (Q := fun u => Alternates u.modes ∧
      (∀ l, .literal l ∈ u.modes → l.close.isSome = true) ∧
      (u.faults = [] → ∃ l, .literal l ∈ u.modes)) ?_ ?_ ?_
    · intro u v hcore hv
      rwa [modes_eq_of_core hcore, show u.faults = v.faults from (congrArg faults hcore :)]
    · rintro u m m' outer hmodes - ⟨halt', hdelimited', hopen'⟩
      refine ⟨alternates_dropMode hmodes halt', fun l hl => hdelimited' l ?_, fun hnone => ?_⟩
      · rw [hmodes]
        exact List.mem_cons_of_mem m hl
      · cases m with
        | code d =>
          obtain ⟨l, hl⟩ := hopen' hnone
          rw [hmodes] at hl
          exact ⟨l, (List.mem_cons.mp hl).resolve_left (by simp)⟩
        | literal l =>
          have hclose := hdelimited' l (by rw [hmodes]; exact List.mem_cons_self)
          have hfaults := congrArg Snapshot.faults (snapshot_dropMode_literal (s := u) hclose
            (m' :: outer))
          rw [show (u.dropMode (.literal l) (m' :: outer)).snapshot.faults = [] from hnone] at hfaults
          simp at hfaults
    · rintro t (⟨rfl, -⟩ | rfl)
      · exact ⟨halt, hdelimited, fun _ => hopen⟩
      · exact ⟨halt, hdelimited, fun _ => hopen⟩
  obtain ⟨halt', -, hliteral⟩ := hholds
  intro hnone
  obtain ⟨l, hl⟩ := hliteral hnone
  have hlength := h.fields.2.2.2.2
  generalize s'.modes = ms at halt' hl hlength
  cases halt' with
  | outermost d => simp at hl
  | literal l d outer h => simp at hlength
  | code d l outer h => simp at hlength

/-- What is found in addition is what is left open. -/
structure FindsOpen (s s' : Scanner) : Prop where
  kept : s.faults <:+ s'.faults
  found : ∀ f ∈ s'.faults, f ∈ s.faults ∨ f.cause.leavesOpen = true

lemma FindsOpen.of_faults_eq (h : s'.faults = s.faults) : FindsOpen s s' :=
  ⟨h ▸ List.suffix_rfl, fun _ hf => .inl (h ▸ hf)⟩

lemma FindsOpen.of_faults_cons {f : Fault} (hf : f.cause.leavesOpen = true)
    (h : s'.faults = f :: s.faults) : FindsOpen s s' := by
  refine ⟨h ▸ List.suffix_cons f s.faults, ?_⟩
  rw [h]
  exact List.forall_mem_cons.mpr ⟨.inr hf, fun _ hg => .inl hg⟩

lemma FindsOpen.trans (h : FindsOpen s t) (h' : FindsOpen t s') : FindsOpen s s' :=
  ⟨h.kept.trans h'.kept, fun f hf => (h'.found f hf).elim (h.found f) .inr⟩

/-- Dropping the innermost mode at the end of the text finds it open. -/
lemma findsOpen_dropMode (m : Mode) (outer : List Mode) : FindsOpen s (s.dropMode m outer) := by
  cases m with
  | code d => exact .of_faults_eq rfl
  | literal l =>
    cases hclose : l.close with
    | none => exact .of_faults_eq (congrArg Snapshot.faults (snapshot_dropMode_body hclose outer) :)
    | some d =>
      refine .of_faults_cons (f := ⟨l.flavor.unterminated, l.opener⟩) ?_
        (congrArg Snapshot.faults (snapshot_dropMode_literal (s := s) (by rw [hclose]; rfl) outer) :)
      cases l.flavor <;> rfl

/-- Reading content finds nothing. -/
lemma Content.findsOpen (h : Content s t) : FindsOpen s t := by
  obtain ⟨l, l', outer, stop, n, -, -, rfl⟩ := h
  refine .of_faults_eq ?_
  unfold emitContent
  split <;> rfl

/-- Closing everything at the end of the text finds what is left open. -/
lemma Closes.findsOpen (h : Closes s s') : FindsOpen s s' := by
  refine h.holds (Q := FindsOpen s) ?_ ?_ ?_
  · intro u v hcore hv
    exact hv.trans (.of_faults_eq (congrArg faults hcore :))
  · intro u m m' outer _ _ hu
    exact hu.trans (findsOpen_dropMode m _)
  · rintro t (⟨rfl, -⟩ | rfl)
    · exact .of_faults_eq rfl
    · exact .of_faults_eq rfl

/-! ### Turns -/

/-- No opener is gone back to while the text is read. -/
def Straight (source : List Char) : Prop :=
  ∀ s s' opener, Visited source s → Turn s s' → ¬ GoesBack s s' opener

/-- Only openers behind a place of the text are gone back to. -/
def StraightTo (n : ℕ) (source : List Char) : Prop :=
  ∀ s s' opener, Visited source s → Turn s s' → GoesBack s s' opener → n < opener

/-- Going back where a stretch of content ends is going back. -/
lemma exists_goesBack (hs : Sound (Placed source) s) (hcontent : t = s ∨ Content s t)
    (hmove : Rewind t s') : ∃ opener, GoesBack s s' opener := by
  rcases hcontent with rfl | hcontent
  · exact hmove.goesBack (.outer hs)
  · obtain ⟨opener, hgoes⟩ := hmove.goesBack ((placed_kept source).safe_content (.outer hs) hcontent)
    exact ⟨opener, hgoes.returns, hcontent.singleLine_eq ▸ hgoes.fresh,
      hcontent.singleLine_eq ▸ hgoes.singleLine⟩

/-- A step that goes back to no opener keeps the faults. -/
lemma faults_suffix_of_step (hs : Sound (Placed source) s) (hstep : s.step nested = some (.more s'))
    (hback : ∀ opener, ¬ GoesBack s s' opener) : s.faults <:+ s'.faults := by
  obtain ⟨t, ⟨hcontent, hforward | hrewind⟩ | ⟨hcontent, hcloses⟩⟩ :=
    step_more hs.stacked.alternates hstep
  · rcases hcontent with rfl | hcontent
    · exact hforward.grows.faults
    · exact hcontent.grows.faults.trans hforward.grows.faults
  · obtain ⟨opener, hgoes⟩ := exists_goesBack hs hcontent hrewind
    exact absurd hgoes (hback opener)
  · exact hcontent.grows.faults.trans hcloses.findsOpen.kept

/-- Behind a step that goes back to no opener the scanner sees the text to its end as before. -/
lemma faces_of_step (hs : Sound (Placed source) s) (hfaces : Faces source s)
    (hstep : s.step nested = some (.more s')) (hback : ∀ opener, ¬ GoesBack s s' opener) :
    Faces source s' := by
  obtain ⟨t, ⟨hcontent, hforward | hrewind⟩ | ⟨hcontent, hcloses⟩⟩ :=
    step_more hs.stacked.alternates hstep
  · rcases hcontent with rfl | hcontent
    · exact hfaces.forward hforward
    · exact (hfaces.content hcontent).forward hforward
  · obtain ⟨opener, hgoes⟩ := exists_goesBack hs hcontent hrewind
    exact absurd hgoes (hback opener)
  · obtain ⟨hcursor, hresume, -⟩ := hcloses.fields
    have hfaces' := hfaces.content hcontent
    exact ⟨hcursor ▸ hfaces'.cursor, hresume ▸ hfaces'.resume⟩

/-- Inside a literal a step is made alike in the longer text, or the text has run out and everything is
closed. -/
lemma step_extend_or_closes (hbrace : tail.head? ≠ some '\x7b')
    (hletter : tail.head?.any Text.isAsciiLetter = false) (hs : Sound (Placed source) s)
    {l : OpenLiteral} {outer : List Mode} (hmodes : s.modes = .literal l :: outer) {r : Step}
    (hstep : s.step nested = some r) (hback : ∀ s' opener, r = .more s' → ¬ GoesBack s s' opener) :
    (s.extend tail).step nested = some (r.extend tail) ∨
      ∃ t s', Content s t ∧ Closes t s' ∧ r = .more s' := by
  have halt : Alternates s.modes := hs.stacked.alternates
  obtain ⟨stop, n, l', hends, hgoes⟩ := continues_scanContent halt hmodes
  have hread (u : Scanner) (hu : u.modes = .literal l :: outer) :
      u.step nested = some (.more (u.scanContent l outer)) := by
    unfold step
    rw [hu]
  rw [hread s hmodes] at hstep
  obtain rfl := Option.some.inj hstep
  have hcontent : Content s ({ s with modes := .literal l' :: outer }.emitContent n) :=
    ⟨l, l', outer, stop, n, hmodes, hends, rfl⟩
  have hsound := hs.content hcontent
    ((placed_kept source).content halt hs.holds hcontent)
  by_cases hstop : stop = .endOfText
  · right
    subst hstop
    obtain ⟨k, hk, -, hstops, -⟩ := contentEnd_spec hends
    obtain rfl : n = k := by omega
    have hrest : ({ s with modes := .literal l' :: outer }.emitContent n).cursor.rest = [] := by
      rw [cursor_emitContent, Cursor.rest_advanceBy]
      generalize s.cursor.rest.drop n = rest at hstops
      cases hstops
      rfl
    have hdelimited := hsound.stacked.delimited
    have hmodes' := modes_emitContent (s := { s with modes := .literal l' :: outer }) n
    generalize ({ s with modes := .literal l' :: outer }.emitContent n) = t at *
    have hopen := hdelimited l' (by rw [snapshot_modes, hmodes']; exact List.mem_cons_self)
    cases hgoes with
    | enters stop => rw [hrest] at stop; cases stop
    | abandons stop => rw [hrest] at stop; cases stop
    | closes stop => rw [hrest] at stop; cases stop
    | endsBody unclosed => simp [unclosed] at hopen
    | rewinds move =>
      obtain ⟨opener, hgoes⟩ := exists_goesBack hs (.inr hcontent) move
      exact absurd hgoes (hback _ opener rfl)
    | ends move => exact ⟨t, _, hcontent, move, rfl⟩
  · left
    rw [hread (s.extend tail) hmodes, scanContent_extend hends hstop hbrace hletter]
    rfl

/-- Inside a literal that does not run to the end of the text a step is made alike in the longer
text. -/
lemma step_extend_of_literal (htail : Apart tail) (hs : Sound (Placed source) s) {l : OpenLiteral}
    {outer : List Mode} (hmodes : s.modes = .literal l :: outer) {r : Step}
    (hstep : s.step nested = some r) (hfaults : r.scanner.faults = [])
    (hback : ∀ s' opener, r = .more s' → ¬ GoesBack s s' opener) :
    (s.extend tail).step nested = some (r.extend tail) := by
  rcases step_extend_or_closes htail.brace htail.letter hs hmodes hstep hback with
    hextend | ⟨t, s', hcontent, hcloses, rfl⟩
  · exact hextend
  · have hsound := hs.content hcontent
      ((placed_kept source).content hs.stacked.alternates hs.holds hcontent)
    exact absurd hfaults
      (hcloses.faults_ne_nil hsound.stacked.delimited hsound.stacked.alternates)

/-- The line that ends the program, with what stands behind it. -/
structure EndsProgram (tail : List Char) : Prop where
  apart : Apart tail
  marker : atEndMarker tail = true

/-- A step that finds no fault and goes back to no opener is made alike in front of the line that ends
the program. -/
theorem step_extend (htail : EndsProgram tail) (hsource : WholeLines source)
    (hs : Sound (Placed source) s) (hfaces : Faces source s) {r : Step}
    (hstep : s.step nested = some r) (hfaults : r.scanner.faults = [])
    (hback : ∀ s' opener, r = .more s' → ¬ GoesBack s s' opener) :
    (s.extend tail).step nested = some (r.extend tail) := by
  have halt : Alternates s.modes := hs.stacked.alternates
  rcases halt.inCode_or_literal with hcode | ⟨l, outer, hmodes⟩
  · by_cases hrest : s.cursor.rest = []
    · -- The text has run out, and nothing is open there.
      cases r with
      | more s' =>
        cases advances_of_step halt hstep with
        | passes code how =>
          have hforward : Forward nested _ _ := how.forward code
          exact absurd hrest (hforward.ahead code)
        | lexes code ahead going => exact absurd hrest ahead
        | returns how =>
          obtain ⟨opener, hgoes⟩ := how.goesBack (.outer hs)
          exact absurd hgoes (hback s' opener rfl)
        | continues l l' outer stop n modes =>
          obtain ⟨d, outer', hmodes⟩ := hcode
          simp [hmodes] at modes
      | done s' =>
        rcases step_done halt hstep with ⟨rfl, hlength, -⟩ | hcloses
        · obtain ⟨d, outer, hmodes⟩ := hcode
          obtain rfl : outer = [] := by simpa [hmodes] using hlength
          obtain ⟨before, hbefore, hposition⟩ := hfaces.cursor
          rw [hrest, List.append_nil] at hbefore
          have htop : s'.atTopLine = true := by
            have hcolumn := Position.column_behind (hbefore ▸ hsource)
            simp [atTopLine, Cursor.atLineStart, hposition, hcolumn, hmodes, hs.outermost]
          have hmodes' : (s'.extend tail).modes = [.code d] := hmodes
          have hmarker : atEndMarker (s'.extend tail).cursor.rest = true := by
            rw [cursor_extend, Cursor.rest_extend, hrest, List.nil_append]
            exact htail.marker
          unfold step
          rw [hmodes', atTopLine_extend, htop, hmarker]
          rfl
        · exact absurd hfaults (hcloses.faults_ne_nil hs.stacked.delimited halt)
    · exact step_extend_of_code htail.apart (hfaces.seesLines hsource) hcode hrest hstep hfaults
  · exact step_extend_of_literal htail.apart hs hmodes hstep hfaults hback

/-- Whole lines without a fault, in which no opener is gone back to, are read alike in front of the line
that ends the program. -/
theorem run_extend (htail : EndsProgram tail) (hsource : WholeLines source)
    (hstraight : Straight source) {fuel : ℕ} (hvisited : Visited source s)
    (hs : Sound (Placed source) s) (hfaces : Faces source s) (hrun : run fuel s = some t)
    (hfaults : t.faults = []) :
    s.faults = [] ∧ run fuel (s.extend tail) = some (t.extend tail) := by
  induction fuel generalizing s with
  | zero => simp [run] at hrun
  | succ fuel ih =>
    rw [run] at hrun ⊢
    split at hrun
    · simp at hrun
    · rename_i s' hstep
      obtain rfl := Option.some.inj hrun
      have hextend := step_extend htail hsource hs hfaces hstep hfaults (by simp)
      rw [hextend]
      refine ⟨?_, rfl⟩
      rcases step_done hs.stacked.alternates hstep with ⟨rfl, -⟩ | hcloses
      · exact hfaults
      · exact absurd hfaults (hcloses.faults_ne_nil hs.stacked.delimited hs.stacked.alternates)
    · rename_i s' hstep
      have hturn : Turn s s' := ⟨fuel, hstep⟩
      have hback : ∀ opener, ¬ GoesBack s s' opener := fun opener => hstraight s s' opener hvisited hturn
      obtain ⟨hsafe, hbody⟩ := (placed_kept source).step_more ((placed_kept source).run_safe fuel)
        (.outer hs) hstep
      obtain ⟨hfaults', hlong⟩ := ih (hvisited.turn hturn) (hsafe.sound (hbody.trans hs.outermost))
        (faces_of_step hs hfaces hstep hback) hrun
      have hextend := step_extend htail hsource hs hfaces hstep hfaults'
        fun s'' opener heq => by
          obtain rfl := Step.more.inj heq
          exact hback opener
      have hkept := faults_suffix_of_step hs hstep hback
      rw [hfaults', List.suffix_nil] at hkept
      rw [hextend]
      exact ⟨hkept, hlong⟩

/-! ### Texts in which no opener is gone back to -/

/-- What ends on its line in a state that is passed through still does when everything is read. -/
lemma singleLine_suffix_of_run {fuel : ℕ} (hrun : run fuel s = some t) (hsafe : Safe (Placed source) s) :
    s.singleLine <:+ t.singleLine := by
  induction fuel generalizing s with
  | zero => simp [run] at hrun
  | succ fuel ih =>
    rw [run] at hrun
    split at hrun
    · simp at hrun
    · rename_i s' hstep
      obtain rfl := Option.some.inj hrun
      rcases step_done hsafe.alternates hstep with ⟨rfl, -⟩ | hcloses
      · exact List.suffix_rfl
      · exact hcloses.fields.2.2.2.1 ▸ List.suffix_rfl
    · rename_i s' hstep
      have hsafe' := ((placed_kept source).step_more ((placed_kept source).run_safe fuel) hsafe hstep).1
      exact (singleLine_suffix_of_step hsafe hstep).trans (ih hrun hsafe')

/-- An opener that is gone back to is one of a literal that ends on its line when everything is read. -/
lemma mem_singleLine_of_goesBack (hfinish : (ofText source).finish = some t) {opener : ℕ}
    (hvisited : Visited source s) (hturn : Turn s s') (hgoes : GoesBack s s' opener) :
    opener ∈ t.singleLine := by
  have hrun : run (stepsFor source.length) (ofText source) = some t := hfinish
  have hends (s : Scanner) (h : Visited source s) :
      s.inBody = true ∨ ∃ fuel, run fuel s = some t := by
    induction h with
    | start => exact .inr ⟨_, hrun⟩
    | @turn u u' hvisited hturn ih =>
      obtain ⟨fuel', hstep⟩ := id hturn
      refine ih.imp (fun hbody => ?_) fun ⟨fuel, hrun⟩ => hturn.run hrun
      have hsafe := (placed_kept source).step_more ((placed_kept source).run_safe fuel') hvisited.safe
        hstep
      exact hsafe.2.trans hbody
    | body => exact .inl rfl
  obtain ⟨fuel', hstep⟩ := id hturn
  obtain ⟨u, -, hrewind⟩ := hgoes.rewind hvisited.safe.alternates hstep
  have houter : s'.inBody = false := by
    obtain ⟨c, houter, -⟩ := id hrewind
    exact hrewind.inBody.trans houter
  rcases hends s' (hvisited.turn hturn) with hbody | ⟨fuel, hrun'⟩
  · simp [houter] at hbody
  · have hsuffix := singleLine_suffix_of_run hrun' (hvisited.turn hturn).safe
    rw [hgoes.singleLine] at hsuffix
    exact hsuffix.subset List.mem_cons_self

/-- In a text that is read without ending a literal on its own line, no opener is gone back to. -/
theorem straight_of_finish (h : (ofText source).finish.map (·.singleLine) = some []) :
    Straight source := by
  obtain ⟨t, hfinish, hsingle⟩ := Option.map_eq_some_iff.mp h
  intro s s' opener hvisited hturn hgoes
  have hmem := mem_singleLine_of_goesBack hfinish hvisited hturn hgoes
  simp [hsingle] at hmem

/-- In a text in which only literals behind a place end on their own line, no opener in front of it is
gone back to. -/
theorem straightTo_of_finish {n : ℕ}
    (h : (ofText source).finish.map (·.singleLine.all (n < ·)) = some true) : StraightTo n source := by
  obtain ⟨t, hfinish, hsingle⟩ := Option.map_eq_some_iff.mp h
  intro s s' opener hvisited hturn hgoes
  have hmem := mem_singleLine_of_goesBack hfinish hvisited hturn hgoes
  exact of_decide_eq_true (List.all_eq_true.mp hsingle opener hmem)

lemma endsProgram {after : List Char}
    (h : after = [] ∨ (∃ behind, after = '\n' :: behind) ∨ ∃ behind, after = '\r' :: '\n' :: behind) :
    EndsProgram ("__END__".toList ++ after) where
  apart := ⟨by simp, rfl, rfl⟩
  marker := by rcases h with rfl | ⟨behind, rfl⟩ | ⟨behind, rfl⟩ <;> rfl

lemma extend_ofText (source tail : List Char) :
    (ofText source).extend tail = ofText (source ++ tail) := by
  have hlength : Source.byteLength (source ++ tail) =
      Source.byteLength source + Source.byteLength tail := Source.byteLength_append source tail
  simp [ofText, ofCursor, extend, Cursor.extend, Cursor.ofText, hlength]

end Scanner

namespace TokenStream

open Scanner

/-- Nothing behind the line that ends the program matters: whole lines that are read without a fault
and without going back to an opener have the same tokens with that line and any text behind them. -/
theorem ofText_endMarker (lines after : List Char) (hlines : lines = [] ∨ lines.getLast? = some '\n')
    (hfaults : (ofText lines).faults = []) (hstraight : Straight lines)
    (hafter : after = [] ∨ (∃ behind, after = '\n' :: behind) ∨
      ∃ behind, after = '\r' :: '\n' :: behind) :
    ofText (lines ++ "__END__".toList ++ after) = ofText lines := by
  have hwhole : WholeLines lines := by
    rcases hlines with rfl | hlast
    · simp [WholeLines]
    · simp [WholeLines, hlast]
  obtain ⟨t, hrun, hstream⟩ := exists_run lines
  have hnone : t.faults = [] := by
    rw [hstream, ofScanner] at hfaults
    exact List.reverse_eq_nil_iff.mp hfaults
  rw [List.append_assoc]
  obtain ⟨t', hrun', hstream'⟩ := exists_run (lines ++ ("__END__".toList ++ after))
  have hlong := (run_extend (endsProgram hafter) hwhole hstraight .start
    (sound_ofText (placed_ofText lines)) (faces_ofText lines) (hrun _ le_rfl) hnone).2
  rw [extend_ofText] at hlong
  have hsame := (run_mono (le_max_left _ _) hlong).symm.trans
    (hrun' _ (le_max_right (stepsFor lines.length) _))
  rw [hstream', hstream, ← Option.some.inj hsame]
  rfl

/-- A heredoc whose body would go on with a method call, if the comment behind it did not end where the
program does. -/
theorem ofText_endMarker_heredoc :
    "x = <<A\n  #\x7by\x7d\nA\n# .c\n".toList.getLast? = some '\n' ∧
      (ofText "x = <<A\n  #\x7by\x7d\nA\n# .c\n".toList).faults = [] ∧
      Straight "x = <<A\n  #\x7by\x7d\nA\n# .c\n".toList ∧
      ofText ("x = <<A\n  #\x7by\x7d\nA\n# .c\n".toList ++ "__END__".toList ++
        "\r\n.to_s \"A".toList) = ofText "x = <<A\n  #\x7by\x7d\nA\n# .c\n".toList := by
  have hfaults : (ofText "x = <<A\n  #\x7by\x7d\nA\n# .c\n".toList).faults = [] := by decide +kernel
  have hstraight : Straight "x = <<A\n  #\x7by\x7d\nA\n# .c\n".toList :=
    straight_of_finish (by decide +kernel)
  exact ⟨rfl, hfaults, hstraight,
    ofText_endMarker _ _ (.inr rfl) hfaults hstraight (.inr (.inr ⟨".to_s \"A".toList, rfl⟩))⟩

end TokenStream

end RubyCheck
