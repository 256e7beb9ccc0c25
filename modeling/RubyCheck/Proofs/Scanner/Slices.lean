import RubyCheck.Proofs.Scanner.Append
import RubyCheck.Proofs.Scanner.Place
import RubyCheck.Token.Scanner.Partial

/-!
# What a scanner cuts out of its text

Every cursor of a scanner stands at a point of the text, and so does its limit (`Cursor.Within`), in
every state that is passed through.  So whatever is read from a cursor on is a slice of the text.  The
functions that search a text for an offset, or take a count off another one, never go wrong
(`Scanner.inRange_of_visited`): an offset that was found is that of a character, and a checkpoint that
is gone back to had at least the modes that it remembers.
-/

namespace RubyCheck

/-! ### Offsets -/

namespace Source

variable {c : Char} {cs : List Char} {n : ℕ}

/-- Where a character is found, the text in front of it ends. -/
lemma offsetOf?_eq_some (h : offsetOf? c cs = some n) :
    c ∈ cs ∧ n = byteLength (cs.takeWhile (· != c)) := by
  induction cs generalizing n with
  | nil => cases h
  | cons d ds ih =>
    rw [offsetOf?] at h
    by_cases hd : d = c
    · rw [if_pos hd] at h
      obtain rfl := Option.some.inj h
      subst hd
      simp
    · rw [if_neg hd] at h
      obtain ⟨k, hk, rfl⟩ := Option.map_eq_some_iff.mp h
      obtain ⟨hmem, rfl⟩ := ih hk
      have hne : (d != c) = true := by simpa using hd
      exact ⟨List.mem_cons_of_mem _ hmem, by simp [hne]⟩

lemma offsetOf?_eq_none (h : offsetOf? c cs = none) : c ∉ cs := by
  induction cs with
  | nil => exact List.not_mem_nil
  | cons d ds ih =>
    rw [offsetOf?] at h
    by_cases hd : d = c
    · simp [hd] at h
    · rw [if_neg hd, Option.map_eq_none_iff] at h
      simpa [Ne.symm hd] using ih h

/-- A text splits behind any run of characters it begins with. -/
lemma dropBytes?_takeWhile (p : Char → Bool) (cs : List Char) :
    dropBytes? cs (byteLength (cs.takeWhile p)) = some (cs.dropWhile p) := by
  have hdrop := dropBytes?_append (cs.takeWhile p) (cs.dropWhile p)
  rwa [List.takeWhile_append_dropWhile] at hdrop

/-- A run of characters that a text begins with is a slice of it. -/
lemma slice?_takeWhile (p : Char → Bool) (cs : List Char) :
    slice? cs 0 (byteLength (cs.takeWhile p)) = some (cs.takeWhile p) := by
  have hslice := slice?_append [] (cs.takeWhile p) (cs.dropWhile p)
  rwa [List.nil_append, List.takeWhile_append_dropWhile, byteLength_nil] at hslice

end Source

/-! ### Cursors -/

namespace Cursor

variable {source : List Char} {c : Cursor}

/-- A cursor on a text whose limit is where the characters that it sees end. -/
def Within (source : List Char) (c : Cursor) : Prop :=
  ∃ before behind, source = before ++ c.rest ++ behind ∧ c.position = .behind before ∧
    c.limit = Source.byteLength (before ++ c.rest)

lemma within_ofText (source : List Char) : (ofText source).Within source :=
  ⟨[], [], by simp [ofText], rfl, rfl⟩

lemma Within.advanceBy (h : c.Within source) (n : ℕ) : (Cursor.advanceBy n c).Within source := by
  obtain ⟨before, behind, hsource, hposition, hlimit⟩ := h
  have hsplit : before ++ c.rest.take n ++ (Cursor.advanceBy n c).rest = before ++ c.rest := by
    rw [rest_advanceBy, List.append_assoc, List.take_append_drop]
  refine ⟨before ++ c.rest.take n, behind, by rw [hsplit, hsource], ?_, ?_⟩
  · rw [position_advanceBy, hposition, Position.behind_append]
  · rw [limit_advanceBy, hlimit, hsplit]

lemma Within.narrow (h : c.Within source) (n : ℕ) : (c.narrow n).Within source := by
  obtain ⟨before, behind, hsource, hposition, -⟩ := h
  have hrest : (c.narrow n).rest ++ c.rest.drop n = c.rest := List.take_append_drop n c.rest
  refine ⟨before, c.rest.drop n ++ behind, ?_, hposition, ?_⟩
  · rw [← List.append_assoc _ (c.rest.drop n), List.append_assoc before, hrest, hsource]
  · change (Cursor.advanceBy n c).position.byte = _
    rw [position_advanceBy, hposition, ← Position.behind_append]
    rfl

/-- What a cursor sees is the text from its position up to its limit. -/
lemma Within.slice?_rest (h : c.Within source) :
    Source.slice? source c.position.byte c.limit = some c.rest := by
  obtain ⟨before, behind, hsource, hposition, hlimit⟩ := h
  rw [hposition, hlimit, hsource]
  exact Source.slice?_append before c.rest behind

/-- What a cursor reads next is the text between the two positions. -/
lemma Within.slice?_take (h : c.Within source) (n : ℕ) :
    Source.slice? source c.position.byte (Cursor.advanceBy n c).position.byte =
      some (c.rest.take n) := by
  obtain ⟨before, behind, hsource, hposition, -⟩ := h
  have hon : c.On source := ⟨before, behind, hsource, hposition⟩
  obtain ⟨front, back, hsplit, hstart, hstop⟩ := hon.split n
  rw [hstart, hstop, hsplit]
  exact Source.slice?_append front (c.rest.take n) back

end Cursor

namespace Scanner

open Text

variable {source : List Char} {s s' t : Scanner} {nested : Scanner → Option Scanner}

/-- The cursors of a scanner are within its text. -/
structure Inside (source : List Char) (r : Snapshot) : Prop where
  cursor : r.cursor.Within source
  resume : ∀ c ∈ r.resume, c.Within source

lemma Inside.bodyStart (h : Inside source s.snapshot) (o : HeredocOpener) :
    (s.bodyStart o).Within source := by
  unfold Scanner.bodyStart
  cases hresume : s.resume with
  | none =>
    rw [Option.getD_none, Cursor.nextLine_eq_advanceBy]
    exact (h.cursor.advanceBy _).advanceBy _
  | some c => exact h.resume c hresume

lemma Inside.content (h : Inside source s.snapshot) (hmove : Content s t) :
    Inside source t.snapshot := by
  obtain ⟨l, l', outer, stop, n, hmodes, hends, rfl⟩ := hmove
  rcases snapshot_emitContent (s := { s with modes := .literal l' :: outer }) n with
    ⟨hsnap, -⟩ | ⟨-, hsnap⟩
  · rw [hsnap]
    exact ⟨h.cursor, h.resume⟩
  · rw [hsnap]
    exact ⟨h.cursor.advanceBy n, h.resume⟩

/-- A move forward keeps the cursors within the text. -/
theorem Inside.forward (h : Inside source s.snapshot) (hmove : Forward nested s s') :
    Inside source s'.snapshot := by
  cases hmove with
  | blank n code piece core_eq | document n code top word ended core_eq
  | stray cause n code pos ahead core_eq | token ms kind n spaced code layers plain pos ahead core_eq
  | faulty cause k kind n spaced code plain pos ahead core_eq =>
    rw [snapshot_eq_of_core core_eq]
    exact ⟨h.cursor.advanceBy n, h.resume⟩
  | jump t resume rest code lineBreak read pending core_eq =>
    rw [snapshot_eq_of_core core_eq]
    exact ⟨h.resume resume pending, by simp [snapshot]⟩
  | heredoc o spaced body code opener read core_eq =>
    rw [snapshot_eq_of_core core_eq]
    refine ⟨h.cursor.advanceBy o.length, ?_⟩
    intro c hc
    obtain rfl := Option.some.inj hc
    exact (h.bodyStart o).advanceBy _
  | begin o spaced code pos ahead core_eq =>
    rw [snapshot_eq_of_core core_eq, snapshot_beginLiteral]
    exact ⟨h.cursor.advanceBy o.width, h.resume⟩
  | endInterpolation spaced mode outer rest modes brace core_eq =>
    rw [snapshot_eq_of_core core_eq]
    exact ⟨h.cursor.advanceBy 1, h.resume⟩
  | beginInterpolation l outer modes stop core_eq =>
    rw [snapshot_eq_of_core core_eq]
    exact ⟨h.cursor.advanceBy 2, h.resume⟩
  | abandon l outer modes stop core_eq =>
    rw [snapshot_eq_of_core core_eq, snapshot_abandonLiteral]
    exact ⟨h.cursor, h.resume⟩
  | close l outer modes stop core_eq =>
    rw [snapshot_eq_of_core core_eq, snapshot_closeLiteral]
    exact ⟨h.cursor.advanceBy _, h.resume⟩
  | endBody l outer modes open_ stop core_eq =>
    rw [snapshot_eq_of_core core_eq]
    exact ⟨h.cursor, h.resume⟩

lemma Inside.dropMode (h : Inside source s.snapshot) (m : Mode) (outer : List Mode) :
    Inside source (s.dropMode m outer).snapshot := by
  obtain ⟨hcursor, hresume, -, -⟩ := @dropMode_fields s m outer
  refine ⟨?_, ?_⟩
  · rw [snapshot_cursor, hcursor]
    exact h.cursor
  · rw [snapshot_resume, hresume]
    exact h.resume

theorem inside_kept (source : List Char) : Kept (Inside source) where
  content _ h hmove := h.content hmove
  body _ _ h := ⟨(h.bodyStart _).narrow _, by simp [bodyScanner, ofBody, ofCursor]⟩
  forward _ h _ hmove := h.forward hmove
  close _ _ _ h := h.dropMode _ _

/-- In every state that is passed through, the cursors are within the text. -/
lemma inside_of_visited (h : Visited source s) : Inside source s.snapshot :=
  ((inside_kept source).safe_of_visited
    ⟨Cursor.within_ofText source, by simp [ofText, ofCursor]⟩ h).holds

/-! ### Searching ahead -/

/-- In a comment nothing goes on but behind the end of its line. -/
lemma continuesChain_comment (cs : List Char) :
    continuesChain true cs = continuesChain false (cs.dropWhile (· != '\n')) := by
  induction cs with
  | nil => rfl
  | cons c cs ih =>
    rw [continuesChain_true]
    by_cases hc : c = '\n'
    · subst hc
      exact (continuesChain_blank (by decide) cs).symm
    · rw [List.dropWhile_cons_of_pos (by simpa using hc), ← ih, show (c != '\n') = true by simpa using hc]

lemma continuesChain_trimLeft (cs : List Char) :
    continuesChain false (trimLeft cs) = continuesChain false cs := by
  induction cs with
  | nil => rfl
  | cons c cs ih =>
    by_cases hc : isBlank c = true
    · rw [trimLeft, List.dropWhile_cons_of_pos hc, continuesChain_blank hc]
      exact ih
    · rw [trimLeft, List.dropWhile_cons_of_neg hc]

/-- Nothing else that a line may begin with goes on. -/
lemma continuesChain_other {c : Char} {cs : List Char} (hblank : isBlank c = false)
    (hhash : c ≠ '#') (hdot : c ≠ '.') (hamp : ∀ rest, ¬ (c = '&' ∧ cs = '.' :: rest)) :
    continuesChain false (c :: cs) = false := by
  rw [continuesChain.eq_def]
  simp only [Bool.false_eq_true, if_false, hblank, hhash]
  split
  · exact absurd rfl hdot
  · exact absurd rfl hdot
  · rename_i d ds
    simpa using fun hd : d = '.' => hamp ds ⟨rfl, by rw [hd]⟩
  · rfl

/-- The search for a line that goes on finds its offsets. -/
theorem continuesChain?_eq (cs : List Char) : continuesChain? cs = some (continuesChain false cs) := by
  rw [← continuesChain_trimLeft]
  fun_induction continuesChain? cs with
  | case1 cs comment htrim hoffset =>
    have hnone : comment.dropWhile (· != '\n') = [] := by
      rw [List.dropWhile_eq_nil_iff]
      intro c hc
      simpa using ne_of_mem_of_not_mem hc (Source.offsetOf?_eq_none hoffset)
    rw [htrim]
    change some false = some (continuesChain true comment)
    rw [continuesChain_comment, hnone]
    rfl
  | case2 cs comment htrim offset hoffset hrest =>
    obtain ⟨-, rfl⟩ := Source.offsetOf?_eq_some hoffset
    simp [Source.dropBytes?_takeWhile] at hrest
  | case3 cs comment htrim offset hoffset rest hrest ih =>
    obtain ⟨-, rfl⟩ := Source.offsetOf?_eq_some hoffset
    rw [Source.dropBytes?_takeWhile] at hrest
    obtain rfl := Option.some.inj hrest
    rw [ih, htrim, continuesChain_trimLeft, ← continuesChain_comment]
    rfl
  | case4 cs tail htrim =>
    rw [htrim]
    rfl
  | case5 cs tail hne htrim =>
    rw [htrim]
    cases tail with
    | nil => rfl
    | cons d ds =>
      have hd : d ≠ '.' := fun h => hne ds (by rw [h])
      change some true = some (d != '.')
      simpa using hd
  | case6 cs tail htrim =>
    rw [htrim]
    rfl
  | case7 cs hhash htwo hdot hamp =>
    have hhead := List.head?_dropWhile_not isBlank cs
    rw [← trimLeft] at hhead
    cases htrim : trimLeft cs with
    | nil => rfl
    | cons c tail =>
      rw [htrim] at hhash hdot hamp hhead
      rw [continuesChain_other (by simpa using hhead) (fun h => hhash tail (by rw [h]))
        (fun h => hdot tail (by rw [h])) fun rest h => hamp rest (by rw [h.1, h.2])]

/-! ### Slices that are searched for -/

/-- A quote takes one byte. -/
lemma utf8Size_quote {quote : Char} (h : quote = '"' ∨ quote = '\'' ∨ quote = '\x60') :
    quote.utf8Size = 1 := by
  rcases h with rfl | rfl | rfl <;> rfl

/-- The terminator between quotes is cut out at the quotes. -/
theorem terminatorBehind?_eq {quote : Char} (h : quote = '"' ∨ quote = '\'' ∨ quote = '\x60')
    (cs : List Char) : terminatorBehind? quote (quote :: cs) = some (quotedTerminator? quote cs) := by
  have hdrop : Source.dropBytes? (quote :: cs) 1 = some cs := by
    have hcut := Source.dropBytes?_cons_add quote cs 0
    rw [utf8Size_quote h] at hcut
    rw [hcut]
    cases cs <;> rfl
  rw [terminatorBehind?, hdrop, Option.bind_eq_bind, Option.bind_some]
  cases hoffset : Source.offsetOf? quote cs with
  | none =>
    have hall : cs.takeWhile (· != quote) = cs := by
      rw [List.takeWhile_eq_self_iff]
      intro c hc
      simpa using ne_of_mem_of_not_mem hc (Source.offsetOf?_eq_none hoffset)
    simp [quotedTerminator?, hall]
  | some stop =>
    obtain ⟨hmem, rfl⟩ := Source.offsetOf?_eq_some hoffset
    have hshort : ((cs.takeWhile (· != quote)).length == cs.length) = false := by
      rw [beq_eq_false_iff_ne]
      intro hlength
      have hall := List.takeWhile_eq_self_iff.mp
        ((List.takeWhile_prefix (· != quote)).eq_of_length hlength) quote hmem
      simp at hall
    simp [Source.slice?_takeWhile, quotedTerminator?, hshort]

/-- Whatever the text ahead, the opener of a heredoc is cut out of it. -/
theorem openerAhead?_eq (s : Scanner) : s.openerAhead? = some s.heredocOpener? := by
  unfold openerAhead?
  split
  · rename_i after hrest
    dsimp only
    split
    · rename_i hnil
      simp [heredocOpener?, hrest, hnil]
    · rename_i c cs hcons
      split
      · rename_i hquote
        rw [terminatorBehind?_eq (by simpa [or_assoc] using hquote)]
        simp [heredocOpener?, hrest, hcons, hquote]
      · rfl
  · rename_i hno
    unfold heredocOpener?
    split
    · exact absurd ‹_› (hno _)
    · rfl

/-! ### Counts -/

/-- In a percent literal no more brackets are closed than were opened. -/
theorem verbatimEnd?_eq (bracket : Option Char) (close : Char) (nesting n : ℕ) (cs : List Char) :
    verbatimEnd? bracket close nesting n cs = some (verbatimEnd bracket close nesting n cs) := by
  fun_induction verbatimEnd? bracket close nesting n cs with
  | case1 => rfl
  | case2 => rfl
  | case3 nesting n _ cs ih => exact ih
  | case4 n cs hlast hescape =>
    rw [verbatimEnd_cons (ne_backslash hlast hescape), if_pos rfl, if_pos rfl]
  | case5 nesting n cs hnesting hlast hescape ih =>
    rw [verbatimEnd_cons (ne_backslash hlast hescape), if_pos rfl, if_neg hnesting,
      Number.minus?, if_pos (Nat.one_le_iff_ne_zero.mpr hnesting)]
    exact ih _
  | case6 nesting n c cs hlast hescape hclose hbracket ih =>
    rw [verbatimEnd_cons (ne_backslash hlast hescape), if_neg hclose, if_pos hbracket]
    exact ih
  | case7 nesting n c cs hlast hescape hclose hbracket ih =>
    rw [verbatimEnd_cons (ne_backslash hlast hescape), if_neg hclose, if_neg hbracket]
    exact ih

/-- The innermost two modes are there to be remembered. -/
lemma checkpoint?_eq (s : Scanner) (spaced : Bool) :
    s.checkpoint? spaced = some (s.checkpoint spaced) := by
  rw [checkpoint?, fromIndex?, Number.minus?, if_pos (Nat.sub_le _ _)]
  have htop : s.modes.take (s.modes.length - (s.modes.length - 2)) = s.modes.take 2 := by
    rw [List.take_eq_take_iff]
    omega
  simp only [Option.map_some, htop]
  rfl

/-- A checkpoint remembers no more modes than there were. -/
lemma restore?_eq {c : Checkpoint} {r : Snapshot} (h : Fits r c) (s : Scanner) :
    s.restore? c = some (s.restore c) := by
  rw [restore?, Number.minus?, if_pos (by rw [h.topModes_length]; exact Nat.min_le_right _ _)]
  rfl

/-- Where the text runs out, what is gone back to was there. -/
theorem endOfText?_eq {P : Snapshot → Prop} (h : Safe P s) : s.endOfText? = some s.endOfText := by
  unfold endOfText?
  split
  · rename_i c htarget
    split
    · rfl
    · rename_i hdeep
      rw [Bool.or_eq_true, not_or, decide_eq_true_eq, Bool.not_eq_true] at hdeep
      cases h with
      | body inBody _ _ => simp [inBody] at hdeep
      | outer sound =>
        have hfits := sound.fits c (mem_live_of_rewindTarget? htarget).1
        rw [restore?_eq hfits, Option.map_some, endOfText]
        split
        · simp_all
        · simp_all
        · simp [hdeep.1, htarget]
  · rfl

/-- The search behind a line break finds its offsets. -/
lemma newlineMatters?_eq (s : Scanner) : s.newlineMatters? = some s.newlineMatters := by
  unfold newlineMatters? newlineMatters
  cases s.expects <;> simp [continuesChain?_eq]

/-! ### States that are passed through -/

/-- The cursors from which a state reads on: its own, the one behind the line, and the one at the
body of a heredoc. -/
inductive ReadsFrom (s : Scanner) : Cursor → Prop
  | here : ReadsFrom s s.cursor
  | behind {c : Cursor} (h : s.resume = some c) : ReadsFrom s c
  | body (o : HeredocOpener) : ReadsFrom s (s.bodyStart o)

/-- Nothing that a scanner does in a state is out of range. -/
structure InRange (source : List Char) (s : Scanner) : Prop where
  /-- However far a cursor reads, all that it sees there is a slice of the text, up to its limit and
  up to wherever it reads next. -/
  sees : ∀ c, s.ReadsFrom c → ∀ n,
    Source.slice? source (Cursor.advanceBy n c).position.byte (Cursor.advanceBy n c).limit =
      some (c.rest.drop n)
  passes : ∀ c, s.ReadsFrom c → ∀ n k,
    Source.slice? source (Cursor.advanceBy n c).position.byte
        (Cursor.advanceBy (n + k) c).position.byte =
      some ((c.rest.drop n).take k)
  tokens : ∀ t ∈ s.tokens,
    Source.slice? source t.span.start.byte t.span.stop.byte = some t.text.toList
  newline : s.newlineMatters? = some s.newlineMatters
  heredoc : s.openerAhead? = some s.heredocOpener?
  verbatim : ∀ bracket close width, verbatimEnd? bracket close 0 width (s.cursor.rest.drop width) =
    some (verbatimEnd bracket close 0 width (s.cursor.rest.drop width))
  checkpoint : ∀ spaced, s.checkpoint? spaced = some (s.checkpoint spaced)
  /-- Also behind the content of a literal that ends with the text. -/
  endOfText : ∀ t, t = s ∨ Content s t → t.endOfText? = some t.endOfText

lemma ReadsFrom.within {c : Cursor} (hc : s.ReadsFrom c) (h : Inside source s.snapshot) :
    c.Within source := by
  cases hc with
  | here => exact h.cursor
  | behind hresume => exact h.resume _ hresume
  | body o => exact h.bodyStart o

/-- Nothing is out of range in any state that is passed through in reading a text. -/
theorem inRange_of_visited (h : Visited source s) : s.InRange source := by
  have hinside := inside_of_visited h
  have hsafe := (placed_kept source).safe_of_visited (placed_ofText source) h
  refine
    { sees := fun c hc n => ?_
      passes := fun c hc n k => ?_
      tokens := fun t ht => (hsafe.holds.tokens t ht).slice?_eq
      newline := newlineMatters?_eq s
      heredoc := openerAhead?_eq s
      verbatim := fun bracket close width => verbatimEnd?_eq bracket close 0 width _
      checkpoint := checkpoint?_eq s
      endOfText := ?_ }
  · have hslice := ((hc.within hinside).advanceBy n).slice?_rest
    rwa [Cursor.rest_advanceBy] at hslice
  · have hslice := ((hc.within hinside).advanceBy n).slice?_take k
    rwa [Cursor.rest_advanceBy, ← Cursor.advanceBy_add] at hslice
  · rintro t (rfl | hcontent)
    · exact endOfText?_eq hsafe
    · exact endOfText?_eq ((placed_kept source).safe_content hsafe hcontent)

end Scanner

end RubyCheck
