import RubyCheck.Proofs.Scanner.Remember
import RubyCheck.Proofs.Scanner.Slices

/-!
# No text is read twice

The bodies of heredocs are read ahead, while the rest of the opener's line is still to come.  They are
not read again if reading jumps behind them at the end of that line, which it does at a line break in
code.  A literal that goes on beyond the line is read over them, and so is a line that a backslash
continues.  Where neither happens (`PassesBodies`), no byte is in two tokens (`apart_of_run`).

Behind the opener of a heredoc the scanner has read two stretches of the text: the one in front of the
cursor, and the bodies, from the beginning of the next line up to where reading goes on.  `Parted` says
so; a move over anything on the line keeps it, as the next line stays where it is, and so does the jump
at the end of the line.  The scanner of a body reads a stretch of its own, so the invariant has the ends
of the stretch as parameters, and it is kept for all stretches together (`parted_of_reads`).
-/

namespace RubyCheck

/-! ### Spans, positions and cursors -/

lemma Span.Apart.symm {s t : Span} (h : s.Apart t) : t.Apart s := by
  intro byte ht
  by_contra hs
  rw [Bool.not_eq_false] at hs
  simp [h byte hs] at ht

/-- No byte is in an empty span. -/
lemma Span.apart_point (s : Span) (p : Position) : s.Apart (.point p) := by
  intro byte _
  by_contra hpoint
  rw [Bool.not_eq_false] at hpoint
  simp only [Span.contains, Bool.and_eq_true, decide_eq_true_eq] at hpoint
  exact absurd (hpoint.1.trans_lt hpoint.2) (lt_irrefl _)

namespace Cursor

variable {source : List Char} {c : Cursor} {n : ℕ}

lemma byte_le_nextLine (c : Cursor) : c.position.byte ≤ c.nextLine.position.byte := by
  rw [nextLine_eq_advanceBy]
  exact byte_le_byte_advanceBy _ _

/-- What is read on a line ends in front of the next one. -/
lemma byte_advanceBy_le_nextLine (h : '\n' ∉ c.rest.take n) :
    (advanceBy n c).position.byte ≤ c.nextLine.position.byte :=
  nextLine_advanceBy h ▸ byte_le_nextLine _

/-- Moving forward by more characters comes at least as far. -/
lemma byte_advanceBy_mono {m : ℕ} (h : m ≤ n) (c : Cursor) :
    (advanceBy m c).position.byte ≤ (advanceBy n c).position.byte := by
  obtain ⟨k, rfl⟩ := Nat.exists_eq_add_of_le h
  rw [advanceBy_add]
  exact byte_le_byte_advanceBy k _

/-- At a line break the next line begins behind the next character. -/
lemma nextLine_of_lineBreak {rest : List Char} (h : c.rest = '\n' :: rest) :
    c.nextLine = advanceBy 1 c := by
  have hrun : c.run (· != '\n') = 0 := by simp [run, h]
  rw [nextLine_eq_advanceBy, hrun]

@[simp] lemma limit_nextLine (c : Cursor) : c.nextLine.limit = c.limit := by
  rw [nextLine_eq_advanceBy, limit_advanceBy]

/-- On a line, every character that is read is one more column. -/
lemma column_advanceBy (h : '\n' ∉ c.rest.take n) :
    (advanceBy n c).position.column = c.position.column + (c.rest.take n).length := by
  rw [position_advanceBy]
  generalize c.position = p
  generalize c.rest.take n = cs at h
  induction cs generalizing p with
  | nil => rfl
  | cons d cs ih =>
    rw [List.mem_cons, not_or] at h
    have hd : (p.advance d).column = p.column + 1 := by rw [Position.advance, if_neg (Ne.symm h.1)]
    rw [Position.advanceOver_cons, ih _ h.2, hd, List.length_cons]
    omega

lemma line_advanceBy_of_notMem (h : '\n' ∉ c.rest.take n) :
    (advanceBy n c).position.line = c.position.line := by
  rw [line_advanceBy, List.count_eq_zero.mpr h, Nat.add_zero]

lemma Within.byte_le_limit (h : c.Within source) : c.position.byte ≤ c.limit := by
  obtain ⟨before, -, -, hposition, hlimit⟩ := h
  rw [hposition, hlimit, Source.byteLength_append]
  exact Nat.le_add_right _ _

end Cursor

/-! ### Lines that end in code -/

/-- A line of a text that is read to its end in code: only a line break reaches from it into the next
line, and it does not end with a backslash. -/
structure EndsInCode (source : List Char) (tokens : List Token) (line : ℕ) : Prop where
  breaks : ∀ u ∈ tokens, u.span.start.line ≤ line → line < u.span.stop.line → u.kind = .newline
  uncontinued : ∀ cs ∈ (source.splitOn '\n')[line]?, cs.getLast? ≠ some '\\'

instance (source : List Char) (tokens : List Token) (line : ℕ) :
    Decidable (EndsInCode source tokens line) :=
  decidable_of_iff
    ((∀ u ∈ tokens, u.span.start.line ≤ line → line < u.span.stop.line → u.kind = .newline) ∧
      ∀ cs ∈ (source.splitOn '\n')[line]?, cs.getLast? ≠ some '\\')
    ⟨fun h => ⟨h.1, h.2⟩, fun h => ⟨h.breaks, h.uncontinued⟩⟩

/-- Every line on which a heredoc opens ends in code, where the bodies behind it are passed over. -/
def PassesBodies (source : List Char) (tokens : List Token) : Prop :=
  ∀ t ∈ tokens, t.kind = .stringBegin → t.opensHeredoc = true →
    EndsInCode source tokens t.span.stop.line

instance (source : List Char) (tokens : List Token) : Decidable (PassesBodies source tokens) :=
  inferInstanceAs (Decidable (∀ t ∈ tokens, _))

lemma PassesBodies.of_subset {source : List Char} {ts us : List Token} (h : PassesBodies source us)
    (hsubset : ts ⊆ us) : PassesBodies source ts := by
  intro t ht hkind hopens
  have hline := h t (hsubset ht) hkind hopens
  exact ⟨fun u hu => hline.breaks u (hsubset hu), hline.uncontinued⟩

/-- The line in front of a continued line break ends with a backslash. -/
lemma exists_line_of_continuation (before rest : List Char) :
    ∃ line, ((before ++ '\\' :: '\n' :: rest).splitOn '\n')[before.count '\n']? = some line ∧
      line.getLast? = some '\\' := by
  induction before with
  | nil => exact ⟨['\\'], by simp [List.splitOn_cons_eq_if_modifyHead], rfl⟩
  | cons c before ih =>
    obtain ⟨line, hline, hlast⟩ := ih
    rw [List.cons_append, List.splitOn_cons_eq_if_modifyHead]
    by_cases hc : c = '\n'
    · subst hc
      exact ⟨line, by simpa using hline, hlast⟩
    · rw [if_neg (by simpa using hc), List.count_cons_of_ne hc, List.getElem?_modifyHead, hline]
      by_cases hfirst : before.count '\n' = 0
      · exact ⟨c :: line, by simp [hfirst], by simp [List.getLast?_cons, hlast]⟩
      · exact ⟨line, by simp [hfirst], hlast⟩

lemma Cursor.Within.exists_line_of_continuation {source rest : List Char} {c : Cursor}
    (h : c.Within source) (hrest : c.rest = '\\' :: '\n' :: rest) :
    ∃ line ∈ (source.splitOn '\n')[c.position.line]?, line.getLast? = some '\\' := by
  obtain ⟨before, behind, hsource, hposition, -⟩ := h
  obtain ⟨line, hline, hlast⟩ := RubyCheck.exists_line_of_continuation before (rest ++ behind)
  refine ⟨line, ?_, hlast⟩
  rw [hsource, hrest, hposition]
  simpa [Position.behind] using hline

namespace Scanner

variable {source : List Char} {start stop n : ℕ} {c c' : Cursor} {ts : List Token}
  {resume : Option Cursor} {u : Token} {s s' t : Scanner} {nested : Scanner → Option Scanner}

/-! ### Stretches of the text -/

/-- The tokens that were read in a stretch of a text have no byte in common.  They stand in front of the
cursor, but if bodies of heredocs are still to be passed over, those of the bodies stand between the
next line and the place behind it where reading goes on; and then a heredoc opens on the line. -/
structure Parted (start stop : ℕ) (c : Cursor) (ts : List Token) (resume : Option Cursor) : Prop where
  start_le : start ≤ c.position.byte
  limit : c.limit = stop
  behind : ∀ u ∈ ts, start ≤ u.span.start.byte
  apart : ts.Pairwise fun t u => t.span.Apart u.span
  read : ∀ u ∈ ts, u.span.stop.byte ≤ c.position.byte ∨
    ∃ r ∈ resume, c.nextLine.position.byte ≤ u.span.start.byte ∧ u.span.stop.byte ≤ r.position.byte
  resumes : ∀ r ∈ resume, c.nextLine.position.byte ≤ r.position.byte ∧ r.limit = stop
  opened : resume.isSome = true → 0 < c.position.column ∧
    ∃ t ∈ ts, t.kind = .stringBegin ∧ t.opensHeredoc = true ∧ t.span.stop.line = c.position.line

namespace Parted

/-- At the beginning of a stretch nothing was read. -/
lemma initial (c : Cursor) : Parted c.position.byte c.limit c [] none where
  start_le := le_rfl
  limit := rfl
  behind := by simp
  apart := .nil
  read := by simp
  resumes := by simp
  opened := by simp

/-- Some characters are read, on the line if bodies are still to be passed over. -/
lemma move (h : Parted start stop c ts resume)
    (hline : resume.isSome = true → '\n' ∉ c.rest.take n) :
    Parted start stop (.advanceBy n c) ts resume where
  start_le := h.start_le.trans (Cursor.byte_le_byte_advanceBy n c)
  limit := by rw [Cursor.limit_advanceBy, h.limit]
  behind := h.behind
  apart := h.apart
  read u hu := by
    rcases h.read u hu with hread | ⟨r, hr, hbody⟩
    · exact .inl (hread.trans (Cursor.byte_le_byte_advanceBy n c))
    · rw [Cursor.nextLine_advanceBy (hline (Option.isSome_of_mem hr))]
      exact .inr ⟨r, hr, hbody⟩
  resumes r hr := by
    rw [Cursor.nextLine_advanceBy (hline (Option.isSome_of_mem hr))]
    exact h.resumes r hr
  opened hsome := by
    obtain ⟨hcolumn, hopener⟩ := h.opened hsome
    rw [Cursor.column_advanceBy (hline hsome), Cursor.line_advanceBy_of_notMem (hline hsome)]
    exact ⟨Nat.lt_of_lt_of_le hcolumn (Nat.le_add_right _ _), hopener⟩

/-- What begins at the cursor has no byte in common with what was read, unless it reaches into the next
line while bodies are still to be passed over. -/
lemma apart_cons (h : Parted start stop c ts resume) (hstart : u.span.start = c.position)
    (hstop : resume.isSome = true → u.span.stop.byte ≤ c.nextLine.position.byte) :
    (u :: ts).Pairwise fun t u => t.span.Apart u.span := by
  refine List.pairwise_cons.mpr ⟨fun v hv => ?_, h.apart⟩
  rcases h.read v hv with hread | ⟨r, hr, hnext, -⟩
  · exact (Span.apart_of_le (hread.trans_eq (congrArg Position.byte hstart.symm))).symm
  · exact Span.apart_of_le ((hstop (Option.isSome_of_mem hr)).trans hnext)

/-- A token is read, on the line if bodies are still to be passed over. -/
lemma push (h : Parted start stop c ts resume)
    (hspan : u.span = ⟨c.position, (Cursor.advanceBy n c).position⟩)
    (hline : resume.isSome = true → '\n' ∉ c.rest.take n) :
    Parted start stop (.advanceBy n c) (u :: ts) resume := by
  have hmoved := h.move hline
  have hapart : (u :: ts).Pairwise fun t u => t.span.Apart u.span := by
    refine h.apart_cons (by rw [hspan]) fun hsome => ?_
    rw [hspan]
    exact Cursor.byte_advanceBy_le_nextLine (hline hsome)
  refine { hmoved with behind := ?_, apart := hapart, read := ?_, opened := fun hsome => ?_ }
  · exact List.forall_mem_cons.mpr ⟨by rw [hspan]; exact h.start_le, h.behind⟩
  · exact List.forall_mem_cons.mpr ⟨.inl (by rw [hspan]), hmoved.read⟩
  · obtain ⟨hcolumn, opener, hmem, hopener⟩ := hmoved.opened hsome
    exact ⟨hcolumn, opener, List.mem_cons_of_mem u hmem, hopener⟩

/-- A delimiter that the text never wrote covers nothing. -/
lemma pushEmpty (h : Parted start stop c ts resume) (kind : TokenKind) :
    Parted start stop c (.empty kind c.position :: ts) resume :=
  h.push (n := 0) rfl (by simp)

/-- A token that reaches into the next line, while bodies are still to be passed over, breaks the
line, if every line on which a heredoc opens ends in code. -/
lemma notMem_take (h : Parted start stop c ts resume) (hpass : PassesBodies source (u :: ts))
    (hspan : u.span = ⟨c.position, (Cursor.advanceBy n c).position⟩) (hkind : u.kind ≠ .newline)
    (hsome : resume.isSome = true) : '\n' ∉ c.rest.take n := by
  intro hbreak
  obtain ⟨-, t, ht, hbegin, hopens, hline⟩ := h.opened hsome
  have hends := hpass t (List.mem_cons_of_mem u ht) hbegin hopens
  refine hkind (hends.breaks u List.mem_cons_self ?_ ?_)
  · rw [hspan, hline]
  · rw [hspan, hline, Cursor.line_advanceBy]
    exact Nat.lt_add_of_pos_right (List.count_pos_iff.mpr hbreak)

/-- While bodies are still to be passed over, the cursor is not at the beginning of a line. -/
lemma ne_atTopLine (h : Parted start stop s.cursor s.tokens s.resume)
    (hsome : s.resume.isSome = true) : s.atTopLine ≠ true := by
  have hstart : s.cursor.atLineStart = false := beq_eq_false_iff_ne.mpr (h.opened hsome).1.ne'
  simp [atTopLine, hstart]

/-- A blank that is passed over is on the line, unless it is a line break or continues the line. -/
lemma notMem_blank (h : Parted start stop c ts resume) (hcursor : c.Within source)
    (hpass : PassesBodies source ts) (hblank : Blank c.rest n)
    (hunheld : c.rest.head? = some '\n' → resume = none) (hsome : resume.isSome = true) :
    '\n' ∉ c.rest.take n := by
  generalize hrest : c.rest = cs at hblank hunheld
  cases hblank with
  | @space d hd rest =>
    have hne : d ≠ '\n' := by
      rintro rfl
      simp [hunheld rfl] at hsome
    simpa using hne.symm
  | continuation rest =>
    obtain ⟨-, t, ht, hbegin, hopens, hline⟩ := h.opened hsome
    obtain ⟨line, hmem, hlast⟩ := hcursor.exists_line_of_continuation hrest
    exact absurd hlast ((hpass t ht hbegin hopens).uncontinued line (hline ▸ hmem))
  | comment rest =>
    rw [← List.prefix_iff_eq_take.mp (List.takeWhile_prefix _)]
    intro hmem
    simpa using List.mem_takeWhile_imp hmem

/-- Where the next line of code begins, or the bodies that are still to be passed over end. -/
lemma nextLine_le (h : Parted start stop c ts resume) :
    c.nextLine.position.byte ≤ (resume.getD c.nextLine).position.byte := by
  cases resume with
  | none => exact le_rfl
  | some r => exact (h.resumes r rfl).1

/-- Everything that was read ends in front of that place. -/
lemma stop_le (h : Parted start stop c ts resume) :
    ∀ u ∈ ts, u.span.stop.byte ≤ (resume.getD c.nextLine).position.byte := by
  intro u hu
  rcases h.read u hu with hread | ⟨r, hr, -, hbody⟩
  · exact hread.trans ((Cursor.byte_le_nextLine c).trans h.nextLine_le)
  · obtain rfl : resume = some r := hr
    exact hbody

/-- The body of a heredoc is read behind the bodies before it. -/
lemma splice (h : Parted start stop c ts resume) {body : List Token} {behindBody : Cursor} {last : ℕ}
    (hcolumn : 0 < c.position.column)
    (hopener : ∃ t ∈ ts, t.kind = .stringBegin ∧ t.opensHeredoc = true ∧
      t.span.stop.line = c.position.line)
    (hapart : body.Pairwise fun t u => t.span.Apart u.span)
    (hbehind : ∀ u ∈ body, (resume.getD c.nextLine).position.byte ≤ u.span.start.byte)
    (hlast : ∀ u ∈ body, u.span.stop.byte ≤ last)
    (hle : (resume.getD c.nextLine).position.byte ≤ last) (hresume : last ≤ behindBody.position.byte)
    (hlimit : behindBody.limit = stop) :
    Parted start stop c (body ++ ts) (some behindBody) where
  start_le := h.start_le
  limit := h.limit
  behind := by
    have hstart : start ≤ (resume.getD c.nextLine).position.byte :=
      h.start_le.trans ((Cursor.byte_le_nextLine c).trans h.nextLine_le)
    exact List.forall_mem_append.mpr ⟨fun u hu => hstart.trans (hbehind u hu), h.behind⟩
  apart := List.pairwise_append.mpr ⟨hapart, h.apart, fun u hu v hv =>
    (Span.apart_of_le ((h.stop_le v hv).trans (hbehind u hu))).symm⟩
  read := by
    refine List.forall_mem_append.mpr ⟨fun u hu => .inr ⟨_, rfl, ?_, ?_⟩, fun v hv => ?_⟩
    · exact h.nextLine_le.trans (hbehind u hu)
    · exact (hlast u hu).trans hresume
    · rcases h.read v hv with hread | ⟨r, hr, hnext, hbody⟩
      · exact .inl hread
      · obtain rfl : resume = some r := hr
        exact .inr ⟨_, rfl, hnext, hbody.trans (hle.trans hresume)⟩
  resumes r hr := by
    obtain rfl := Option.some.inj hr
    exact ⟨h.nextLine_le.trans (hle.trans hresume), hlimit⟩
  opened _ := by
    obtain ⟨t, ht, hopens⟩ := hopener
    exact ⟨hcolumn, t, List.mem_append_right body ht, hopens⟩

/-- At the end of the line the bodies are passed over. -/
lemma jump (h : Parted start stop c ts (some c')) : Parted start stop c' ts none where
  start_le := h.start_le.trans ((Cursor.byte_le_nextLine c).trans (h.resumes c' rfl).1)
  limit := (h.resumes c' rfl).2
  behind := h.behind
  apart := h.apart
  read u hu := .inl (h.stop_le u hu)
  resumes := by simp
  opened := by simp

/-- The same, if the line break is a token. -/
lemma jumpOver (h : Parted start stop c ts (some c')) (hstart : u.span.start = c.position)
    (hstop : u.span.stop.byte ≤ c.nextLine.position.byte) : Parted start stop c' (u :: ts) none := by
  have hjumped := h.jump
  refine { hjumped with
    behind := ?_, apart := h.apart_cons hstart fun _ => hstop, read := ?_, opened := by simp }
  · exact List.forall_mem_cons.mpr ⟨by rw [hstart]; exact h.start_le, h.behind⟩
  · exact List.forall_mem_cons.mpr ⟨.inl (hstop.trans (h.resumes c' rfl).1), hjumped.read⟩

/-- Whatever was read ends within the stretch. -/
lemma stop_le_stop (h : Parted start stop c ts resume) (hcursor : c.Within source)
    (hresume : ∀ r ∈ resume, r.Within source) : ∀ u ∈ ts, u.span.stop.byte ≤ stop := by
  intro u hu
  rcases h.read u hu with hread | ⟨r, hr, -, hbody⟩
  · exact hread.trans (h.limit ▸ hcursor.byte_le_limit)
  · exact hbody.trans ((h.resumes r hr).2 ▸ (hresume r hr).byte_le_limit)

end Parted

/-! ### Moves -/

lemma Parted.content (h : Parted start stop s.cursor s.tokens s.resume)
    (hpass : PassesBodies source t.tokens) (hmove : Content s t) :
    Parted start stop t.cursor t.tokens t.resume := by
  obtain ⟨l, l', outer, end_, n, hmodes, hends, rfl⟩ := hmove
  unfold emitContent at hpass ⊢
  split
  · exact h
  · rename_i hn
    rw [if_neg hn] at hpass
    exact h.push rfl (h.notMem_take hpass rfl (by simp))

/-- The body of a heredoc is spliced in behind its opener. -/
lemma Parted.spliceBody {o : HeredocOpener} {spaced : Bool} {body : Scanner}
    (h : Parted start stop s.cursor s.tokens s.resume) (ho : s.heredocOpener? = some o)
    (hapart : body.tokens.Pairwise fun t u => t.span.Apart u.span)
    (hbehind : ∀ u ∈ body.tokens, (s.bodyStart o).position.byte ≤ u.span.start.byte)
    (hstop : ∀ u ∈ body.tokens, u.span.stop.byte ≤ (s.bodyScanner o).cursor.limit) :
    Parted start stop (s.spliceBody o spaced body).cursor (s.spliceBody o spaced body).tokens
      (s.spliceBody o spaced body).resume := by
  obtain ⟨-, -, opener, rest, hrest, hlength, hline⟩ := heredocOpener?_spec ho
  have htake : s.cursor.rest.take o.length = opener := by rw [hrest, ← hlength, List.take_left]
  have hopened := h.push (u := s.heredocToken o spaced) rfl fun _ => htake ▸ hline
  have hpos := (rest_of_heredocOpener? ho).2
  have hlimit : (s.bodyStart o).limit = stop := by
    unfold bodyStart
    cases hresume : s.resume with
    | none => rw [Option.getD_none, Cursor.limit_nextLine, hopened.limit]
    | some r => exact (h.resumes r hresume).2
  refine Parted.pushEmpty (hopened.splice ?_ ⟨_, List.mem_cons_self, rfl,
    opensHeredoc_heredocToken ho, rfl⟩ hapart hbehind hstop ?_ ?_ ?_) .stringEnd
  · rw [Cursor.column_advanceBy (htake ▸ hline), htake, hlength]
    omega
  · exact Cursor.byte_le_byte_advanceBy _ _
  · exact Cursor.byte_advanceBy_mono (o.range_le _ _ le_rfl).1 _
  · rw [Cursor.limit_advanceBy, hlimit]

/-- A move forward keeps what was read apart, if every line on which a heredoc opens ends in code. -/
theorem Parted.forward (h : Parted start stop s.cursor s.tokens s.resume)
    (hcursor : s.cursor.Within source) (hpass : PassesBodies source s'.tokens)
    (hnested : ∀ o t, s.InCode → s.heredocOpener? = some o → nested (s.bodyScanner o) = some t →
      PassesBodies source t.tokens →
      t.tokens.Pairwise (fun t u => t.span.Apart u.span) ∧
        ∀ u ∈ t.tokens, (s.bodyStart o).position.byte ≤ u.span.start.byte ∧
          u.span.stop.byte ≤ (s.bodyScanner o).cursor.limit)
    (hmove : Forward nested s s') : Parted start stop s'.cursor s'.tokens s'.resume := by
  suffices hsnapshot : Parted start stop s'.snapshot.cursor s'.snapshot.tokens s'.snapshot.resume from
    hsnapshot
  change PassesBodies source s'.snapshot.tokens at hpass
  cases hmove with
  | blank n code piece core_eq unheld =>
    rw [snapshot_eq_of_core core_eq] at hpass ⊢
    exact h.move (h.notMem_blank hcursor hpass piece unheld)
  | document n code top word ended core_eq =>
    rw [snapshot_eq_of_core core_eq]
    exact h.move fun hsome => absurd top (h.ne_atTopLine hsome)
  | stray cause n code pos ahead core_eq words within =>
    rw [snapshot_eq_of_core core_eq]
    exact h.move fun hsome => within.resolve_left (h.ne_atTopLine hsome)
  | token ms kind n spaced code layers plain pos ahead core_eq spelled whole unheld =>
    rw [snapshot_eq_of_core core_eq] at hpass ⊢
    refine h.push rfl fun hsome => h.notMem_take hpass rfl (fun hkind => ?_) hsome
    simp [unheld hkind] at hsome
  | faulty cause k kind n spaced code plain pos ahead core_eq spelled words going =>
    rw [snapshot_eq_of_core core_eq] at hpass ⊢
    exact h.push rfl (h.notMem_take hpass rfl going)
  | jump t resume rest code lineBreak read pending core_eq =>
    rw [snapshot_eq_of_core core_eq]
    rw [pending] at h
    rcases read with rfl | rfl
    · refine h.jumpOver rfl ?_
      rw [Cursor.nextLine_of_lineBreak lineBreak]
      exact le_rfl
    · exact h.jump
  | heredoc o spaced body code opener read core_eq =>
    rw [snapshot_eq_of_core core_eq] at hpass ⊢
    obtain ⟨hapart, hbody⟩ := hnested o body code opener read (hpass.of_subset fun u hu =>
      List.mem_cons_of_mem _ (List.mem_append_left _ hu))
    exact h.spliceBody opener hapart (fun u hu => (hbody u hu).1) fun u hu => (hbody u hu).2
  | begin o spaced code pos ahead core_eq =>
    rw [snapshot_eq_of_core core_eq, snapshot_beginLiteral] at hpass ⊢
    have hkind : (s.openingToken o spaced).kind ≠ .newline := by
      cases hflavor : o.flavor <;> simp [openingToken, hflavor, Flavor.beginKind]
    exact h.push rfl (h.notMem_take hpass rfl hkind)
  | endInterpolation spaced mode outer rest modes brace core_eq =>
    rw [snapshot_eq_of_core core_eq] at hpass ⊢
    exact h.push rfl (h.notMem_take hpass rfl (by simp))
  | beginInterpolation l outer modes stop core_eq =>
    rw [snapshot_eq_of_core core_eq] at hpass ⊢
    exact h.push rfl (h.notMem_take hpass rfl (by simp))
  | abandon l outer modes stop core_eq =>
    rw [snapshot_eq_of_core core_eq, snapshot_abandonLiteral]
    exact h.pushEmpty .stringEnd
  | close l outer modes stop core_eq =>
    rw [snapshot_eq_of_core core_eq, snapshot_closeLiteral] at hpass ⊢
    exact h.push rfl (h.notMem_take hpass rfl (by simp))
  | endBody l outer modes open_ stop core_eq =>
    rw [snapshot_eq_of_core core_eq]
    exact h

/-! ### Runs -/

/-- What was read between two offsets of a text is apart, if every line on which a heredoc opens ends in
code. -/
structure PartedIn (source : List Char) (ends : ℕ × ℕ) (r : Snapshot) : Prop where
  inside : Inside source r
  parted : PassesBodies source r.tokens → Parted ends.1 ends.2 r.cursor r.tokens r.resume

/-- Closing the innermost mode at the end of the text reads nothing. -/
lemma PartedIn.dropMode {ends : ℕ × ℕ} (h : PartedIn source ends s.snapshot) (m : Mode)
    (outer : List Mode) : PartedIn source ends (s.dropMode m outer).snapshot := by
  refine ⟨h.inside.dropMode m outer, ?_⟩
  cases m with
  | code d =>
    rw [snapshot_dropMode_code]
    exact fun hpass => (h.parted (hpass.of_subset (List.subset_cons_self _ _))).pushEmpty _
  | literal l =>
    cases hclose : l.close with
    | none =>
      rw [snapshot_dropMode_body hclose]
      exact h.parted
    | some c =>
      rw [snapshot_dropMode_literal (by simp [hclose])]
      exact fun hpass => (h.parted (hpass.of_subset (List.subset_cons_self _ _))).pushEmpty _

/-- The stretch that the scanner of a body reads. -/
def bodyEnds (s : Scanner) (o : HeredocOpener) : ℕ × ℕ :=
  ((s.bodyStart o).position.byte, (s.bodyScanner o).cursor.limit)

lemma partedIn_bodyScanner {o : HeredocOpener} (h : Inside source s.snapshot) (hcode : s.InCode)
    (ho : s.heredocOpener? = some o) :
    PartedIn source (s.bodyEnds o) (s.bodyScanner o).snapshot where
  inside := (inside_kept source).body hcode ho h
  parted _ := Parted.initial (s.bodyScanner o).cursor

/-- Every stretch is kept apart as long as the bodies are read so that theirs are. -/
theorem parted_of_reads (source : List Char) (nested : Scanner → Option Scanner)
    (hnested : ∀ ends, Reads (PartedIn source ends) nested) (ends : ℕ × ℕ) :
    KeptBy nested (PartedIn source ends) where
  content _ h hmove := by
    refine ⟨h.inside.content hmove, fun hpass => (h.parted ?_).content hpass hmove⟩
    exact hpass.of_subset hmove.grows.tokens.subset
  forward _ h hmove := by
    refine ⟨h.inside.forward hmove, fun hpass => (h.parted ?_).forward h.inside.cursor hpass ?_ hmove⟩
    · exact hpass.of_subset hmove.grows.tokens.subset
    · intro o t hcode ho ht hbody
      obtain ⟨hsafe, -⟩ := hnested _ _ t ht (.ofBody (partedIn_bodyScanner h.inside hcode ho))
      obtain ⟨hinside, hparted⟩ := hsafe.holds
      have hread := hparted hbody
      exact ⟨hread.apart, fun u hu =>
        ⟨hread.behind u hu, hread.stop_le_stop hinside.cursor hinside.resume u hu⟩⟩
  close _ _ _ h := h.dropMode _ _

/-- No byte is in two of the tokens that are read, if every line on which a heredoc opens ends in
code. -/
theorem apart_of_run {fuel : ℕ} (h : run fuel (ofText source) = some t)
    (hpass : PassesBodies source t.tokens) : t.tokens.Pairwise fun t u => t.span.Apart u.span := by
  have hstart : PartedIn source (0, Source.byteLength source) (ofText source).snapshot :=
    { inside := ⟨Cursor.within_ofText source, by simp [ofText, ofCursor]⟩
      parted := fun _ => .initial (.ofText source) }
  obtain ⟨hsafe, -⟩ :=
    reads_run (parted_of_reads source) fuel _ _ _ h (.outer (sound_ofText hstart))
  exact (hsafe.holds.parted hpass).apart

end Scanner

end RubyCheck
