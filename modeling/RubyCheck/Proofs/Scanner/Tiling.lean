import RubyCheck.Proofs.Position
import RubyCheck.Proofs.Scanner.Run

/-!
# Tokens and gaps tile a text without heredocs

Where no text is moved out of its place, every character in front of the cursor lies in the span of
a token or in a gap: in a blank, a continued line, a comment, an embedded document, or in the span
of a fault.  `Tiling` says so of the tokens and faults of a snapshot, and is kept by every move;
going back restores the tokens and the faults of a tiling together.
-/

namespace RubyCheck

open Source

/-! ### Gaps -/

/-- The text is at the end of a line. -/
def AtLineEnd (rest : List Char) : Prop := rest = [] ∨ ∃ behind, rest = '\n' :: behind

/-- A text whose first line ends an embedded document. -/
def EndsDocument (cs : List Char) : Prop :=
  "=end".toList <+: cs ∧ (cs.drop 4).head?.all Text.isBlank = true

/-- A piece of text between tokens, given the text in front of it and the text behind it. -/
inductive Piece (faults : List Fault) (before : List Char) : List Char → List Char → Prop
  | blank (c : Char) (hc : c ∈ [' ', '\t', '\r', '\x0b', '\x0c', '\n']) (rest : List Char) :
      Piece faults before [c] rest
  | continuation (rest : List Char) : Piece faults before ['\\', '\n'] rest
  | comment (text rest : List Char) (line : '\n' ∉ text) (stop : AtLineEnd rest) :
      Piece faults before ('#' :: text) rest
  /-- A document begins in the first column and reaches to the end of the first line that ends it. -/
  | document (body line rest : List Char) (column : (Position.behind before).column = 0)
      (opens : body.head?.all Text.isBlank = true)
      (inside : ∀ above below, body = above ++ '\n' :: below → ¬ EndsDocument below)
      (closes : line.head?.all Text.isBlank = true)
      (single : '\n' ∉ line) (stop : AtLineEnd rest) :
      Piece faults before ("=begin".toList ++ body ++ '\n' :: ("=end".toList ++ line)) rest
  /-- A piece in the span of a fault. -/
  | covered (f : Fault) (hf : f ∈ faults) (piece rest : List Char)
      (start : f.span.start.byte ≤ byteLength before)
      (stop : byteLength (before ++ piece) ≤ f.span.stop.byte) : Piece faults before piece rest

/-- A run of pieces behind a part of the text. -/
inductive Gap (source : List Char) (faults : List Fault) (before : List Char) : List Char → Prop
  | nil : Gap source faults before []
  | snoc (gap piece rest : List Char) (h : Gap source faults before gap)
      (hsource : source = before ++ gap ++ piece ++ rest)
      (hpiece : Piece faults (before ++ gap) piece rest) :
      Gap source faults before (gap ++ piece)

/-- Between two positions of the text there is a gap, perhaps an empty one. -/
def Position.Follows (source : List Char) (faults : List Fault) (p q : Position) : Prop :=
  ∃ before gap, p = .behind before ∧ q = .behind (before ++ gap) ∧ Gap source faults before gap

lemma Position.Follows.byte_le {source : List Char} {faults : List Fault} {p q : Position}
    (h : p.Follows source faults q) : p.byte ≤ q.byte := by
  obtain ⟨before, gap, rfl, rfl, -⟩ := h
  simp

/-! ### Tilings -/

/-- The tokens, given from the last to the first, and the gaps between them make up the beginning of
the text. -/
inductive Tiling (source : List Char) (faults : List Fault) : List Char → List Token → Prop
  | start : Tiling source faults [] []
  | piece (before piece rest : List Char) (tokens : List Token)
      (h : Tiling source faults before tokens)
      (hsource : source = before ++ piece ++ rest) (hpiece : Piece faults before piece rest) :
      Tiling source faults (before ++ piece) tokens
  | token (before text : List Char) (t : Token) (tokens : List Token)
      (h : Tiling source faults before tokens)
      (hspan : t.span = ⟨.behind before, .behind (before ++ text)⟩) :
      Tiling source faults (before ++ text) (t :: tokens)

/-- Where the last token ends, or the text begins. -/
def lastStop (tokens : List Token) : Position := (tokens.head?.map (·.span.stop)).getD .origin

section Tiling

variable {source before piece rest text gap : List Char} {faults faults' : List Fault}
    {tokens : List Token}
  {t : Token}

lemma Piece.mono (h : Piece faults before piece rest) (hfaults : faults ⊆ faults') :
    Piece faults' before piece rest := by
  cases h with
  | blank c hc => exact .blank c hc _
  | continuation => exact .continuation _
  | comment text _ line stop => exact .comment text _ line stop
  | document body line _ column opens inside closes single stop =>
    exact .document body line _ column opens inside closes single stop
  | covered f hf _ _ start stop => exact .covered f (hfaults hf) _ _ start stop

/-- More faults leave a tiling one. -/
lemma Tiling.mono (h : Tiling source faults before tokens) (hfaults : faults ⊆ faults') :
    Tiling source faults' before tokens := by
  induction h with
  | start => exact .start
  | piece before piece rest tokens _ hsource hpiece ih =>
    exact .piece before piece rest tokens ih hsource (hpiece.mono hfaults)
  | token before text t tokens _ hspan ih => exact .token before text t tokens ih hspan

/-- An empty token takes no place. -/
lemma Tiling.empty (h : Tiling source faults before tokens)
    (hspan : t.span = .point (.behind before)) : Tiling source faults before (t :: tokens) := by
  have htoken := h.token before [] t tokens (by rw [List.append_nil, hspan]; rfl)
  rwa [List.append_nil] at htoken

/-- Behind the last token there is a gap. -/
lemma Tiling.gap_behind (h : Tiling source faults before tokens) :
    ∃ covered gap, before = covered ++ gap ∧ lastStop tokens = .behind covered ∧
      Gap source faults covered gap := by
  induction h with
  | start => exact ⟨[], [], rfl, rfl, .nil⟩
  | piece before piece rest tokens _ hsource hpiece ih =>
    obtain ⟨covered, gap, rfl, hstop, hgap⟩ := ih
    exact ⟨covered, gap ++ piece, List.append_assoc _ _ _, hstop,
      .snoc gap piece rest hgap hsource hpiece⟩
  | token before text t tokens _ hspan ih =>
    refine ⟨before ++ text, [], (List.append_nil _).symm, ?_, .nil⟩
    simp [lastStop, hspan]

/-- Between each token and the one before it there is a gap. -/
theorem Tiling.follows {newer older : List Token}
    (h : Tiling source faults before (newer ++ t :: older)) :
    (lastStop older).Follows source faults t.span.start := by
  generalize htokens : newer ++ t :: older = tokens at h
  induction h generalizing newer with
  | start => simp at htokens
  | piece _ _ _ _ _ _ _ ih => exact ih htokens
  | token before text u tokens h hspan ih =>
    cases newer with
    | nil =>
      obtain ⟨rfl, rfl⟩ := List.cons.inj htokens
      obtain ⟨covered, gap, rfl, hstop, hgap⟩ := h.gap_behind
      exact ⟨covered, gap, hstop, by rw [hspan], hgap⟩
    | cons v newer => exact ih (List.cons.inj htokens).2

end Tiling

namespace Scanner

variable {source : List Char} {s s' t : Scanner} {nested : Scanner → Option Scanner}

/-! ### Blanks and documents are pieces -/

/-- Behind the rest of a line stands a line break, or nothing. -/
lemma atLineEnd_dropWhile (cs : List Char) : AtLineEnd (cs.dropWhile (· != '\n')) := by
  induction cs with
  | nil => exact .inl rfl
  | cons c cs ih =>
    by_cases hc : c = '\n'
    · subst hc
      exact .inr ⟨cs, by simp⟩
    · rwa [List.dropWhile_cons_of_pos (by simpa using hc)]

lemma notMem_takeWhile (cs : List Char) : '\n' ∉ cs.takeWhile (· != '\n') := by
  induction cs with
  | nil => simp
  | cons c cs ih =>
    by_cases hc : c = '\n'
    · simp [hc]
    · rw [List.takeWhile_cons_of_pos (by simpa using hc), List.mem_cons, not_or]
      exact ⟨fun h => hc h.symm, ih⟩

/-- The rest of a line, taken from a text by its length. -/
lemma take_length_takeWhile (cs : List Char) :
    cs.take (cs.takeWhile (· != '\n')).length = cs.takeWhile (· != '\n') ∧
      cs.drop (cs.takeWhile (· != '\n')).length = cs.dropWhile (· != '\n') := by
  have htake := @List.take_left _ (cs.takeWhile (· != '\n')) (cs.dropWhile (· != '\n'))
  have hdrop := @List.drop_left _ (cs.takeWhile (· != '\n')) (cs.dropWhile (· != '\n'))
  rw [List.takeWhile_append_dropWhile] at htake hdrop
  exact ⟨htake, hdrop⟩

lemma Blank.piece {cs : List Char} {n : ℕ} (h : Blank cs n) (faults : List Fault)
    (before : List Char) : Piece faults before (cs.take n) (cs.drop n) := by
  cases h with
  | space hc rest => exact .blank _ hc _
  | continuation rest => exact .continuation _
  | comment rest =>
    have hhash : ('#' :: rest).takeWhile (· != '\n') = '#' :: rest.takeWhile (· != '\n') := by simp
    obtain ⟨htake, hdrop⟩ := take_length_takeWhile ('#' :: rest)
    rw [htake, hdrop, hhash]
    exact .comment _ _ (notMem_takeWhile rest) (atLineEnd_dropWhile _)

/-- A line that ends a document is seen to end it, whatever lines follow. -/
lemma atWord_of_endsDocument {cs : List Char} (h : EndsDocument cs) (rest : List Char) :
    atWord "=end".toList (cs ++ '\n' :: rest) = true := by
  obtain ⟨⟨line, rfl⟩, hblank⟩ := h
  have hdrop : (("=end".toList ++ line) ++ '\n' :: rest).drop 4 = line ++ '\n' :: rest := rfl
  simp only [atWord, Bool.and_eq_true, List.isPrefixOf_iff_prefix]
  refine ⟨⟨line ++ '\n' :: rest, (List.append_assoc _ _ _).symm⟩, ?_⟩
  change (List.drop 4 _).head?.all Text.isBlank = true
  rw [hdrop]
  cases line with
  | nil => rfl
  | cons c line => exact hblank

/-- A document that is ended reaches to the end of the first line that ends it. -/
theorem documentEnd_true {n m : ℕ} {cs : List Char} (h : documentEnd n cs = (m, true)) :
    ∃ body line rest, cs = body ++ '\n' :: ("=end".toList ++ line) ++ rest ∧
      m = n + (body ++ '\n' :: ("=end".toList ++ line)).length ∧
      (∀ above below, body = above ++ '\n' :: below → ¬ EndsDocument below) ∧
      line.head?.all Text.isBlank = true ∧ '\n' ∉ line ∧ AtLineEnd rest := by
  fun_induction documentEnd n cs with
  | case1 n => simp at h
  | case2 n cs hword =>
    obtain ⟨rfl, -⟩ := Prod.mk.inj h
    simp only [atWord, Bool.and_eq_true, List.isPrefixOf_iff_prefix] at hword
    obtain ⟨⟨after, rfl⟩, hblank⟩ := hword
    have hsplit := List.takeWhile_append_dropWhile (p := (· != '\n')) (l := after)
    refine ⟨[], after.takeWhile (· != '\n'), after.dropWhile (· != '\n'), ?_, ?_, ?_, ?_,
      notMem_takeWhile _, atLineEnd_dropWhile _⟩
    · simp [hsplit]
    · simp
      omega
    · intro above below hbody
      simp at hbody
    · rw [List.drop_left] at hblank
      cases after with
      | nil => rfl
      | cons c after =>
        by_cases hc : c = '\n'
        · simp [hc]
        · rw [List.takeWhile_cons_of_pos (by simpa using hc)]
          exact hblank
  | case3 n cs hword ih =>
    obtain ⟨body, line, rest, rfl, rfl, hinside, hrest⟩ := ih h
    refine ⟨'\n' :: body, line, rest, rfl, ?_, ?_, hrest⟩
    · simp only [List.cons_append, List.length_cons]
      omega
    -- The line behind this break is the one that was looked at here; the others are in the rest.
    · rintro (_ | ⟨c, above⟩) below hbody hends
      · obtain rfl : body = below := (List.cons.inj hbody).2
        exact hword (by simpa using atWord_of_endsDocument hends _)
      · exact hinside above below (List.cons.inj hbody).2 hends
  | case4 n c cs hc ih =>
    obtain ⟨body, line, rest, rfl, rfl, hinside, hrest⟩ := ih h
    refine ⟨c :: body, line, rest, rfl, ?_, ?_, hrest⟩
    · simp only [List.cons_append, List.length_cons]
      omega
    · rintro (_ | ⟨d, above⟩) below hbody hends
      · exact hc (List.cons.inj hbody).1
      · exact hinside above below (List.cons.inj hbody).2 hends

lemma piece_of_document {cs before : List Char} {n : ℕ} (faults : List Fault)
    (column : (Position.behind before).column = 0) (hword : atWord "=begin".toList cs = true)
    (h : documentEnd 0 cs = (n, true)) : Piece faults before (cs.take n) (cs.drop n) := by
  simp only [atWord, Bool.and_eq_true, List.isPrefixOf_iff_prefix] at hword
  obtain ⟨⟨after, rfl⟩, hblank⟩ := hword
  have hafter : documentEnd 6 after = (n, true) := h
  obtain ⟨body, line, rest, rfl, rfl, hinside, hline, hsingle, hstop⟩ := documentEnd_true hafter
  have hopens : body.head?.all Text.isBlank = true := by
    rw [List.drop_left] at hblank
    cases body with
    | nil => rfl
    | cons c body => exact hblank
  have hdocument : Piece faults before
      ("=begin".toList ++ body ++ '\n' :: ("=end".toList ++ line)) rest :=
    .document body line rest column hopens hinside hline hsingle hstop
  have hlength : 6 + (body ++ '\n' :: ("=end".toList ++ line)).length =
      ("=begin".toList ++ body ++ '\n' :: ("=end".toList ++ line)).length := by
    simp only [List.length_append]
    have : "=begin".toList.length = 6 := by decide
    omega
  rw [hlength, ← List.append_assoc, ← List.append_assoc, List.take_left, List.drop_left]
  exact hdocument

/-! ### The invariant -/

/-- What stands in front of the cursor is tiled, and nothing is read out of its place. -/
structure Tiled (source : List Char) (r : Snapshot) : Prop where
  inPlace : r.resume = none
  tiling : ∃ before, source = before ++ r.cursor.rest ∧ r.cursor.position = .behind before ∧
    Tiling source r.faults before r.tokens

lemma tiled_ofText (source : List Char) : Tiled source (ofText source).snapshot where
  inPlace := rfl
  tiling := ⟨[], rfl, rfl, .start⟩

/-- Reading `n` characters keeps the text tiled if they are accounted for. -/
lemma Tiled.read {r r' : Snapshot} (h : Tiled source r) (n : ℕ)
    (hcursor : r'.cursor = .advanceBy n r.cursor) (hresume : r'.resume = r.resume)
    (htiling : ∀ before, source = before ++ r.cursor.rest.take n ++ r.cursor.rest.drop n →
      r.cursor.position = .behind before → Tiling source r.faults before r.tokens →
      Tiling source r'.faults (before ++ r.cursor.rest.take n) r'.tokens) :
    Tiled source r' := by
  obtain ⟨before, hsource, hposition, htiled⟩ := h.tiling
  have hsource' : source = before ++ r.cursor.rest.take n ++ r.cursor.rest.drop n := by
    rw [List.append_assoc, List.take_append_drop, hsource]
  refine ⟨hresume.trans h.inPlace, before ++ r.cursor.rest.take n, ?_, ?_,
    htiling before hsource' hposition htiled⟩
  · rw [hcursor, Cursor.rest_advanceBy]
    exact hsource'
  · rw [hcursor, Cursor.position_advanceBy, hposition, Position.behind_append]

/-- A token is read. -/
lemma Tiled.token {r' : Snapshot} {u : Token} (h : Tiled source s.snapshot) (n : ℕ)
    (hcursor : r'.cursor = .advanceBy n s.cursor) (hresume : r'.resume = s.resume)
    (htokens : r'.tokens = u :: s.tokens) (hspan : u.span = s.spanOf n)
    (hfaults : s.faults ⊆ r'.faults) : Tiled source r' := by
  refine h.read n hcursor hresume fun before _ hposition htiled => ?_
  rw [htokens]
  refine (htiled.mono hfaults).token before _ u _ ?_
  have hstart : s.cursor.position = .behind before := hposition
  rw [hspan, spanOf, Cursor.position_advanceBy, hstart, Position.behind_append]
  rfl

/-- A token that the text never wrote is added. -/
lemma Tiled.empty {r' : Snapshot} (h : Tiled source s.snapshot) (kind : TokenKind)
    (hcursor : r'.cursor = s.cursor) (hresume : r'.resume = s.resume)
    (htokens : r'.tokens = .empty kind s.cursor.position :: s.tokens)
    (hfaults : s.faults ⊆ r'.faults) : Tiled source r' := by
  obtain ⟨before, hsource, hposition, htiled⟩ := h.tiling
  refine ⟨hresume.trans h.inPlace, before, ?_, ?_, ?_⟩
  · rw [hcursor]
    exact hsource
  · rw [hcursor]
    exact hposition
  rw [htokens]
  refine (htiled.mono hfaults).empty ?_
  rw [show s.cursor.position = _ from hposition]
  rfl

lemma Tiled.content (h : Tiled source s.snapshot) (hmove : Content s t) :
    Tiled source t.snapshot := by
  obtain ⟨l, l', outer, stop, n, -, -, rfl⟩ := hmove
  have hemit := snapshot_emitContent (s := { s with modes := .literal l' :: outer }) n
  rcases hemit with ⟨hsnap, -⟩ | ⟨-, hsnap⟩
  · rw [hsnap]
    exact ⟨h.inPlace, h.tiling⟩
  · rw [hsnap]
    exact h.token n rfl rfl rfl rfl (List.Subset.refl _)

/-- A text without two angle brackets in a row has no heredoc. -/
lemma Tiled.heredocOpener?_eq_none (hsource : ¬ "<<".toList <:+: source)
    (h : Tiled source s.snapshot) : s.heredocOpener? = none := by
  cases ho : s.heredocOpener? with
  | none => rfl
  | some o =>
    obtain ⟨⟨after, hrest⟩, -⟩ := rest_of_heredocOpener? ho
    obtain ⟨before, hbefore, -⟩ := h.tiling
    refine absurd ⟨before, after, ?_⟩ hsource
    rw [hbefore, snapshot_cursor, hrest]
    simp

/-- A move forward keeps the text tiled. -/
theorem Tiled.forward (hsource : ¬ "<<".toList <:+: source) (h : Tiled source s.snapshot)
    (hmove : Forward nested s s') : Tiled source s'.snapshot := by
  have hcons : ∀ f : Fault, s.faults ⊆ f :: s.faults := fun f => List.subset_cons_self f _
  cases hmove with
  | blank n code piece core_eq =>
    rw [snapshot_eq_of_core core_eq]
    refine h.read n rfl rfl fun before hsource _ htiled => ?_
    exact htiled.piece before _ _ _ hsource (piece.piece _ _)
  | document n code top word ended core_eq =>
    rw [snapshot_eq_of_core core_eq]
    refine h.read n rfl rfl fun before hsource hposition htiled => ?_
    refine htiled.piece before _ _ _ hsource (piece_of_document _ ?_ word ended)
    simp only [atTopLine, Cursor.atLineStart, Bool.and_eq_true, beq_iff_eq] at top
    rw [← hposition]
    exact top.1.1
  | stray cause n code pos ahead core_eq =>
    rw [snapshot_eq_of_core core_eq]
    refine h.read n rfl rfl fun before hsource hposition htiled => ?_
    refine (htiled.mono (hcons _)).piece before _ _ _ hsource ?_
    refine .covered ⟨cause, s.spanOf n⟩ List.mem_cons_self _ _ ?_ ?_
    · exact (congrArg Position.byte hposition).le
    · simp only [spanOf, Cursor.position_advanceBy]
      rw [show s.cursor.position = _ from hposition, ← Position.behind_append]
      exact le_rfl
  | token ms kind n spaced code layers plain pos ahead core_eq =>
    rw [snapshot_eq_of_core core_eq]
    exact h.token n rfl rfl rfl rfl (List.Subset.refl _)
  | faulty cause k kind n spaced code plain pos ahead core_eq =>
    rw [snapshot_eq_of_core core_eq]
    exact h.token n rfl rfl rfl rfl (hcons _)
  | jump t resume rest code lineBreak read pending core_eq =>
    have hnone : s.resume = none := h.inPlace
    simp [hnone] at pending
  | heredoc o spaced body code opener read core_eq =>
    simp [h.heredocOpener?_eq_none hsource] at opener
  | begin o spaced code pos ahead core_eq =>
    rw [snapshot_eq_of_core core_eq, snapshot_beginLiteral]
    exact h.token o.width rfl rfl rfl rfl (List.Subset.refl _)
  | endInterpolation spaced mode outer rest modes brace core_eq =>
    rw [snapshot_eq_of_core core_eq]
    exact h.token 1 rfl rfl rfl rfl (List.Subset.refl _)
  | beginInterpolation l outer modes stop core_eq =>
    rw [snapshot_eq_of_core core_eq]
    exact h.token 2 rfl rfl rfl rfl (List.Subset.refl _)
  | abandon l outer modes stop core_eq =>
    rw [snapshot_eq_of_core core_eq, snapshot_abandonLiteral]
    exact h.empty .stringEnd rfl rfl rfl (hcons _)
  | close l outer modes stop core_eq =>
    rw [snapshot_eq_of_core core_eq, snapshot_closeLiteral]
    exact h.token (s.closingWidth l) rfl rfl rfl rfl (List.Subset.refl _)
  | endBody l outer modes open_ stop core_eq =>
    rw [snapshot_eq_of_core core_eq]
    exact ⟨h.inPlace, h.tiling⟩

/-- Closing the innermost mode at the end of the text keeps it tiled. -/
lemma Tiled.dropMode (h : Tiled source s.snapshot) (m : Mode) (outer : List Mode) :
    Tiled source (s.dropMode m outer).snapshot := by
  cases m with
  | code d =>
    rw [snapshot_dropMode_code]
    exact h.empty .interpolationEnd rfl rfl rfl (List.Subset.refl _)
  | literal l =>
    cases hclose : l.close with
    | none =>
      rw [snapshot_dropMode_body hclose]
      exact ⟨h.inPlace, h.tiling⟩
    | some c =>
      rw [snapshot_dropMode_literal (by simp [hclose])]
      exact h.empty .stringEnd rfl rfl rfl (List.subset_cons_self _ _)

theorem tiled_kept (hsource : ¬ "<<".toList <:+: source) : Kept (Tiled source) where
  content _ h hmove := h.content hmove
  body _ ho h := by simp [h.heredocOpener?_eq_none hsource] at ho
  forward _ h _ hmove := h.forward hsource hmove
  close _ _ _ h := h.dropMode _ _

/-- A text without two angle brackets in a row is tiled when reading has come to its end. -/
theorem tiled_of_run {fuel : ℕ} (hsource : ¬ "<<".toList <:+: source)
    (h : run fuel (ofText source) = some t) : Tiled source t.snapshot ∧ t.AtEnd := by
  obtain ⟨hsafe, -, -, hend⟩ :=
    (tiled_kept hsource).run_safe fuel _ _ h (.outer (sound_ofText (tiled_ofText source)))
  exact ⟨hsafe.holds, hend⟩

/-- The line that ends the program. -/
lemma eq_of_atEndMarker {cs : List Char} (h : atEndMarker cs = true) :
    ∃ after, cs = "__END__".toList ++ after ∧
      (after = [] ∨ (∃ behind, after = '\n' :: behind) ∨
        ∃ behind, after = '\r' :: '\n' :: behind) := by
  simp only [atEndMarker, Bool.and_eq_true, List.isPrefixOf_iff_prefix] at h
  obtain ⟨⟨after, rfl⟩, hafter⟩ := h
  refine ⟨after, rfl, ?_⟩
  rw [show ("__END__".toList ++ after).drop 7 = after from rfl] at hafter
  split at hafter
  · exact .inl rfl
  · exact .inr (.inl ⟨_, rfl⟩)
  · exact .inr (.inr ⟨_, rfl⟩)
  · simp at hafter

end Scanner

end RubyCheck
