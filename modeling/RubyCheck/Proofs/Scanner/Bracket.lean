import RubyCheck.Proofs.Scanner.Run

/-!
# Tokens are well bracketed

Beginnings and ends of literals and of the code inside them match: `enclose` checks them from left
to right with a stack, and `Bracketed` is the invariant that ties that stack to the modes of the
scanner.  The tokens of a heredoc's body are checked on top of what stands around the heredoc
(`enclosed_append`), because its scanner starts inside a literal and ends there.
-/

namespace RubyCheck

/-- What a token stands in. -/
inductive Enclosure where
  | literal
  | interpolation
deriving DecidableEq, Repr

/-- The enclosures that are open behind one more token; none if the token may not stand here. -/
def enclose (es : List Enclosure) : TokenKind → Option (List Enclosure)
  | .stringBegin | .regexBegin => if es.head? = some .literal then none else some (.literal :: es)
  | .stringContent => if es.head? = some .literal then some es else none
  | .interpolationBegin => if es.head? = some .literal then some (.interpolation :: es) else none
  | .stringEnd => if es.head? = some .literal then some es.tail else none
  | .interpolationEnd => if es.head? = some .interpolation then some es.tail else none
  | .eof => none
  | _ => if es.head? = some .literal then none else some es

/-- A token of code leaves the enclosures as they are. -/
lemma enclose_of_isPlain {es : List Enclosure} {kind : TokenKind} (hkind : kind.isPlain = true)
    (hes : es.head? ≠ some .literal) : enclose es kind = some es := by
  cases kind <;> simp_all [TokenKind.isPlain, enclose]

lemma enclose_beginKind {es : List Enclosure} (flavor : Scanner.Flavor)
    (hes : es.head? ≠ some .literal) : enclose es flavor.beginKind = some (.literal :: es) := by
  cases flavor <;> simp [Scanner.Flavor.beginKind, enclose, hes]

lemma beginKind_ne_content (flavor : Scanner.Flavor) : flavor.beginKind ≠ .stringContent := by
  cases flavor <;> simp [Scanner.Flavor.beginKind]

/-- What stands around the enclosures does not matter, unless it is a literal. -/
lemma enclose_append {es es' outer : List Enclosure} {kind : TokenKind}
    (houter : outer.head? ≠ some .literal) (h : enclose es kind = some es') :
    enclose (es ++ outer) kind = some (es' ++ outer) := by
  cases es with
  | nil =>
    cases kind <;> simp [enclose, houter] at h ⊢
    all_goals
      subst h
      rfl
  | cons e es =>
    cases e <;> cases kind <;> simp [enclose] at h ⊢
    all_goals
      subst h
      rfl

/-- The enclosures that are open behind some tokens, given from the last to the first. -/
def enclosed (base : List Enclosure) : List Token → Option (List Enclosure)
  | [] => some base
  | t :: ts => (enclosed base ts).bind (enclose · t.kind)

/-- Checking tokens from the last to the first is checking them in their order. -/
theorem enclosed_eq_foldlM (base : List Enclosure) (ts : List Token) :
    enclosed base ts = (ts.reverse.map (·.kind)).foldlM enclose base := by
  induction ts with
  | nil => rfl
  | cons t ts ih =>
    rw [enclosed, ih, List.reverse_cons, List.map_append, List.foldlM_append]
    cases (ts.reverse.map (·.kind)).foldlM enclose base with
    | none => rfl
    | some es => simp

/-- The end of the text stands in no enclosures, not even in none. -/
lemma ne_eof_of_enclosed {base es : List Enclosure} {ts : List Token}
    (h : enclosed base ts = some es) : ∀ t ∈ ts, t.kind ≠ .eof := by
  induction ts generalizing es with
  | nil => simp
  | cons t ts ih =>
    rw [enclosed] at h
    obtain ⟨es', hes', ht⟩ := Option.bind_eq_some_iff.mp h
    refine List.forall_mem_cons.mpr ⟨fun heof => ?_, ih hes'⟩
    rw [heof] at ht
    simp [enclose] at ht

/-- Tokens that are well bracketed by themselves are so inside anything but a literal. -/
theorem enclosed_append {base es outer : List Enclosure} {ts us : List Token}
    (houter : outer.head? ≠ some .literal) (hts : enclosed base ts = some es)
    {start : List Enclosure} (hus : enclosed start us = some (base ++ outer)) :
    enclosed start (ts ++ us) = some (es ++ outer) := by
  induction ts generalizing es with
  | nil =>
    obtain rfl := Option.some.inj hts
    exact hus
  | cons t ts ih =>
    rw [enclosed] at hts
    obtain ⟨es', hes', ht⟩ := Option.bind_eq_some_iff.mp hts
    rw [List.cons_append, enclosed, ih hes', Option.bind_some]
    exact enclose_append houter ht

namespace Scanner

variable {s s' t : Scanner} {nested : Scanner → Option Scanner}

/-! ### Enclosures of the modes -/

/-- What a mode encloses. -/
def Mode.enclosure : Mode → Enclosure
  | .code _ => .interpolation
  | .literal _ => .literal

/-- What encloses the first token of a scanner. -/
def baseOf (inBody : Bool) : List Enclosure := if inBody then [.literal] else []

/-- What the modes of a scanner enclose.  The literal of a heredoc opens and closes outside the
scanner of its body. -/
def enclosures (inBody : Bool) (ms : List Mode) : List Enclosure :=
  if ms.length ≤ 1 then baseOf inBody else ms.dropLast.map Mode.enclosure

lemma enclosures_cons {inBody : Bool} (m : Mode) {outer : List Mode}
    (h : 2 ≤ outer.length ∨ inBody = false ∧ outer.length = 1) :
    enclosures inBody (m :: outer) = m.enclosure :: enclosures inBody outer := by
  have hne : outer ≠ [] := by
    rintro rfl
    simp at h
  have hdeep : ¬ (m :: outer).length ≤ 1 := by
    have := List.length_pos_of_ne_nil hne
    rw [List.length_cons]
    omega
  rw [enclosures, if_neg hdeep, List.dropLast_cons_of_ne_nil hne, List.map_cons]
  rcases h with h | ⟨rfl, h⟩
  · rw [enclosures, if_neg (by omega)]
  · obtain ⟨m', rfl⟩ := List.length_eq_one_iff.mp h
    rfl

/-- Inside a literal the innermost enclosure is that literal. -/
lemma enclosures_literal {inBody : Bool} (l : OpenLiteral) (m : Mode) (outer : List Mode) :
    (enclosures inBody (.literal l :: m :: outer)).head? = some .literal := by
  rw [enclosures, if_neg (by simp), List.dropLast_cons_of_ne_nil (List.cons_ne_nil _ _)]
  rfl

lemma SameLayers.enclosures_eq {inBody : Bool} {ms ms' : List Mode} (h : SameLayers ms ms') :
    enclosures inBody ms' = enclosures inBody ms := by
  cases h with
  | refl => rfl
  | braces d d' outer => cases outer <;> rfl

/-! ### The invariant -/

/-- Which literals have a delimiter: all but the one that the scanner of a body starts in, which
does not end at a line break either. -/
def Delimited (inBody : Bool) (ms : List Mode) : Prop :=
  ∀ l outer, .literal l :: outer <:+ ms →
    if inBody = true ∧ outer.length = 1 then l.close = none ∧ l.singleLine = false
    else l.close.isSome = true

lemma Delimited.of_suffix {inBody : Bool} {ms ms' : List Mode} (h : Delimited inBody ms)
    (hsuffix : ms' <:+ ms) : Delimited inBody ms' :=
  fun l outer hl => h l outer (hl.trans hsuffix)

lemma Delimited.code {inBody : Bool} {ms : List Mode} (h : Delimited inBody ms) (d : ℕ) :
    Delimited inBody (.code d :: ms) := by
  intro l outer hl
  rcases List.suffix_cons_iff.mp hl with heq | hl
  · simp at heq
  · exact h l outer hl

lemma Delimited.literal {inBody : Bool} {ms : List Mode} (h : Delimited inBody ms)
    {l : OpenLiteral}
    (hl : if inBody = true ∧ ms.length = 1 then l.close = none ∧ l.singleLine = false
      else l.close.isSome = true) : Delimited inBody (.literal l :: ms) := by
  intro k outer hk
  rcases List.suffix_cons_iff.mp hk with heq | hk
  · obtain ⟨hlk, rfl⟩ := List.cons.inj heq
    obtain rfl := Mode.literal.inj hlk
    exact hl
  · exact h k outer hk

lemma SameLayers.delimited {inBody : Bool} {ms ms' : List Mode} (h : SameLayers ms ms')
    (hms : Delimited inBody ms) : Delimited inBody ms' := by
  cases h with
  | refl => exact hms
  | braces d d' outer => exact (hms.of_suffix (List.suffix_cons _ _)).code d'

/-- The tokens of a scanner are well bracketed, and what is open behind them is what its modes
enclose. -/
structure Bracketed (r : Snapshot) : Prop where
  delimited : Delimited r.inBody r.modes
  /-- Behind the literal that it starts in, the scanner of a body reads nothing. -/
  ended : r.inBody = true → r.modes.length ≤ 1 → r.cursor.rest = []
  balanced : enclosed (baseOf r.inBody) r.tokens = some (enclosures r.inBody r.modes)
  content : ∀ t ∈ r.tokens, t.kind = .stringContent → t.text ≠ ""

lemma bracketed_ofText (source : List Char) : Bracketed (ofText source).snapshot where
  delimited := by
    intro l outer hl
    simp [ofText, ofCursor, snapshot, List.suffix_cons_iff] at hl
  ended := by simp [ofText, ofCursor, snapshot]
  balanced := rfl
  content := by simp [ofText, ofCursor, snapshot]

lemma bracketed_bodyScanner (o : HeredocOpener) : Bracketed (s.bodyScanner o).snapshot where
  delimited := by
    intro l outer hl
    simp only [Scanner.bodyScanner, ofBody, ofCursor, snapshot, List.suffix_cons_iff,
      List.cons.injEq, Mode.literal.injEq, reduceCtorEq, false_and, List.suffix_nil, or_false,
      List.cons_ne_nil] at hl
    obtain ⟨rfl, rfl⟩ := hl
    simp [Scanner.bodyScanner, ofBody, ofCursor, snapshot]
  ended := by simp [Scanner.bodyScanner, ofBody, ofCursor, snapshot]
  balanced := rfl
  content := by simp [Scanner.bodyScanner, ofBody, ofCursor, snapshot]

lemma Bracketed.enclosed_tokens (h : Bracketed s.snapshot) :
    enclosed (baseOf s.inBody) s.tokens = some (enclosures s.inBody s.modes) :=
  h.balanced

/-- Where all modes but the outermost are closed, nothing is left open. -/
lemma Bracketed.balanced_of_closed (h : Bracketed s.snapshot) (hlength : s.modes.length = 1) :
    enclosed (baseOf s.inBody) s.tokens = some (baseOf s.inBody) := by
  rw [h.enclosed_tokens, enclosures, if_pos hlength.le]

/-- In code that goes on, no literal is innermost. -/
lemma Bracketed.head_of_code (h : Bracketed s.snapshot) (halt : Alternates s.modes)
    (hcode : s.InCode) (hrest : s.cursor.rest ≠ []) :
    (enclosures s.inBody s.modes).head? ≠ some .literal := by
  obtain ⟨d, outer, hmodes⟩ := hcode
  rw [hmodes] at halt ⊢
  cases halt with
  | outermost =>
    have hbody : s.inBody = false := by
      cases hbody : s.inBody with
      | false => rfl
      | true => exact absurd (h.ended hbody (by simp [snapshot, hmodes])) hrest
    rw [hbody]
    simp [enclosures, baseOf]
  | code _ l outer halt =>
    obtain ⟨d', outer', rfl⟩ := halt.of_literal
    rw [enclosures_cons _ (.inl (by simp))]
    simp [Mode.enclosure]

/-- A literal with a delimiter is an enclosure of its own. -/
lemma Bracketed.enclosures_of_literal (h : Bracketed s.snapshot) (halt : Alternates s.modes)
    {l : OpenLiteral} {outer : List Mode} (hmodes : s.modes = .literal l :: outer)
    (hl : l.close.isSome = true ∨ l.singleLine = true) :
    enclosures s.inBody s.modes = .literal :: enclosures s.inBody outer := by
  have hdelimited := h.delimited l outer (by rw [snapshot_modes, hmodes])
  obtain ⟨d, outer', rfl⟩ := (hmodes ▸ halt).of_literal
  rw [hmodes]
  refine enclosures_cons _ ?_
  split at hdelimited
  · obtain ⟨hclose, hsingle⟩ := hdelimited
    simp [hclose, hsingle] at hl
  · rename_i hbody
    rcases Nat.eq_zero_or_pos outer'.length with hzero | hpos
    · refine .inr ⟨Bool.eq_false_iff.mpr fun hcase => hbody ⟨hcase, ?_⟩, ?_⟩
      · rw [List.length_cons, hzero]
      · rw [List.length_cons, hzero]
    · exact .inl (Nat.succ_le_succ hpos)

/-- Only the literal that the scanner of a body starts in has no delimiter. -/
lemma Bracketed.body_of_close_eq_none (h : Bracketed s.snapshot) {l : OpenLiteral}
    {outer : List Mode} (hmodes : s.modes = .literal l :: outer) (hl : l.close = none) :
    s.inBody = true ∧ outer.length = 1 := by
  have hdelimited := h.delimited l outer (by rw [snapshot_modes, hmodes])
  split at hdelimited
  · rename_i hbody
    exact hbody
  · simp [hl] at hdelimited

/-- Leaving the literal that the scanner of a body starts in leaves what is open as it is. -/
lemma Bracketed.enclosed_of_close_eq_none (h : Bracketed s.snapshot) {l : OpenLiteral}
    {outer : List Mode} (hmodes : s.modes = .literal l :: outer) (hl : l.close = none) :
    enclosed (baseOf s.inBody) s.tokens = some (enclosures s.inBody outer) := by
  obtain ⟨hbody, hlength⟩ := h.body_of_close_eq_none hmodes hl
  obtain ⟨m, rfl⟩ := List.length_eq_one_iff.mp hlength
  rw [h.enclosed_tokens, hmodes, hbody]
  rfl

/-! ### The moves -/

/-- Content is never empty. -/
lemma textOf_ne_empty {n : ℕ} (hpos : 0 < n) (hrest : s.cursor.rest ≠ []) : s.textOf n ≠ "" := by
  intro hempty
  have htake : s.cursor.rest.take n = [] := by
    rw [← String.toList_ofList (l := s.cursor.rest.take n)]
    exact String.toList_eq_nil_iff.mpr hempty
  rcases List.take_eq_nil_iff.mp htake with hzero | hnil
  · omega
  · exact hrest hnil

lemma Bracketed.emitContent (h : Bracketed s.snapshot) (halt : Alternates s.modes)
    (hmove : Content s t) : Bracketed t.snapshot := by
  obtain ⟨l, l', outer, stop, n, hmodes, hends, rfl⟩ := hmove
  obtain ⟨k, hk, hle, -, hl⟩ := contentEnd_spec hends
  obtain ⟨d, outer', rfl⟩ := (hmodes ▸ halt).of_literal
  have hdelimited : Delimited s.inBody (.literal l' :: .code d :: outer') := by
    have hms : Delimited s.inBody (.literal l :: .code d :: outer') := hmodes ▸ h.delimited
    refine (hms.of_suffix (List.suffix_cons _ _)).literal ?_
    rw [hl.close, hl.singleLine]
    exact hms l _ List.suffix_rfl
  have henclosures : enclosures s.inBody (.literal l' :: .code d :: outer') =
      enclosures s.inBody s.modes := by
    rw [hmodes, enclosures, enclosures, List.dropLast_cons_of_ne_nil (List.cons_ne_nil _ _),
      List.dropLast_cons_of_ne_nil (List.cons_ne_nil _ _)]
    rfl
  have henclosed : enclosed (baseOf s.inBody) s.tokens =
      some (enclosures s.inBody (.literal l' :: .code d :: outer')) := by
    rw [henclosures]
    exact h.balanced
  rcases snapshot_emitContent (s := { s with modes := .literal l' :: .code d :: outer' }) n with
    ⟨hsnap, -⟩ | ⟨hpos, hsnap⟩
  · rw [hsnap]
    exact ⟨hdelimited, fun _ hlength => by simp [snapshot] at hlength, henclosed, h.content⟩
  · rw [hsnap]
    refine ⟨hdelimited, fun _ hlength => by simp [snapshot] at hlength, ?_, ?_⟩
    · change (enclosed (baseOf s.inBody) s.tokens).bind _ = _
      rw [henclosed, Option.bind_some]
      simp [enclose, enclosures_literal, snapshot]
    · refine List.forall_mem_cons.mpr ⟨fun _ => textOf_ne_empty hpos ?_, h.content⟩
      rintro hnil
      rw [hnil] at hle
      simp at hle
      omega

/-- A token that may stand where it does keeps tokens well bracketed. -/
lemma Bracketed.push {r r' : Snapshot} {t : Token} (h : Bracketed r)
    (htokens : r'.tokens = t :: r.tokens) (hbody : r'.inBody = r.inBody)
    (hdelimited : Delimited r.inBody r'.modes)
    (hended : r.inBody = true → r'.modes.length ≤ 1 → r'.cursor.rest = [])
    (henclose : enclose (enclosures r.inBody r.modes) t.kind = some (enclosures r.inBody r'.modes))
    (hcontent : t.kind = .stringContent → t.text ≠ "") : Bracketed r' where
  delimited := hbody ▸ hdelimited
  ended := hbody ▸ hended
  balanced := by rw [htokens, hbody, enclosed, h.balanced, Option.bind_some, henclose]
  content := by
    rw [htokens]
    exact List.forall_mem_cons.mpr ⟨hcontent, h.content⟩

/-- Under a literal that has a delimiter stands a mode that goes on. -/
lemma Bracketed.goes_on (h : Bracketed s.snapshot) {l : OpenLiteral} {outer : List Mode}
    (hmodes : s.modes = .literal l :: outer) (halt : Alternates s.modes)
    (hl : l.close.isSome = true ∨ l.singleLine = true) : s.inBody = true → ¬ outer.length ≤ 1 := by
  intro hbody hlength
  have hdelimited := h.delimited l outer (by rw [snapshot_modes, hmodes])
  obtain ⟨d, outer', rfl⟩ := (hmodes ▸ halt).of_literal
  rw [List.length_cons] at hlength
  rw [if_pos ⟨hbody, by rw [List.length_cons]; omega⟩] at hdelimited
  simp [hdelimited] at hl

lemma isPlain_ne_content {kind : TokenKind} (h : kind.isPlain = true) : kind ≠ .stringContent := by
  rintro rfl
  simp [TokenKind.isPlain] at h

/-- A move forward keeps tokens well bracketed. -/
theorem Bracketed.forward (h : Bracketed s.snapshot) (halt : Alternates s.modes)
    (hnested : ∀ o t, s.InCode → s.heredocOpener? = some o → nested (s.bodyScanner o) = some t →
      Bracketed t.snapshot ∧ t.modes.length = 1 ∧ t.inBody = true)
    (hmove : Forward nested s s') : Bracketed s'.snapshot := by
  have hended : s.InCode → s.inBody = true → ¬ s.modes.length ≤ 1 :=
    fun hcode hbody hlength => hmove.ahead hcode (h.ended hbody hlength)
  have hhead : s.InCode → (enclosures s.inBody s.modes).head? ≠ some .literal :=
    fun hcode => h.head_of_code halt hcode (hmove.ahead hcode)
  have hdelimited : Delimited s.inBody s.modes := h.delimited
  cases hmove with
  | blank n code piece core_eq | document n code top word ended core_eq
  | stray cause n code pos ahead core_eq =>
    rw [snapshot_eq_of_core core_eq]
    exact { h with ended := fun hbody hlength => absurd hlength (hended code hbody) }
  | token ms kind n spaced code layers plain pos ahead core_eq =>
    rw [snapshot_eq_of_core core_eq]
    refine h.push rfl rfl (layers.delimited hdelimited) ?_ ?_ fun hkind =>
      absurd hkind (isPlain_ne_content plain)
    · intro hbody hlength
      exact absurd (layers.length_eq ▸ hlength) (hended code hbody)
    · change enclose (enclosures s.inBody s.modes) kind = some (enclosures s.inBody ms)
      rw [layers.enclosures_eq]
      exact enclose_of_isPlain plain (hhead code)
  | faulty cause k kind n spaced code plain pos ahead core_eq =>
    rw [snapshot_eq_of_core core_eq]
    exact h.push rfl rfl hdelimited (fun hbody hlength => absurd hlength (hended code hbody))
      (enclose_of_isPlain plain (hhead code)) fun hkind => absurd hkind (isPlain_ne_content plain)
  | jump t resume rest code lineBreak read pending core_eq =>
    rw [snapshot_eq_of_core core_eq]
    rcases read with rfl | rfl
    · exact h.push rfl rfl hdelimited (fun hbody hlength => absurd hlength (hended code hbody))
        (enclose_of_isPlain rfl (hhead code)) fun hkind => by simp at hkind
    · exact { h with ended := fun hbody hlength => absurd hlength (hended code hbody) }
  | heredoc o spaced body code opener read core_eq =>
    obtain ⟨hbody, hlength, hinBody⟩ := hnested o body code opener read
    rw [snapshot_eq_of_core core_eq]
    refine ⟨hdelimited, fun hbody hlength => absurd hlength (hended code hbody), ?_, ?_⟩
    · have hopened : enclosed (baseOf s.inBody) (s.emit .stringBegin o.length spaced).tokens =
          some ([.literal] ++ enclosures s.inBody s.modes) := by
        change (enclosed (baseOf s.inBody) s.tokens).bind _ = _
        rw [h.enclosed_tokens, Option.bind_some]
        exact enclose_beginKind .string (hhead code)
      have hread : enclosed [.literal] body.tokens = some [.literal] := by
        have hclosed := hbody.balanced_of_closed hlength
        rwa [hinBody] at hclosed
      change (enclosed (baseOf s.inBody) (body.tokens ++ _)).bind _ = _
      rw [enclosed_append (hhead code) hread hopened]
      rfl
    · refine List.forall_mem_cons.mpr ⟨fun hkind => by simp [Token.empty] at hkind, ?_⟩
      refine List.forall_mem_append.mpr ⟨hbody.content, ?_⟩
      exact List.forall_mem_cons.mpr ⟨fun hkind => by simp at hkind, h.content⟩
  | begin o spaced code pos ahead core_eq =>
    rw [snapshot_eq_of_core core_eq, snapshot_beginLiteral]
    have hne : s.modes ≠ [] := by
      obtain ⟨d, outer, hmodes⟩ := code
      simp [hmodes]
    have hpos := List.length_pos_of_ne_nil hne
    have hgoes := hended code
    refine h.push rfl rfl (hdelimited.literal ?_) ?_ ?_ ?_
    · rw [if_neg]
      · rfl
      · rintro ⟨hbody, hlength⟩
        exact hgoes hbody hlength.le
    · intro _ hlength
      simp only [List.length_cons] at hlength
      omega
    · change enclose (enclosures s.inBody s.modes) o.flavor.beginKind =
        some (enclosures s.inBody (.literal (s.openedLiteral o) :: s.modes))
      rw [enclose_beginKind _ (hhead code), enclosures_cons]
      · rfl
      · cases hbody : s.inBody with
        | false =>
          rw [eq_self, true_and]
          omega
        | true => exact .inl (Nat.lt_of_not_le (hgoes hbody))
    · exact fun hkind => absurd hkind (beginKind_ne_content o.flavor)
  | endInterpolation spaced mode outer rest modes brace core_eq =>
    rw [snapshot_eq_of_core core_eq]
    have halt' : Alternates (.code 0 :: mode :: outer) := modes ▸ halt
    cases halt' with
    | code _ l _ halt' =>
      obtain ⟨d', outer', rfl⟩ := halt'.of_literal
      refine h.push rfl rfl (hdelimited.of_suffix (modes ▸ List.suffix_cons _ _)) ?_ ?_ ?_
      · intro _ hlength
        simp [snapshot, emit, emitFlagged] at hlength
      · change enclose (enclosures s.inBody s.modes) .interpolationEnd = _
        rw [modes, enclosures_cons _ (.inl (by simp))]
        rfl
      · exact fun hkind => by simp at hkind
  | beginInterpolation l outer modes stop core_eq =>
    rw [snapshot_eq_of_core core_eq]
    obtain ⟨d, outer', rfl⟩ := (modes ▸ halt).of_literal
    refine h.push rfl rfl (hdelimited.code 0) ?_ ?_ fun hkind => by simp at hkind
    · intro _ hlength
      simp [snapshot, beginInterpolation, emit, emitFlagged, modes] at hlength
    · change enclose (enclosures s.inBody s.modes) .interpolationBegin =
        some (enclosures s.inBody (.code 0 :: s.modes))
      rw [modes, enclosures_cons (.code 0) (.inl (by simp)), enclose,
        if_pos (enclosures_literal l _ _)]
      rfl
  | abandon l outer modes stop core_eq =>
    rw [snapshot_eq_of_core core_eq, snapshot_abandonLiteral]
    have hl : l.close.isSome = true ∨ l.singleLine = true := by
      generalize s.cursor.rest = rest at stop
      cases stop with
      | lineBreak rest single => exact .inr single
    refine h.push rfl rfl (hdelimited.of_suffix (modes ▸ List.suffix_cons _ _)) ?_ ?_ ?_
    · exact fun hbody hlength => absurd hlength (h.goes_on modes halt hl hbody)
    · change enclose (enclosures s.inBody s.modes) .stringEnd = some (enclosures s.inBody outer)
      rw [h.enclosures_of_literal halt modes hl]
      rfl
    · exact fun hkind => by simp [Token.empty] at hkind
  | close l outer modes stop core_eq =>
    rw [snapshot_eq_of_core core_eq, snapshot_closeLiteral]
    have hl : l.close.isSome = true ∨ l.singleLine = true := by
      generalize s.cursor.rest = rest at stop
      cases stop with
      | delimiter c rest close outermost => exact .inl (by simp [close])
    refine h.push rfl rfl (hdelimited.of_suffix (modes ▸ List.suffix_cons _ _)) ?_ ?_ ?_
    · exact fun hbody hlength => absurd hlength (h.goes_on modes halt hl hbody)
    · change enclose (enclosures s.inBody s.modes) .stringEnd = some (enclosures s.inBody outer)
      rw [h.enclosures_of_literal halt modes hl]
      rfl
    · exact fun hkind => by simp at hkind
  | endBody l outer modes open_ stop core_eq =>
    rw [snapshot_eq_of_core core_eq]
    exact ⟨hdelimited.of_suffix (modes ▸ List.suffix_cons _ _), fun _ _ => stop,
      h.enclosed_of_close_eq_none modes open_, h.content⟩

/-- Closing the innermost mode at the end of the text keeps tokens well bracketed. -/
lemma Bracketed.dropMode {m m' : Mode} {outer : List Mode} (h : Bracketed s.snapshot)
    (hmodes : s.modes = m :: m' :: outer) (hrest : s.cursor.rest = []) (halt : Alternates s.modes) :
    Bracketed (s.dropMode m (m' :: outer)).snapshot := by
  have hdelimited : Delimited s.inBody (m' :: outer) := h.delimited.of_suffix (by
    rw [snapshot_modes, hmodes]
    exact List.suffix_cons _ _)
  cases m with
  | code d =>
    rw [snapshot_dropMode_code]
    have halt' : Alternates (.code d :: m' :: outer) := hmodes ▸ halt
    refine h.push rfl rfl hdelimited (fun _ _ => hrest) ?_
      fun hkind => by simp [Token.empty] at hkind
    cases halt' with
    | code _ l _ halt' =>
      obtain ⟨d', outer', rfl⟩ := halt'.of_literal
      change enclose (enclosures s.inBody s.modes) .interpolationEnd = _
      rw [hmodes, enclosures_cons _ (.inl (by simp))]
      rfl
  | literal l =>
    cases hclose : l.close with
    | none =>
      rw [snapshot_dropMode_body hclose]
      exact ⟨hdelimited, fun _ _ => hrest, h.enclosed_of_close_eq_none hmodes hclose, h.content⟩
    | some c =>
      rw [snapshot_dropMode_literal (by simp [hclose])]
      refine h.push rfl rfl hdelimited (fun _ _ => hrest) ?_
        fun hkind => by simp [Token.empty] at hkind
      change enclose (enclosures s.inBody s.modes) .stringEnd =
        some (enclosures s.inBody (m' :: outer))
      rw [h.enclosures_of_literal halt hmodes (.inl (by simp [hclose]))]
      rfl

theorem bracketed_kept : Kept Bracketed where
  content halt h hmove := h.emitContent halt hmove
  body _ _ _ := bracketed_bodyScanner _
  forward halt h hnested hmove := h.forward halt hnested hmove
  close hmodes hrest halt h := h.dropMode hmodes hrest halt

/-- The tokens of a text are well bracketed when reading has come to its end, and nothing is left
open. -/
theorem bracketed_of_run {source : List Char} {fuel : ℕ} (h : run fuel (ofText source) = some t) :
    enclosed [] t.tokens = some [] ∧ ∀ u ∈ t.tokens, u.kind = .stringContent → u.text ≠ "" := by
  obtain ⟨hsafe, hbody, hlength, -⟩ :=
    bracketed_kept.run_safe fuel _ _ h (.outer (sound_ofText (bracketed_ofText source)))
  have hclosed := hsafe.holds.balanced_of_closed hlength
  rw [hbody] at hclosed
  exact ⟨hclosed, hsafe.holds.content⟩

end Scanner

end RubyCheck
