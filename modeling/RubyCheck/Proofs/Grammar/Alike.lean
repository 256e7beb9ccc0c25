import RubyCheck.Grammar.Program
import RubyCheck.Proofs.Likeness.Tape

/-!
# Reading texts that are alike

Two readings are alike if from states that are alike they come to results that are, or fail with faults
that are.  There is one rule for each step from which productions are put together.  Whether the first
token is set off may differ, and it cannot be seen behind it; so what looks at whether tokens are set off
is alike only where the tapes have settled.  And a token whose text is taken must be no line break,
because nothing is known of the texts of line breaks; so what takes such a token is alike only where a
token stands that neither breaks lines nor ends the text.
-/

namespace RubyCheck

variable {L : Likeness}

/-! ### Parts of texts -/

/-- What is left behind some bytes of a text is part of it. -/
lemma Source.dropBytes?_subset {cs ds : List Char} {n : ℕ} (h : Source.dropBytes? cs n = some ds) :
    ds ⊆ cs := by
  fun_induction Source.dropBytes? cs n with
  | case1 cs =>
    obtain rfl := Option.some.inj h
    exact List.Subset.refl _
  | case2 => cases h
  | case3 c cs n _ ih => exact List.Subset.trans (ih h) (List.subset_cons_self _ _)
  | case4 => cases h

/-- A slice of a text is part of it. -/
lemma Source.slice?_subset {cs ds : List Char} {start stop : ℕ}
    (h : Source.slice? cs start stop = some ds) : ds ⊆ cs := by
  unfold Source.slice? at h
  split at h
  · obtain ⟨rest, hrest, h⟩ := Option.bind_eq_some_iff.mp h
    obtain ⟨count, -, h⟩ := Option.bind_eq_some_iff.mp h
    obtain rfl := Option.some.inj h
    exact List.Subset.trans (List.take_subset _ _) (Source.dropBytes?_subset hrest)
  · cases h

namespace Grammar

/-- What is left of a text without its quotes is part of it. -/
lemma unquoted_subset (name : List Char) : unquoted name ⊆ name := by
  unfold unquoted
  split
  · exact List.Subset.refl _
  · split
    · exact List.Subset.trans (List.dropLast_subset _) (List.subset_cons_self _ _)
    · exact List.Subset.refl _

end Grammar

namespace Likeness.Text

variable {s s' : String}

/-- The names of labels that are written alike are alike. -/
lemma labelName (h : L.Text s s') : L.Text (Grammar.labelName s) (Grammar.labelName s') := by
  refine ⟨by rw [h.eq], h.spelled.of_subset fun c hc => ?_⟩
  exact List.mem_reverse.mp (List.dropWhile_subset _ (List.mem_reverse.mp hc))

/-- The names of symbols that are written alike are alike. -/
lemma symbolName (h : L.Text s s') : L.Text (Grammar.symbolName s) (Grammar.symbolName s') := by
  refine ⟨by rw [h.eq], ?_⟩
  unfold Grammar.symbolName
  split
  · rename_i rest htext
    refine h.spelled.of_subset fun c hc => ?_
    rw [htext]
    refine List.mem_cons_of_mem _ (List.mem_cons_of_mem _ ?_)
    cases hslice : Source.slice? rest 1 (Source.byteLength rest - 1) with
    | none => simp [hslice] at hc
    | some ds =>
      rw [hslice] at hc
      exact Source.slice?_subset hslice hc
  · rename_i name htext
    refine h.spelled.of_subset fun c hc => ?_
    rw [htext]
    exact List.mem_cons_of_mem _ (Grammar.unquoted_subset _ hc)
  · exact h.spelled.of_subset (Grammar.unquoted_subset _)

end Likeness.Text

/-! ### Faults -/

namespace Fault.Like

/-- The limit that is passed is said alike wherever it is. -/
lemma nestingTooDeep {span span' : Span} (hspan : span.Like L span') (limit : ℕ) :
    Fault.Like L ⟨.nestingTooDeep limit, span⟩ ⟨.nestingTooDeep limit, span'⟩ :=
  ⟨rfl, L.place_of_start hspan.start,
    .of_oneLine (.append (.append (by decide) (oneLine_toString limit)) (by decide))⟩

/-- What cannot be assigned to is called alike wherever it stands. -/
lemma cannotAssign {span span' : Span} (hspan : span.Like L span') (k : NodeKind) :
    Fault.Like L ⟨.cannotAssign (Grammar.targetName k), span⟩
      ⟨.cannotAssign (Grammar.targetName k), span'⟩ := by
  refine ⟨rfl, L.place_of_start hspan.start, .of_oneLine (.append (by decide) ?_)⟩
  cases k with
  | _ => decide

end Fault.Like

namespace Token.Taken

variable {t t' : Token}

/-- Constructs whose openers were taken alike are said to be unclosed alike. -/
lemma unclosed (h : t.Taken L t') (closer : TokenKind) (atEnd : Bool) :
    (Grammar.unclosed t closer atEnd).Like L (Grammar.unclosed t' closer atEnd) := by
  have hcloser : L.Spells closer.display := .of_oneLine closer.oneLine_display
  refine ⟨?_, L.place_of_start h.span.start, ?_⟩
  · rw [Grammar.unclosed, Grammar.unclosed, h.text]
  · cases atEnd with
    | true =>
      exact .append (.append (.append (.append (.of_oneLine (by decide)) hcloser)
        (.of_oneLine (by decide))) h.spelled) (.of_oneLine (by decide))
    | false =>
      exact .append (.append (.append (.append (.of_oneLine (by decide)) h.spelled)
        (.of_oneLine (by decide))) hcloser) (.of_oneLine (by decide))

/-- A separator is missed alike behind keywords that were taken alike. -/
lemma missingSeparator (h : t.Taken L t') {u u' : Token} (hu : u.Like L u') :
    Fault.Like L ⟨.missingSeparator t.text, u.span⟩ ⟨.missingSeparator t'.text, u'.span⟩ := by
  refine ⟨by rw [h.text], L.place_of_start hu.span.start, ?_⟩
  exact .append (.append (.of_oneLine (by decide)) h.spelled) (.of_oneLine (by decide))

end Token.Taken

/-- Of nodes that are alike both are attributes or neither. -/
lemma Node.Like.isAttribute {node node' : Node} (h : node.Like L node') :
    Grammar.isAttribute node' = Grammar.isAttribute node := by
  have hchildren := h.children
  unfold Grammar.isAttribute
  generalize node.children = ns at hchildren ⊢
  generalize node'.children = ns' at hchildren ⊢
  cases hchildren with
  | nil => rfl
  | cons hreceiver hrest =>
    cases hrest with
    | nil => simp only [hreceiver.kind]
    | cons _ _ => rfl

namespace Grammar

variable (L)

/-! ### Likeness of states -/

/-- Why a production gives no result in both texts. -/
inductive Failure.Like : Failure → Failure → Prop
  | fault {f f' : Fault} (h : f.Like L f') : Like (.fault f) (.fault f')
  | exhausted : Like .exhausted .exhausted

/-- The same state in both texts: the tapes show the same, and the same faults were reported. -/
structure State.Like (settled : Bool) (s s' : State) : Prop where
  tape : s.tape.Like L settled s'.tape
  faults : List.Forall₂ (Fault.Like L) s.faults.toList s'.faults.toList
  limits : s'.limits = s.limits
  depth : s'.depth = s.depth
  doWithheld : s'.doWithheld = s.doWithheld
  scopes : s'.scopes = s.scopes

/-- The same outcome in both texts; `V` says what that means for a result.  Tapes that had settled still
have, and behind a result they may have settled meanwhile. -/
inductive SameOutcome {α : Type} (settled after : Bool) (V : α → α → Prop) :
    EStateM.Result Failure State α → EStateM.Result Failure State α → Prop
  | ok {a a' : α} {s s' : State} (ha : V a a') (h : s.Like L (settled || after) s') :
      SameOutcome settled after V (.ok a s) (.ok a' s')
  | error {e e' : Failure} {s s' : State} (he : e.Like L e') (h : s.Like L settled s') :
      SameOutcome settled after V (.error e s) (.error e' s')

/-- Two readings that come to the same if the tapes show the same: if `before` says so only where they
have settled, and if `solid` says so only where neither a line break nor the end of the text stands. -/
def Alike {α : Type} (solid before after : Bool) (V : α → α → Prop) (p p' : Parser α) : Prop :=
  ∀ settled, (before = true → settled = true) → ∀ s s' : State,
    (solid = true → s.tape.kind.isSolid = true) → s.Like L settled s' →
      SameOutcome L settled after V (p s) (p' s')

variable {L} {α β σ : Type} {solid b c d : Bool} {V : α → α → Prop} {W : β → β → Prop}
  {p p' q q' : Parser α} {f f' : α → Parser β}

namespace State.Like

variable {s s' : State}

/-- Where tapes have settled, that need not be said. -/
lemma weaken (h : s.Like L true s') : s.Like L b s' := { h with tape := h.tape.weaken }

/-- Where tapes have to have settled they have. -/
lemma of_imp (h : s.Like L c s') (hbc : b = true → c = true) : s.Like L b s' := by
  cases b with
  | true => exact hbc rfl ▸ h
  | false =>
    cases c with
    | true => exact h.weaken
    | false => exact h

/-- As many faults were reported, so both readings have given up or neither. -/
lemma gaveUp_eq (h : s.Like L b s') : s'.gaveUp = s.gaveUp := by
  have hsize : s'.faults.size = s.faults.size := h.faults.length_eq.symm
  unfold State.gaveUp
  rw [h.limits, hsize]

/-- What is found where something else was expected is the same, and so is its wording. -/
lemma unexpected (h : s.Like L b s') {expected : String} (hexpected : OneLine expected) :
    (s.unexpected expected).Like L (s'.unexpected expected) := by
  unfold State.unexpected
  rw [h.tape.atEnd_eq]
  split
  · exact ⟨rfl, h.tape.previous.span.stop, .of_oneLine (.append (by decide) hexpected)⟩
  · have hcurrent := h.tape.current
    refine ⟨?_, L.place_of_start hcurrent.span.start, ?_⟩
    · rw [hcurrent.describe]
    · exact .append (.append (.append (.of_oneLine (by decide)) hcurrent.spells_describe)
        (.of_oneLine (by decide))) (.of_oneLine hexpected)

/-- Spans from places that are alike up to the last tokens are alike. -/
lemma spanFrom (h : s.Like L b s') {start start' : Position} (hstart : L.start start start') :
    (s.spanFrom start).Like L (s'.spanFrom start') :=
  ⟨hstart, L.later h.tape.previous.span.stop hstart⟩

/-- Faults that are alike are reported to states that are. -/
lemma push (h : s.Like L b s') {f f' : Fault} (hf : f.Like L f') :
    State.Like L b { s with faults := s.faults.push f } { s' with faults := s'.faults.push f' } := by
  refine { h with faults := ?_ }
  rw [Array.toList_push, Array.toList_push]
  exact List.rel_append h.faults (.cons hf .nil)

/-- The last fault that may be reported ends both readings. -/
lemma report (h : s.Like L b s') {f f' : Fault} (hf : f.Like L f') :
    (s.report f).Like L b (s'.report f') := by
  unfold State.report
  rw [h.gaveUp_eq]
  split
  · exact h
  · have hpush := h.push hf
    simp only [hpush.gaveUp_eq]
    split
    · exact { hpush with tape := hpush.tape.toLast }
    · exact hpush

/-- The same name is declared in both. -/
lemma declare (h : s.Like L b s') (name : String) : (s.declare name).Like L b (s'.declare name) := by
  unfold State.declare
  rw [h.scopes]
  split
  · exact h
  · split
    · exact h
    · exact { h with scopes := rfl }

/-- The same names are variables in both. -/
lemma isLocal_eq (h : s.Like L b s') (name : String) : s'.isLocal name = s.isLocal name := by
  rw [State.isLocal, State.isLocal, h.scopes]

end State.Like

/-- A step that consumes nothing. -/
def Stays (p : Parser α) : Prop := ∀ s a t, p s = .ok a t → t.tape = s.tape

namespace Stays

/-- Giving a result moves nothing. -/
lemma pure (a : α) : Stays (Pure.pure a) := by
  intro s _ t h
  cases h
  rfl

/-- A failure moves nothing. -/
lemma fail (f : Fault) : Stays (Grammar.fail f : Parser α) := by
  intro s _ t h
  cases h

/-- A production that is one of two, neither of which moves anything. -/
lemma ite {x : Prop} [Decidable x] (hp : Stays p) (hq : Stays q) : Stays (if x then p else q) := by
  split
  · exact hp
  · exact hq

/-- Learning a name moves nothing. -/
lemma declare (name : String) (a : α) : Stays (do Grammar.declare name; return a) := by
  intro s _ t h
  cases h
  change (s.declare name).tape = s.tape
  unfold State.declare
  split
  · rfl
  · split
    · rfl
    · rfl

/-- What is assigned to may have been declared, and that is all that has changed. -/
lemma assignable (node : Node) : Stays (Grammar.assignable node) := by
  unfold Grammar.assignable
  split
  case h_1 | h_2 => exact pure _
  case h_9 => exact ite (declare _ _) (ite (pure _) (fail _))
  case h_10 => exact fail _
  all_goals exact pure _

end Stays

namespace Alike

/-- What changes nothing but what was seen. -/
lemma of_ok (h : ∀ settled, (b = true → settled = true) → ∀ s s', s.Like L settled s' →
    ∃ a a' t t', p s = .ok a t ∧ p' s' = .ok a' t' ∧ V a a' ∧ t.Like L settled t') :
    Alike L solid b b V p p' := by
  intro settled hb s s' _ hs
  obtain ⟨a, a', t, t', hp, hp', ha, ht⟩ := h settled hb s s' hs
  rw [hp, hp']
  exact .ok ha (ht.of_imp (by simpa [or_imp] using hb))

/-- Results that are alike are given alike. -/
lemma pure {a a' : α} (ha : V a a') : Alike L solid b b V (Pure.pure a) (Pure.pure a') :=
  of_ok fun _ _ s s' h => ⟨a, a', s, s', rfl, rfl, ha, h⟩

/-- Behind a result that need not be settled, less may be claimed. -/
lemma weaken (h : Alike L solid b true V p p') : Alike L solid b c V p p' := by
  intro settled hb s s' hsolid hs
  have hsame := h settled hb s s' hsolid hs
  generalize p s = r at hsame ⊢
  generalize p' s' = r' at hsame ⊢
  cases hsame with
  | ok ha hs => exact .ok ha (hs.of_imp (by simp))
  | error he hs => exact .error he hs

/-- What is alike anywhere is so where a solid token stands. -/
lemma anywhere (h : Alike L false b c V p p') : Alike L solid b c V p p' :=
  fun settled hb s s' _ hs => h settled hb s s' (fun h => absurd h Bool.false_ne_true) hs

/-- Two productions one behind the other. -/
lemma bind (hp : Alike L solid b c V p p')
    (hf : ∀ a a', V a a' → Alike L false c d W (f a) (f' a')) :
    Alike L solid b d W (p >>= f) (p' >>= f') := by
  intro settled hb s s' hsolid hs
  change SameOutcome L settled d W (EStateM.bind p f s) (EStateM.bind p' f' s')
  have hsame := hp settled hb s s' hsolid hs
  unfold EStateM.bind
  generalize p s = r at hsame ⊢
  generalize p' s' = r' at hsame ⊢
  cases hsame with
  | @ok a a' t t' ha hs =>
    have hsame := hf a a' ha (settled || c) (by simp +contextual) t t'
      (fun h => absurd h Bool.false_ne_true) hs
    change SameOutcome L settled d W (f a t) (f' a' t')
    generalize f a t = r at hsame ⊢
    generalize f' a' t' = r' at hsame ⊢
    cases hsame with
    | ok ha hs => exact .ok ha (hs.of_imp (by simp +contextual [or_imp]))
    | error he hs => exact .error he (hs.of_imp (by simp +contextual))
  | error he hs => exact .error he hs

/-- Behind what consumes nothing the same token stands. -/
lemma staying (hp : Alike L solid b b V p p') (hstays : Stays p)
    (hf : ∀ a a', V a a' → Alike L solid b d W (f a) (f' a')) :
    Alike L solid b d W (p >>= f) (p' >>= f') := by
  intro settled hb s s' hsolid hs
  change SameOutcome L settled d W (EStateM.bind p f s) (EStateM.bind p' f' s')
  have hsame := hp settled hb s s' hsolid hs
  have hstays := hstays s
  unfold EStateM.bind
  generalize p s = r at hsame hstays ⊢
  generalize p' s' = r' at hsame ⊢
  cases hsame with
  | @ok a a' t t' ha h =>
    have htape : t.tape = s.tape := hstays a t rfl
    exact hf a a' ha settled hb t t' (fun h => htape ▸ hsolid h) (h.of_imp (by simp +contextual))
  | error he h => exact .error he h

/-- Behind what gives nothing. -/
lemma behind {p p' : Parser Unit} {f f' : Unit → Parser β}
    (hp : Alike L solid b c (fun _ _ => True) p p') (hf : Alike L false c d W (f ()) (f' ())) :
    Alike L solid b d W (p >>= f) (p' >>= f') :=
  bind hp fun _ _ _ => hf

/-- A production that is one of two. -/
lemma ite {x : Prop} [Decidable x] (hp : Alike L solid b c V p p') (hq : Alike L solid b c V q q') :
    Alike L solid b c V (if x then p else q) (if x then p' else q') := by
  split
  · exact hp
  · exact hq

/-! ### What is seen -/

/-- What is seen of states that are alike. -/
lemma view {g g' : State → α} (hg : ∀ s s', s.Like L b s' → V (g s) (g' s')) :
    Alike L solid b b V (view g) (view g') :=
  of_ok fun _ hb s s' h => ⟨g s, g' s', s, s', rfl, rfl, hg s s' (h.of_imp hb), h⟩

/-- A look changes nothing, so what stood here still does. -/
lemma see {g g' : State → α} (hg : ∀ s s', s.Like L b s' → V (g s) (g' s'))
    (hf : ∀ a a', V a a' → Alike L solid b d W (f a) (f' a')) :
    Alike L solid b d W (Grammar.view g >>= f) (Grammar.view g' >>= f') :=
  fun settled hb s s' hsolid hs =>
    hf (g s) (g' s') (hg s s' (hs.of_imp hb)) settled hb s s' hsolid hs

/-- What looks the same in both texts. -/
lemma same {g g' : State → α} (hg : ∀ s s', s.Like L b s' → g' s' = g s)
    (hf : ∀ a, Alike L solid b d W (f a) (f' a)) :
    Alike L solid b d W (Grammar.view g >>= f) (Grammar.view g' >>= f') :=
  see (V := fun a a' => a' = a) hg fun a _ ha => ha ▸ hf a

/-- A look that may tell that a token stands here. -/
lemma ifSeen {g g' : State → Bool} {p p' q q' : Parser β}
    (hg : ∀ s s', s.Like L b s' → g' s' = g s)
    (hsolid : ∀ s, g s = true → s.tape.kind.isSolid = true)
    (hp : Alike L true b d W p p') (hq : Alike L solid b d W q q') :
    Alike L solid b d W (Grammar.view g >>= fun found => if found = true then p else q)
      (Grammar.view g' >>= fun found => if found = true then p' else q') := by
  intro settled hb s s' hs h
  have hsame : g' s' = g s := hg s s' (h.of_imp hb)
  change SameOutcome L settled d W ((if g s = true then p else q) s)
    ((if g' s' = true then p' else q') s')
  rw [hsame]
  split
  · rename_i hfound
    exact hp settled hb s s' (fun _ => hsolid s hfound) h
  · exact hq settled hb s s' hs h

/-- What kind of token stands here tells whether it is a solid one. -/
lemma kind {f f' : TokenKind → Parser β} (hf : ∀ k, Alike L k.isSolid b d W (f k) (f' k)) :
    Alike L solid b d W (Grammar.kind >>= f) (Grammar.kind >>= f') := by
  intro settled hb s s' _ h
  have hkind : s'.tape.kind = s.tape.kind := h.tape.kind_eq
  change SameOutcome L settled d W (f s.tape.kind s) (f' s'.tape.kind s')
  rw [hkind]
  exact hf s.tape.kind settled hb s s' (fun hsolid => hsolid) h

/-- Behind a mark that breaks no line the tapes are settled, and elsewhere nothing more is known. -/
lemma ifCheck {k : TokenKind} {p p' q q' : Parser β} (hk : k.isSolid = true)
    (hp : Alike L true b d W p p') (hq : Alike L solid b d W q q') :
    Alike L solid b d W (Grammar.check k >>= fun found => if found = true then p else q)
      (Grammar.check k >>= fun found => if found = true then p' else q') :=
  ifSeen (fun _ _ h => by rw [h.tape.kind_eq]) (fun _ hfound => beq_iff_eq.mp hfound ▸ hk) hp hq

/-- Both texts have ended or neither. -/
lemma ifAtEnd {p p' q q' : Parser β} (hp : Alike L solid b d W p p')
    (hq : Alike L solid b d W q q') :
    Alike L solid b d W (Grammar.atEnd >>= fun found => if found = true then p else q)
      (Grammar.atEnd >>= fun found => if found = true then p' else q') :=
  same (fun _ _ h => h.tape.atEnd_eq) fun _ => ite hp hq

/-- What begins at the current tokens begins at places that are alike. -/
lemma here {f f' : Position → Parser β}
    (hf : ∀ start start', L.start start start' → Alike L solid b d W (f start) (f' start')) :
    Alike L solid b d W (Grammar.here >>= f) (Grammar.here >>= f') :=
  see (fun _ _ h => h.tape.current.span.start) hf

/-- The current tokens are alike. -/
lemma current {f f' : Token → Parser β}
    (hf : ∀ t t', t.Like L t' → Alike L solid b d W (f t) (f' t')) :
    Alike L solid b d W (Grammar.current >>= f) (Grammar.current >>= f') :=
  see (fun _ _ h => h.tape.current) hf

/-- The tokens that were consumed last are alike. -/
lemma previous {f f' : Token → Parser β}
    (hf : ∀ t t', t.Like L t' → Alike L solid b d W (f t) (f' t')) :
    Alike L solid b d W (Grammar.view (·.tape.previous) >>= f)
      (Grammar.view (·.tape.previous) >>= f') :=
  see (fun _ _ h => h.tape.previous) hf

/-- Behind the first token the current one is the same. -/
lemma settledCurrent {f f' : Token → Parser β}
    (hf : ∀ t t', t.Same L t' → Alike L t.kind.isSolid true d W (f t) (f' t')) :
    Alike L solid true d W (Grammar.current >>= f) (Grammar.current >>= f') := by
  intro settled hsettled s s' _ h
  obtain rfl : settled = true := hsettled rfl
  exact hf _ _ h.tape.current_same true hsettled s s' (fun hsolid => hsolid) h

/-! ### Consuming tokens -/

/-- Going on along both tapes in the same way. -/
lemma move {f : Tape → Tape}
    (hf : ∀ settled t t', t.Like L settled t' → (f t).Like L settled (f t')) :
    Alike L solid b b (fun _ _ => True) (move f) (move f) :=
  of_ok fun _ _ _ _ h => ⟨(), (), _, _, rfl, rfl, trivial, { h with tape := hf _ _ _ h.tape }⟩

/-- Behind the current token the tapes have settled. -/
lemma drop : Alike L solid b true (fun _ _ => True) drop drop :=
  fun settled _ _ _ _ h =>
    .ok trivial { h with tape := (Bool.or_true settled).symm ▸ h.tape.advance }

/-- A token is consumed, and what follows may take its text. -/
lemma advance {f f' : Token → Parser β}
    (hf : ∀ t t', t.Taken L t' → Alike L false true d W (f t) (f' t')) :
    Alike L true b d W (Grammar.advance >>= f) (Grammar.advance >>= f') := by
  intro settled hb s s' hsolid h
  have htaken := h.tape.previous_advance (hsolid rfl)
  have hsame := hf _ _ htaken true (fun _ => rfl) { s with tape := s.tape.advance }
    { s' with tape := s'.tape.advance } (fun h => absurd h Bool.false_ne_true)
    { h with tape := h.tape.advance }
  change SameOutcome L settled d W (f s.tape.advance.previous { s with tape := s.tape.advance })
    (f' s'.tape.advance.previous { s' with tape := s'.tape.advance })
  generalize f _ _ = r at hsame ⊢
  generalize f' _ _ = r' at hsame ⊢
  cases hsame with
  | ok ha hs => exact .ok ha (hs.of_imp (by simp))
  | error he hs => exact .error he hs.weaken

/-- A mark is there in both texts or in neither. -/
lemma accept (k : TokenKind) :
    Alike L solid b b (fun found found' => found' = found) (accept k) (accept k) :=
  same (fun _ _ h => by rw [h.tape.kind_eq]) fun _ => ite (bind drop.weaken fun _ _ _ => pure rfl)
    (pure rfl)

/-- What follows depends on whether a token of a kind is consumed. -/
lemma ifAccept {k : TokenKind} {p p' q q' : Parser β} (hp : Alike L false b d W p p')
    (hq : Alike L false b d W q q') :
    Alike L solid b d W (Grammar.accept k >>= fun found => if found = true then p else q)
      (Grammar.accept k >>= fun found => if found = true then p' else q') :=
  bind (accept k) fun _ _ hfound => hfound ▸ ite hp hq

/-- Line breaks are passed over in both. -/
lemma skipBreaks : Alike L solid b b (fun _ _ => True) skipBreaks skipBreaks :=
  move fun _ _ _ h => h.passOver _

/-- Line breaks and semicolons are passed over in both. -/
lemma skipTerminators : Alike L solid b b (fun _ _ => True) skipTerminators skipTerminators :=
  move fun _ _ _ h => h.passOver _

/-! ### Faults -/

/-- Faults that are alike are reported. -/
lemma report {f f' : Fault} (hf : f.Like L f') :
    Alike L solid b b (fun _ _ => True) (report f) (report f') :=
  of_ok fun _ _ _ _ h => ⟨(), (), _, _, rfl, rfl, trivial, h.report hf⟩

/-- Names that are written alike are the same name. -/
lemma declare {name name' : String} (hname : L.Text name name') :
    Alike L solid b b (fun _ _ => True) (declare name) (declare name') :=
  of_ok fun _ _ _ _ h => ⟨(), (), _, _, rfl, rfl, trivial, hname.eq ▸ h.declare name⟩

/-- Both readings end for the same reason. -/
lemma throw {e e' : Failure} (he : e.Like L e') : Alike L solid b d V (throw e) (throw e') :=
  fun _ _ _ _ _ h => .error he h

/-- Faults that are alike are failed with. -/
lemma fail {f f' : Fault} (hf : f.Like L f') : Alike L solid b d V (fail f) (fail f') :=
  throw (.fault hf)

/-- The current tokens are refused in the same words. -/
lemma refuse {expected : String} (hexpected : OneLine expected) :
    Alike L solid b d V (refuse expected) (refuse expected) :=
  see (fun _ _ h => h.unexpected hexpected) fun _ _ hf => fail hf

/-- The current tokens are reported in the same words. -/
lemma reportUnexpected {expected : String} (hexpected : OneLine expected) :
    Alike L solid b b (fun _ _ => True) (reportUnexpected expected) (reportUnexpected expected) :=
  of_ok fun _ _ _ _ h => ⟨(), (), _, _, rfl, rfl, trivial, h.report (h.unexpected hexpected)⟩

/-- What follows a token that has to be of a kind. -/
lemma expect {k : TokenKind} (hk : k.isSolid = true) {f f' : Token → Parser β}
    (hf : ∀ t t', t.Taken L t' → Alike L false true d W (f t) (f' t')) :
    Alike L solid b d W (Grammar.expect k >>= f) (Grammar.expect k >>= f') := by
  have hexpect (f : Token → Parser β) : Grammar.expect k >>= f =
      Grammar.check k >>= fun found =>
        if found = true then Grammar.advance >>= f else Grammar.refuse k.display := by
    funext s
    change EStateM.bind (if (s.tape.kind == k) = true then _ else _) f s =
      (if (s.tape.kind == k) = true then _ else _ : Parser β) s
    split
    · rfl
    · rfl
  rw [hexpect, hexpect]
  exact ifCheck hk (advance hf) (refuse k.oneLine_display)

/-- A mark that is consumed for nothing is there in both texts or in neither. -/
lemma discardExpect {k : TokenKind} (hk : k.isSolid = true) :
    Alike L solid b true (fun _ _ => True) (discard (Grammar.expect k))
      (discard (Grammar.expect k)) :=
  expect hk fun _ _ _ => pure trivial

/-- Openers that were taken alike are closed or unclosed in both texts. -/
lemma expectCloser {opener opener' : Token} (h : opener.Taken L opener') {closer : TokenKind}
    (hcloser : closer.isSolid = true) :
    Alike L solid b true (fun _ _ => True) (expectCloser opener closer)
      (expectCloser opener' closer) :=
  ifAtEnd (behind (c := true) (fail (h.unclosed closer true)) (discardExpect hcloser))
    (discardExpect hcloser)

/-- What was read, or the fault it failed with, is the same. -/
lemma recover {f f' : Except Fault α → Parser β} (hp : Alike L solid b c V p p')
    (hok : ∀ a a', V a a' → Alike L false c d W (f (.ok a)) (f' (.ok a')))
    (herror : ∀ e e', e.Like L e' → Alike L false b d W (f (.error e)) (f' (.error e'))) :
    Alike L solid b d W (attempt p >>= f) (attempt p' >>= f') := by
  intro settled hb s s' hsolid h
  have hbind : Alike L solid b d W (p >>= fun a => f (.ok a)) (p' >>= fun a => f' (.ok a)) :=
    bind hp hok
  have hsame := hp settled hb s s' hsolid h
  have hbound := hbind settled hb s s' hsolid h
  change SameOutcome L settled d W (EStateM.bind (attempt p) f s)
    (EStateM.bind (attempt p') f' s')
  change SameOutcome L settled d W (EStateM.bind p (fun a => f (.ok a)) s)
    (EStateM.bind p' (fun a => f' (.ok a)) s') at hbound
  unfold EStateM.bind attempt at *
  generalize p s = r at hsame hbound ⊢
  generalize p' s' = r' at hsame hbound ⊢
  cases hsame with
  | ok ha h => exact hbound
  | error he h =>
    cases he with
    | fault he => exact herror _ _ he settled hb _ _ (fun h => absurd h Bool.false_ne_true) h
    | exhausted => exact .error .exhausted h

/-! ### Context -/

/-- What is put around both readings is taken back behind both. -/
lemma around {enter leave enter' leave' : State → State}
    (henter : ∀ x s s', s.Like L x s' → (enter s).Like L x (enter' s'))
    (hleave : ∀ x s s', s.Like L x s' → (leave s).Like L x (leave' s'))
    (htape : ∀ s, (enter s).tape = s.tape) (hp : Alike L solid b c V p p') :
    Alike L solid b c V (around enter leave p) (around enter' leave' p') := by
  intro settled hb s s' hsolid h
  have hsame := hp settled hb _ _ (fun h => htape s ▸ hsolid h) (henter _ s s' h)
  unfold Grammar.around
  generalize p (enter s) = r at hsame ⊢
  generalize p' (enter' s') = r' at hsame ⊢
  cases hsame with
  | ok ha h => exact .ok ha (hleave _ _ _ h)
  | error he h => exact .error he (hleave _ _ _ h)

/-- One level deeper the same token is too deep. -/
lemma nested (hp : Alike L solid b c V p p') : Alike L solid b c V (nested p) (nested p') := by
  intro settled hb s s' hsolid h
  unfold Grammar.nested
  rw [h.depth, h.limits]
  split
  · refine around ?_ ?_ ?_ hp settled hb s s' hsolid h
    · exact fun _ _ _ h => { h with depth := congrArg (· + 1) h.depth }
    · exact fun _ _ _ h => { h with depth := congrArg (· - 1) h.depth }
    · exact fun _ => rfl
  · exact .error (.fault (.nestingTooDeep h.tape.current.span _)) h

/-- Between brackets a `do` is free in both. -/
lemma allowingDo (hp : Alike L solid b c V p p') :
    Alike L solid b c V (allowingDo p) (allowingDo p') := by
  intro settled hb s s' hsolid h
  unfold Grammar.allowingDo
  refine around ?_ ?_ ?_ hp settled hb s s' hsolid h
  · exact fun _ _ _ h => { h with doWithheld := rfl }
  · exact fun _ _ _ hs => { hs with doWithheld := h.doWithheld }
  · exact fun _ => rfl

/-- A `do` is withheld in both. -/
lemma withholdingDo (hp : Alike L solid b c V p p') :
    Alike L solid b c V (withholdingDo p) (withholdingDo p') := by
  refine around ?_ ?_ ?_ hp
  · exact fun _ _ _ h => { h with doWithheld := congrArg (· + 1) h.doWithheld }
  · exact fun _ _ _ h => { h with doWithheld := congrArg (· - 1) h.doWithheld }
  · exact fun _ => rfl

/-- A scope stands around both. -/
lemma inScope (closed : Bool) (hp : Alike L solid b c V p p') :
    Alike L solid b c V (inScope closed p) (inScope closed p') := by
  refine around ?_ ?_ ?_ hp
  · exact fun _ _ _ h => { h with scopes := congrArg (⟨[], closed⟩ :: ·) h.scopes }
  · exact fun _ _ _ h => { h with scopes := congrArg List.tail h.scopes }
  · exact fun _ => rfl

/-! ### Nodes -/

section Nodes

variable {start start' : Position} {nodes nodes' seen seen' : List Node} {text text' : String}

/-- Nodes that begin at places which are alike and have children that are. -/
lemma finish {k : NodeKind} (hstart : L.start start start')
    (hnodes : List.Forall₂ (Node.Like L) nodes nodes') :
    Alike L solid b b (Node.Like L) (finish k start nodes) (finish k start' nodes') :=
  view fun _ _ h => .intro (h.spanFrom hstart) (by simp) hnodes

/-- Nodes with texts that are alike. -/
lemma finishNamed {k : NodeKind} (hstart : L.start start start') (htext : L.Text text text')
    (hnodes : List.Forall₂ (Node.Like L) nodes nodes') :
    Alike L solid b b (Node.Like L) (finishNamed k start text nodes)
      (finishNamed k start' text' nodes') :=
  see (fun _ _ h => Node.Like.intro (h.spanFrom hstart) (by simp) hnodes) fun _ _ hnode =>
    pure (hnode.withText htext)

/-- Leaves for the tokens that were consumed last. -/
lemma leaf {k : NodeKind} (htext : L.Text text text') :
    Alike L solid b b (Node.Like L) (leaf k text) (leaf k text') :=
  view fun _ _ h => .leaf h.tape.previous.span htext

/-- A token that breaks no line is consumed as a leaf. -/
lemma takeLeaf {k : NodeKind} : Alike L true b true (Node.Like L) (takeLeaf k) (takeLeaf k) :=
  advance fun _ _ ht => leaf ht.word

/-- A token is consumed as a leaf with a text of one line. -/
lemma takeAs {k : NodeKind} (htext : OneLine text) :
    Alike L solid b true (Node.Like L) (takeAs k text) (takeAs k text) :=
  behind drop (leaf (.of_oneLine htext))

/-- The result as a list. -/
lemma one {p p' : Parser Node} (h : Alike L solid b c (Node.Like L) p p') :
    Alike L solid b c (List.Forall₂ (Node.Like L)) (do return [← p]) (do return [← p']) :=
  bind h fun _ _ hnode => pure (.cons hnode .nil)

end Nodes

end Alike

/-! ### Repetition -/

/-- What one round comes to in both texts. -/
inductive Round.Like {σ α : Type} (V : σ → σ → Prop) (W : α → α → Prop) :
    Round σ α → Round σ α → Prop
  | again {s s' : σ} (h : V s s') : Like V W (.again s) (.again s')
  | done {a a' : α} (h : W a a') : Like V W (.done a) (.done a')

namespace Alike

/-- The nodes of a list so far in both texts, or the list when it is over. -/
abbrev Listed (L : Likeness) : Round (List Node) (List Node) → Round (List Node) (List Node) → Prop :=
  Round.Like (List.Forall₂ (Node.Like L)) (List.Forall₂ (Node.Like L))

/-- Repetitions each round of which is read alike. -/
lemma iterate {V : σ → σ → Prop} {W : α → α → Prop} {body body' : σ → Parser (Round σ α)}
    (h : ∀ s s', V s s' → Alike L false b b (Round.Like V W) (body s) (body' s')) (rounds : ℕ)
    {s s' : σ} (hs : V s s') :
    Alike L solid b b W (iterate body rounds s) (iterate body' rounds s') := by
  refine anywhere ?_
  induction rounds generalizing s s' with
  | zero => exact throw .exhausted
  | succ rounds ih =>
    refine bind (h s s' hs) fun round round' hround => ?_
    cases hround with
    | again hs => exact ih hs
    | done ha => exact pure ha

section Lists

variable {seen seen' : List Node} (hseen : List.Forall₂ (Node.Like L) seen seen')

include hseen

/-- A list is read with its newest item first. -/
lemma done : Alike L solid b b (Listed L) (Pure.pure (.done seen.reverse))
    (Pure.pure (.done seen'.reverse)) :=
  pure (.done (List.rel_reverse hseen))

/-- A list goes on in both texts. -/
lemma goOn : Alike L solid b b (Listed L) (Pure.pure (.again seen)) (Pure.pure (.again seen')) :=
  pure (.again hseen)

/-- Another round follows behind one more item. -/
lemma again {item item' : Parser Node} (h : Alike L solid b c (Node.Like L) item item') :
    Alike L solid b c (Listed L) (do return .again ((← item) :: seen))
      (do return .again ((← item') :: seen')) :=
  bind h fun _ _ hnode => goOn (.cons hnode hseen)

/-- A comma follows in both texts or in neither. -/
lemma unlessComma {behindComma behindComma' : Parser Unit}
    (h : Alike L false b b (fun _ _ => True) behindComma behindComma') :
    Alike L solid b b (Listed L) (unlessComma behindComma seen seen.reverse)
      (unlessComma behindComma' seen' seen'.reverse) :=
  ifAccept (behind h (goOn hseen)) (done hseen)

end Lists

/-- A list that is empty at first. -/
lemma listing {body body' : List Node → Parser (Round (List Node) (List Node))}
    (h : ∀ seen seen', List.Forall₂ (Node.Like L) seen seen' →
      Alike L false b b (Listed L) (body seen) (body' seen')) (rounds : ℕ) :
    Alike L solid b b (List.Forall₂ (Node.Like L)) (Grammar.iterate body rounds [])
      (Grammar.iterate body' rounds []) :=
  iterate h rounds .nil

/-- Lists with commas have as many items. -/
lemma separated {behindComma behindComma' : Parser Unit} {item item' : Parser Node}
    (h : Alike L false b b (fun _ _ => True) behindComma behindComma')
    (hitem : Alike L false b b (Node.Like L) item item') (rounds : ℕ) :
    Alike L solid b b (List.Forall₂ (Node.Like L)) (separated rounds behindComma item)
      (separated rounds behindComma' item') :=
  listing (fun _ _ hseen => bind hitem fun _ _ hnode => unlessComma (.cons hnode hseen) h) rounds

/-- Values are put into an array in both texts or in neither. -/
lemma arrayOf {start start' : Position} {nodes nodes' : List Node} (hstart : L.start start start')
    (hnodes : List.Forall₂ (Node.Like L) nodes nodes') :
    Alike L solid b b (Node.Like L) (arrayOf start nodes) (arrayOf start' nodes') := by
  cases hnodes with
  | nil => exact finish hstart .nil
  | cons hnode hrest =>
    cases hrest with
    | nil => exact pure hnode
    | cons hnext hrest => exact finish hstart (.cons hnode (.cons hnext hrest))

section Items

variable {opener opener' : Token} (ho : opener.Taken L opener') {closer : TokenKind}
  {seen seen' : List Node}

include ho

/-- Behind line breaks a list is closed in both texts, or unclosed in both. -/
lemma behindBreak (hseen : List.Forall₂ (Node.Like L) seen seen') :
    Alike L solid b b (Listed L) (behindBreak opener closer seen)
      (behindBreak opener' closer seen') := by
  refine same (fun _ _ h => (h.tape.passOver _).kind_eq) fun k => ite (goOn hseen) (ite ?_ (ite ?_ ?_))
  · exact behind skipBreaks (behind drop.weaken (goOn hseen))
  · exact fail (ho.unclosed closer true)
  · exact behind (report (ho.unclosed closer false)) (done hseen)

/-- Behind an item a list goes on in both texts or ends in both. -/
lemma behindItem (hseen : List.Forall₂ (Node.Like L) seen seen') :
    Alike L solid b b (Listed L) (behindItem opener closer seen)
      (behindItem opener' closer seen') := by
  refine kind fun k => ite (behind drop.weaken (goOn hseen)) (ite (goOn hseen) ?_)
  refine ite (behindBreak ho hseen) (ite (fail (ho.unclosed closer true)) (refuse ?_))
  exact .append (.append (by decide) closer.oneLine_display) (by decide)

/-- An item or the closer stands in both texts. -/
lemma itemOrCloser {item item' : Parser Node} (h : Alike L false b b (Node.Like L) item item')
    (hseen : List.Forall₂ (Node.Like L) seen seen') :
    Alike L solid b b (Listed L) (itemOrCloser opener closer item seen)
      (itemOrCloser opener' closer item' seen') :=
  behind skipBreaks (ifAccept (done hseen) (ifAtEnd (fail (ho.unclosed closer true))
    (bind h fun _ _ hnode => behindItem ho (.cons hnode hseen))))

/-- Lists between brackets have as many items. -/
lemma items {g : Grammar} {item item' : Parser Node}
    (h : Alike L false b b (Node.Like L) item item') :
    Alike L solid b b (List.Forall₂ (Node.Like L)) (items g opener closer item)
      (items g opener' closer item') :=
  listing (fun _ _ hseen => itemOrCloser ho h hseen) g.rounds

end Items

/-! ### Names and separators -/

/-- Nodes that are alike can be assigned to or cannot, and declare the same name. -/
lemma assignable {node node' : Node} (h : node.Like L node') :
    Alike L solid b b (Node.Like L) (assignable node) (assignable node') := by
  have hattribute : isAttribute node' = isAttribute node := h.isAttribute
  have hempty : node'.children.isEmpty = node.children.isEmpty := h.children.isEmpty
  have htarget {solid : Bool} : Alike L solid b b (Node.Like L)
      (Pure.pure { node with kind := .localTarget })
      (Pure.pure { node' with kind := .localTarget }) := pure h.withKind
  unfold Grammar.assignable
  rw [h.kind, h.name, hattribute, hempty]
  have hfail (k : NodeKind) : Alike L solid b b (Node.Like L)
      (Grammar.fail ⟨.cannotAssign (targetName k), node.span⟩)
      (Grammar.fail ⟨.cannotAssign (targetName k), node'.span⟩) :=
    fail (.cannotAssign h.span k)
  split
  case h_1 | h_2 => exact htarget
  case h_9 => exact ite (behind (declare ⟨rfl, h.spells_name⟩) htarget) (ite (pure h) (hfail _))
  case h_10 => exact hfail _
  all_goals exact pure h

/-- A separator stands in both texts, or is missed in both. -/
lemma separator {keyword keyword' : Token} (h : keyword.Taken L keyword') (doMayStand : Bool) :
    Alike L solid b b (fun _ _ => True) (separator keyword doMayStand)
      (separator keyword' doMayStand) := by
  refine kind fun _ => ?_
  split
  · exact drop.weaken
  · exact behind skipTerminators (bind (accept _) fun _ _ _ => pure trivial)
  · exact behind skipTerminators (bind (accept _) fun _ _ _ => pure trivial)
  · exact pure trivial
  · exact ite drop.weaken (current fun _ _ ht => report (h.missingSeparator ht))

/-- Openers that were taken alike have an `end` in both texts or in neither. -/
lemma expectEnd {opener opener' : Token} (h : opener.Taken L opener') :
    Alike L solid b true (fun _ _ => True) (expectEnd opener) (expectEnd opener') :=
  expectCloser h rfl

/-- A variable of a block. -/
lemma blockLocal : Alike L solid b true (Node.Like L) blockLocal blockLocal :=
  expect rfl fun _ _ ht => behind (declare ht.word) (leaf ht.word)

/-- The bar that closes parameters stands in both texts, or is missed in both. -/
lemma closingBar {opener opener' : Token} (h : opener.Taken L opener') :
    Alike L solid b b (fun _ _ => True) (closingBar opener) (closingBar opener') :=
  same (fun _ _ h => by rw [h.tape.kind_eq]) fun _ =>
    ite (report (h.unclosed _ false)) (discardExpect rfl).weaken

/-- A percent literal is a string in both texts or a list in both. -/
lemma percentLiteral : Alike L true b true (Node.Like L) percentLiteral percentLiteral := by
  refine advance fun t t' ht => ?_
  rw [ht.text]
  exact leaf ⟨rfl, ht.spelled⟩

/-- Symbols of names that are alike. -/
lemma symbol : Alike L true b true (Node.Like L) symbol symbol :=
  advance fun _ _ ht => leaf ht.word.symbolName

/-- A method has an owner in both texts or in neither. -/
lemma owner : Alike L solid b b L.Text owner owner := by
  refine ifSeen (fun _ _ h => ?_) (fun _ hnames => ?_) ?_ (pure (.of_oneLine (by decide)))
  · rw [namesOwner, namesOwner, h.tape.current.kind, h.tape.next.kind]
  · exact TokenKind.isSolid_of_isFlat (isFlat_of_namesOwner hnames)
  · refine weaken (advance fun _ _ ht => behind drop (pure ?_))
    exact ht.word.append (.of_oneLine (by decide))

/-- The names of methods are alike. -/
lemma methodName : Alike L solid b true L.Text methodName methodName := by
  refine bind owner fun _ _ howner => kind fun k => ?_
  by_cases hk : namesMethod k = true
  · rw [if_pos hk, if_pos hk, TokenKind.isSolid_of_isFlat (isFlat_of_namesMethod hk)]
    exact advance fun _ _ ht => pure (howner.append ht.word)
  · rw [if_neg hk, if_neg hk]
    exact refuse (by decide)

/-- A method that is named is the same kind of token in both. -/
lemma methodReference : Alike L solid b true (Node.Like L) methodReference methodReference := by
  refine kind fun k => ?_
  by_cases hglobal : (k == .globalVariable) = true
  · obtain rfl := beq_iff_eq.mp hglobal
    exact takeLeaf
  rw [if_neg hglobal]
  by_cases hsymbol : (k == .symbol) = true
  · obtain rfl := beq_iff_eq.mp hsymbol
    exact symbol
  rw [if_neg hsymbol]
  by_cases hnames : namesMethod k = true
  · rw [if_pos hnames, TokenKind.isSolid_of_isFlat (isFlat_of_namesMethod hnames)]
    exact takeLeaf
  · rw [if_neg hnames]
    exact refuse (by decide)

/-- Two names behind a keyword. -/
lemma alias_ : Alike L solid b true (Node.Like L) alias_ alias_ :=
  here fun _ _ hstart => behind drop (bind methodReference fun _ _ hnew =>
    bind methodReference fun _ _ hold => finish hstart (.cons hnew (.cons hold .nil)))

/-- A constant behind two colons. -/
lemma outermostConstant :
    Alike L solid b true (Node.Like L) outermostConstant outermostConstant :=
  here fun _ _ hstart => behind drop (expect rfl fun _ _ ht => finishNamed hstart ht.word .nil)

/-- The name behind a dot: behind a dot the tapes have settled. -/
lemma calledName : Alike L solid true true L.Text calledName calledName := by
  refine kind fun k => ite (pure (.of_oneLine (by decide))) ?_
  by_cases hnames : namesMethod k = true
  · rw [if_pos hnames, TokenKind.isSolid_of_isFlat (isFlat_of_namesMethod hnames)]
    exact advance fun _ _ ht => pure ht.word
  · rw [if_neg hnames]
    exact refuse (by decide)

/-- Operations by the same operator. -/
lemma joined {start start' : Position} {left left' right right' : Node} (operator : Punct)
    (hstart : L.start start start') (hleft : left.Like L left') (hright : right.Like L right') :
    Alike L solid b b (Node.Like L) (joined start operator left right)
      (joined start' operator left' right') := by
  unfold Grammar.joined
  split
  · exact finish hstart (.cons hleft (.cons hright .nil))
  · exact finish hstart (.cons hleft (.cons hright .nil))
  · exact finishNamed hstart (.of_oneLine (Punct.oneLine_text _)) (.cons hleft (.cons hright .nil))

/-- What is given up from tokens that are alike ends at tokens that are. -/
lemma giveUp {first first' : Token} (h : first.Like L first') :
    Alike L solid b b (Node.Like L) (giveUp first) (giveUp first') := by
  refine behind (move fun _ _ _ h => h.synchronize) (view fun s s' hs => ?_)
  unfold State.errorNode
  rw [h.isEof]
  refine .intro ?_ (by simp) .nil
  split
  · exact Span.like_point h.span.start
  · exact hs.spanFrom h.span.start

/-- What follows a statement may stand there in both texts, or is given up in both. -/
lemma behindStatement (stops : List TokenKind) {seen seen' : List Node}
    (hseen : List.Forall₂ (Node.Like L) seen seen') :
    Alike L solid b b (Listed L) (behindStatement stops seen) (behindStatement stops seen') := by
  refine kind fun _ => ite (goOn hseen) (behind (reportUnexpected (by decide)) ?_)
  exact current fun _ _ ht => again hseen (giveUp ht)

end Alike

end Grammar

end RubyCheck
