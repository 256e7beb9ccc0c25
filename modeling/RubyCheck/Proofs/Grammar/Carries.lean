import RubyCheck.Proofs.Grammar.Limits
import RubyCheck.Proofs.Token.Splice

/-!
# Reading in front of other tokens

The tokens of one text are read inside another text, where other tokens stand behind them, more
constructs are open around, and more faults were reported (`State.inside`).  `Carries` compares two
productions that differ only in how far they may go: whenever the first one gives a result without
any fault and without coming to its last token, the second one gives the same inside any other text
that the state fits (`Hosts`).

To keep looking ahead inside the text, it has to be known that what a production opened it also
closed.  So `Carries` also says how many brackets are open before and behind the production, and
behind what kind of token it stands (`Stage`).
-/

namespace RubyCheck

/-- What a token of a kind makes of a number of brackets that are open. -/
def TokenKind.Turns (k : TokenKind) (n n' : ℕ) : Prop := ∀ d, k.turn (d + n) = d + n'

/-- A token that is no bracket leaves as many brackets open. -/
lemma TokenKind.turns_of_isFlat {k : TokenKind} (h : k.isFlat = true) (n : ℕ) : k.Turns n n := by
  intro d
  unfold turn
  split
  all_goals first | rfl | simp [isFlat] at h

namespace Grammar

variable {α β σ : Type} {s s' s'' outer : State}

/-! ### States inside others -/

/-- A state inside another one: its tokens stand in front of those of the other one, and what is
around the other one is around it as well. -/
def State.inside (s outer : State) : State where
  tape := s.tape.before outer.tape
  faults := outer.faults
  limits := outer.limits
  depth := s.depth + outer.depth
  doWithheld := s.doWithheld
  scopes := s.scopes ++ outer.scopes

/-- A state that reads the same inside another one: looking ahead ends among its tokens, as much may
be nested as without the other one, and no variables around are seen. -/
structure Hosts (outer s : State) : Prop where
  ends : s.tape.Ends
  endsInBreak : s.tape.EndsInBreak
  closes : s.tape.Closes
  depth : s.limits.maxDepth + outer.depth ≤ outer.limits.maxDepth
  closed : true ∈ s.scopes.map (·.closed)

namespace Hosts

/-- Some scope is around. -/
lemma scopes_ne_nil (h : Hosts outer s) : s.scopes ≠ [] := by
  intro hscopes
  have hclosed := h.closed
  simp [hscopes] at hclosed

/-- Whatever a production does, the state goes on to read the same inside another one. -/
lemma passes (h : Hosts outer s) (hpasses : Passes s s') : Hosts outer s' where
  ends := hpasses.ends h.ends
  endsInBreak := hpasses.onward Tape.onward_endsInBreak h.endsInBreak
  closes := hpasses.onward Tape.onward_closes h.closes
  depth := by
    rw [hpasses.limits]
    exact h.depth
  closed := by
    rw [hpasses.closed]
    exact h.closed

end Hosts

namespace State

/-- Behind a closed scope no variables are seen. -/
lemma visibleIn_append {scopes : List LocalScope} (h : true ∈ scopes.map (·.closed))
    (outer : List LocalScope) (name : String) :
    visibleIn name (scopes ++ outer) = visibleIn name scopes := by
  induction scopes with
  | nil => simp at h
  | cons scope scopes ih =>
    rw [List.cons_append, visibleIn, visibleIn]
    cases hclosed : scope.closed with
    | true => rfl
    | false =>
      rw [List.map_cons, hclosed] at h
      rw [ih (by simpa using h)]

/-- No more names are local variables inside another state. -/
lemma isLocal_inside (h : Hosts outer s) (name : String) :
    (s.inside outer).isLocal name = s.isLocal name :=
  visibleIn_append h.closed outer.scopes name

/-- A name is declared in the innermost scope, inside another state too. -/
lemma declare_inside (h : s.scopes ≠ []) (name : String) :
    (s.inside outer).declare name = (s.declare name).inside outer := by
  obtain ⟨tape, faults, limits, depth, doWithheld, scopes⟩ := s
  obtain ⟨scope, scopes, rfl⟩ := List.exists_cons_of_ne_nil h
  simp only [inside, declare, List.cons_append]
  split
  · rfl
  · rfl

/-- Moving on inside another state. -/
lemma move_inside {tape : Tape} (f : Tape → Tape)
    (h : f (s.tape.before outer.tape) = tape.before outer.tape) :
    { s.inside outer with tape := f (s.inside outer).tape } =
      ({ s with tape := tape } : State).inside outer :=
  congrArg (fun tape => { s.inside outer with tape := tape }) h

end State

namespace Passes

/-- What is without faults behind a production was so before. -/
lemma clean (h : Passes s s') (hclean : s'.faults = #[]) : s.faults = #[] := by
  have hgrow := h.faults_grow
  rw [hclean] at hgrow
  exact Array.toList_inj.mp (List.prefix_nil.mp hgrow)

/-- Before a token that is not the last one no other one was. -/
lemma ahead (h : Passes s s') (hahead : s'.tape.ahead ≠ []) : s.tape.ahead ≠ [] := by
  intro hnone
  have hlast : Tape.Onward (·.ahead = []) := by
    intro consumed t u us hcons
    simp at hcons
  exact hahead (h.onward hlast hnone)

end Passes

/-! ### Where productions stand -/

/-- What is known of the token behind which reading stands. -/
inductive Footing where
  | anywhere
  /-- Some token was consumed. -/
  | begun
  /-- The token that was consumed last breaks no line. -/
  | solid
deriving DecidableEq

namespace Footing

/-- Where a tape with a footing stands. -/
def Holds : Footing → Tape → Prop
  | anywhere, _ => True
  | begun, tape => tape.consumed.isSome = true
  | solid, tape => ∃ t ∈ tape.consumed, t.kind ≠ .newline

/-- Where one footing holds, so does another one that says less. -/
class Below (c c' : Footing) : Prop where
  holds {tape : Tape} (h : c'.Holds tape) : c.Holds tape

variable {c c' : Footing} {tape : Tape}

/-- What is known is as much as itself. -/
instance (c : Footing) : c.Below c := ⟨id⟩

/-- To stand anywhere is to know nothing. -/
instance (c : Footing) : anywhere.Below c := ⟨fun _ => trivial⟩

/-- Behind a token that breaks no line, everything weaker is known. -/
instance (c : Footing) : c.Below solid where
  holds {tape} h := by
    obtain ⟨t, ht, hkind⟩ := h
    cases c with
    | anywhere => trivial
    | begun => exact Option.isSome_iff_exists.mpr ⟨t, ht⟩
    | solid => exact ⟨t, ht, hkind⟩

/-- What is known behind line breaks. -/
abbrev slack : Footing → Footing
  | anywhere => anywhere
  | begun | solid => begun

/-- Where reading has begun there is a token that was consumed. -/
lemma Holds.isSome [begun.Below c] (h : c.Holds tape) : tape.consumed.isSome = true :=
  Below.holds (c := begun) h

end Footing

/-- A tape at a token of a kind. -/
def AtKind (k : TokenKind) (tape : Tape) : Prop := tape.kind = k

/-- Any tape. -/
def Anything (_ : Tape) : Prop := True

/-- What is known at some point of a production: what stands on the tape, most often just the kind
of the current token or nothing, behind what it stands, and how many brackets are open. -/
structure Stage where
  knows : Tape → Prop
  footing : Footing
  opened : ℕ

/-- What is known where reading never comes to. -/
def Stage.never : Stage := ⟨fun _ => False, .anywhere, 0⟩

/-- Whatever the result is, nothing is known of what follows. -/
abbrev reach (c : Footing) (n : ℕ) : α → Stage := fun _ => ⟨Anything, c, n⟩

/-- What is known behind a round, if another one follows or not. -/
abbrev Round.stage (b : Stage) (Q : α → Stage) : Round σ α → Stage
  | .again _ => b
  | .done a => Q a

/-- What is known about a state. -/
structure Stage.Holds (a : Stage) (s : State) : Prop where
  knows : a.knows s.tape
  footing : a.footing.Holds s.tape

/-- A reading from one stage to another over some tokens, which open and close as many brackets as
the stages say. -/
structure Arrives (a b : Stage) (s s' : State) : Prop where
  stage : b.Holds s'
  tokens : ∃ C, Tape.Over C s.tape s'.tape ∧ ∀ d, Tape.openBehind (d + a.opened) C = d + b.opened

/-- Two productions, the first of which, if it gives a result without any fault, goes from one stage
to another, and if it did not come to its last token, the second one gives the same inside any other
text that it fits. -/
structure Carries (a : Stage) (Q : α → Stage) (p p' : Parser α) : Prop where
  passes (s : State) : Passes s (stateBehind (p s))
  arrives ⦃s : State⦄ (hends : s.tape.Ends) (ha : a.Holds s) ⦃x : α⦄ ⦃s' : State⦄
    (hrun : p s = .ok x s') (hclean : s'.faults = #[]) : Arrives a (Q x) s s'
  inside ⦃s : State⦄ (ha : a.Holds s) ⦃x : α⦄ ⦃s' : State⦄ (hrun : p s = .ok x s')
    (hclean : s'.faults = #[]) (hahead : s'.tape.ahead ≠ []) ⦃outer : State⦄
    (hhosts : Hosts outer s) : p' (s.inside outer) = .ok x (s'.inside outer)

variable {a b : Stage} {K P : Tape → Prop} {c c' : Footing} {n n' : ℕ} {Q R : α → Stage}
  {p p' q q' : Parser α} {k mark : TokenKind}

namespace Arrives

/-- Two stretches of reading are one. -/
lemma trans {d : Stage} (h : Arrives a b s s') (h' : Arrives b d s' s'') : Arrives a d s s'' := by
  obtain ⟨-, C, hover, hopen⟩ := h
  obtain ⟨hstage, C', hover', hopen'⟩ := h'
  refine ⟨hstage, C ++ C', hover.trans hover', fun d => ?_⟩
  rw [Tape.openBehind_append, hopen, hopen']

/-- Where nothing was read. -/
lemma refl (h : b.Holds s) (hopened : b.opened = a.opened) : Arrives a b s s :=
  ⟨h, [], .refl _, fun d => by rw [hopened]; rfl⟩

/-- The same tape in another context. -/
lemma congr {t t' : State} (h : Arrives a b s s') (ht : t.tape = s.tape) (ht' : t'.tape = s'.tape) :
    Arrives a b t t' := by
  obtain ⟨⟨hknows, hfooting⟩, C, hover, hopen⟩ := h
  exact ⟨⟨ht' ▸ hknows, ht' ▸ hfooting⟩, C, ht ▸ ht' ▸ hover, hopen⟩

end Arrives

namespace Carries

/-! ### Rules -/

/-- A production that gives a result has done no more than productions do. -/
lemma passes_ok (h : Carries a Q p p') {x : α} (hrun : p s = .ok x s') : Passes s s' := by
  have hpasses := h.passes s
  rwa [hrun] at hpasses

/-- Less may be known beforehand. -/
lemma weaken [c.Below c'] (h : Carries ⟨Anything, c, n⟩ Q p p') : Carries ⟨K, c', n⟩ Q p p' where
  passes := h.passes
  arrives _ hends ha _ _ hrun hclean := by
    obtain ⟨hstage, hover⟩ := h.arrives hends ⟨trivial, Footing.Below.holds ha.footing⟩ hrun hclean
    exact ⟨hstage, hover⟩
  inside _ ha _ _ hrun hclean hahead _ hhosts :=
    h.inside ⟨trivial, Footing.Below.holds ha.footing⟩ hrun hclean hahead hhosts

/-- Less may be claimed afterwards. -/
lemma mono (h : Carries a R p p') (hstage : ∀ x s, (R x).Holds s → (Q x).Holds s)
    (hopened : ∀ x, (Q x).opened = (R x).opened) : Carries a Q p p' where
  passes := h.passes
  arrives _ hends ha x _ hrun hclean := by
    obtain ⟨hR, hover⟩ := h.arrives hends ha hrun hclean
    rw [← hopened x] at hover
    exact ⟨hstage x _ hR, hover⟩
  inside := h.inside

/-- Less may be known of where a production leaves off. -/
lemma settle [c'.Below c] (h : Carries a (reach c n) p p') : Carries a (reach c' n) p p' :=
  h.mono (fun _ _ hs => ⟨trivial, Footing.Below.holds hs.footing⟩) fun _ => rfl

/-- What gives no result without a fault. -/
lemma vacuous (hpasses : ∀ s, Passes s (stateBehind (p s)))
    (h : ∀ s x s', p s = .ok x s' → s'.faults ≠ #[]) : Carries a Q p p' where
  passes := hpasses
  arrives s _ _ x s' hrun hclean := absurd hclean (h s x s' hrun)
  inside s _ x s' hrun hclean := absurd hclean (h s x s' hrun)

/-- What would follow something that gives no result. -/
lemma unreachable (h : ∀ s, Passes s (stateBehind (p s))) : Carries .never Q p p' where
  passes := h
  arrives _ _ ha := ha.knows.elim
  inside _ ha := ha.knows.elim

/-- Giving a result reads nothing. -/
lemma pure {x : α} (h : ∀ s, a.Holds s → (Q x).Holds s) (hopened : (Q x).opened = a.opened) :
    Carries a Q (Pure.pure x) (Pure.pure x) where
  passes s := .refl s
  arrives s _ ha _ _ hrun _ := by
    cases hrun
    exact .refl (h s ha) hopened
  inside s _ _ _ hrun _ _ _ _ := by
    cases hrun
    rfl

/-- A result that is at hand. -/
lemma done [c'.Below c] {x : α} :
    Carries ⟨K, c, n⟩ (reach c' n) (Pure.pure x) (Pure.pure x) :=
  .pure (fun _ ha => ⟨trivial, Footing.Below.holds ha.footing⟩) rfl

/-- Another round follows. -/
lemma again [c'.Below c] {x : σ} :
    Carries ⟨K, c, n⟩ (Round.stage ⟨Anything, c', n⟩ Q) (Pure.pure (.again x))
      (Pure.pure (.again x)) :=
  .pure (fun _ ha => ⟨trivial, Footing.Below.holds ha.footing⟩) rfl

/-- No other round follows. -/
lemma ended [c'.Below c] {x : α} :
    Carries ⟨K, c, n⟩ (Round.stage (σ := σ) b (reach c' n)) (Pure.pure (.done x))
      (Pure.pure (.done x)) :=
  .pure (fun _ ha => ⟨trivial, Footing.Below.holds ha.footing⟩) rfl

/-- Two productions one behind the other: the second begins at the stage where the first leaves off. -/
lemma bind {f f' : β → Parser α} {q q' : Parser β} {R : β → Stage} (hq : Carries a R q q')
    (hf : ∀ x, Carries (R x) Q (f x) (f' x)) : Carries a Q (q >>= f) (q' >>= f') where
  passes s := by
    rw [bind_eq]
    exact (hq.passes s).trans (passes_continuing (fun x s => (hf x).passes s) _)
  arrives s hends ha y s'' hrun hclean := by
    obtain ⟨x, s', hfirst, hsecond⟩ := exists_of_bind hrun
    have hpasses := (hf x).passes_ok hsecond
    have hfirst' := hq.arrives hends ha hfirst (hpasses.clean hclean)
    have hends' := (hq.passes_ok hfirst).ends hends
    exact hfirst'.trans ((hf x).arrives hends' hfirst'.stage hsecond hclean)
  inside s ha y s'' hrun hclean hahead outer hhosts := by
    obtain ⟨x, s', hfirst, hsecond⟩ := exists_of_bind hrun
    have hpasses := (hf x).passes_ok hsecond
    have hstage := (hq.arrives hhosts.ends ha hfirst (hpasses.clean hclean)).stage
    have hfirst' := hq.inside ha hfirst (hpasses.clean hclean) (hpasses.ahead hahead) hhosts
    rw [bind_eq, hfirst']
    exact (hf x).inside hstage hsecond hclean hahead (hhosts.passes (hq.passes_ok hfirst))

/-- A production that is one of two. -/
lemma ite {d : Prop} [Decidable d] (hp : Carries a Q p p') (hq : Carries a Q q q') :
    Carries a Q (if d then p else q) (if d then p' else q') := by
  split
  · exact hp
  · exact hq

/-- What is known of a branch. -/
lemma dite {d : Prop} [Decidable d] (hp : d → Carries a Q p p') (hq : Carries a Q q q') :
    Carries a Q (if d then p else q) (if d then p' else q') := by
  split
  · exact hp ‹_›
  · exact hq

/-- A choice, and what follows either way. -/
lemma iteBind {d : Prop} [Decidable d] {q₁ q₁' q₂ q₂' : Parser β} {f f' : β → Parser α}
    {R : β → Stage} (h₁ : Carries a R q₁ q₁') (h₂ : Carries a R q₂ q₂')
    (hf : ∀ x, Carries (R x) Q (f x) (f' x)) :
    Carries a Q (if d then q₁ >>= f else q₂ >>= f) (if d then q₁' >>= f' else q₂' >>= f') :=
  .ite (h₁.bind hf) (h₂.bind hf)

/-- What a production gives may be forgotten. -/
lemma discard (h : Carries a (reach c n) p p') :
    Carries a (reach c n) (discard p) (discard p') :=
  h.bind fun _ => .done

/-! #### What is seen -/

/-- What is seen is the same inside another text, or else nothing comes of it; and from what is seen
something is known. -/
lemma learn {f : State → β} {g g' : β → Parser α} {P : β → Tape → Prop}
    (hf : ∀ s outer, Stage.Holds ⟨K, c, n⟩ s → Hosts outer s → s.tape.ahead ≠ [] →
      f (s.inside outer) = f s ∨ ∀ x s', g (f s) s ≠ .ok x s')
    (hP : ∀ s, K s.tape → P (f s) s.tape) (hg : ∀ y, Carries ⟨P y, c, n⟩ Q (g y) (g' y)) :
    Carries ⟨K, c, n⟩ Q (view f >>= g) (view f >>= g') where
  passes s := (hg (f s)).passes s
  arrives s hends ha _ _ hrun hclean := by
    obtain ⟨hstage, hover⟩ :=
      (hg (f s)).arrives hends ⟨hP s ha.knows, ha.footing⟩ hrun hclean
    exact ⟨hstage, hover⟩
  inside s ha x s' hrun hclean hahead outer hhosts := by
    change g (f s) s = .ok x s' at hrun
    change g' (f (s.inside outer)) (s.inside outer) = _
    have hpasses := (hg (f s)).passes_ok hrun
    rcases hf s outer ha hhosts (hpasses.ahead hahead) with hsame | hnone
    · rw [hsame]
      exact (hg (f s)).inside ⟨hP s ha.knows, ha.footing⟩ hrun hclean hahead hhosts
    · exact absurd hrun (hnone x s')

/-- What is seen is the same. -/
lemma see {f : State → β} {g g' : β → Parser α}
    (hf : ∀ s outer, Stage.Holds ⟨K, c, n⟩ s → Hosts outer s → s.tape.ahead ≠ [] →
      f (s.inside outer) = f s)
    (hg : ∀ y, Carries ⟨K, c, n⟩ Q (g y) (g' y)) :
    Carries ⟨K, c, n⟩ Q (view f >>= g) (view f >>= g') :=
  learn (P := fun _ => K) (fun s outer ha hhosts hahead => .inl (hf s outer ha hhosts hahead))
    (fun _ h => h) hg

/-- The current token is the same, and from then on it is known. -/
lemma current {g g' : Token → Parser α}
    (hg : ∀ t : Token, Carries ⟨AtKind t.kind, c, n⟩ Q (g t) (g' t)) :
    Carries ⟨K, c, n⟩ Q (current >>= g) (current >>= g') :=
  learn (P := fun t => AtKind t.kind) (fun _ _ _ _ hahead => .inl (Tape.current_before hahead))
    (fun _ _ => rfl) hg

/-- What is done with the kind of the current token may use that it is this kind. -/
lemma kind {g g' : TokenKind → Parser α}
    (hg : ∀ k, Carries ⟨AtKind k, c, n⟩ Q (g k) (g' k)) :
    Carries ⟨K, c, n⟩ Q (kind >>= g) (kind >>= g') :=
  learn (P := AtKind) (fun _ _ _ _ hahead => .inl (Tape.kind_before hahead)) (fun _ _ => rfl) hg

/-- What is done with the place of the current token does not depend on what stands behind. -/
lemma here {g g' : Position → Parser α} (hg : ∀ y, Carries ⟨K, c, n⟩ Q (g y) (g' y)) :
    Carries ⟨K, c, n⟩ Q (here >>= g) (here >>= g') :=
  see (fun _ _ _ _ hahead => congrArg (·.span.start) (Tape.current_before hahead)) hg

/-- A test of the state, from which something is known if it holds. -/
lemma test {f : State → Bool} {g g' : Bool → Parser α}
    (hf : ∀ s outer, Stage.Holds ⟨K, c, n⟩ s → Hosts outer s → s.tape.ahead ≠ [] →
      f (s.inside outer) = f s)
    (hP : ∀ s, f s = true → P s.tape) (htrue : Carries ⟨P, c, n⟩ Q (g true) (g' true))
    (hfalse : Carries ⟨K, c, n⟩ Q (g false) (g' false)) :
    Carries ⟨K, c, n⟩ Q (view f >>= g) (view f >>= g') := by
  refine learn (P := fun found => if found then P else K)
    (fun s outer ha hhosts hahead => .inl (hf s outer ha hhosts hahead)) (fun s hs => ?_) fun found => ?_
  · split
    · exact hP s ‹_›
    · exact hs
  · cases found with
    | true => exact htrue
    | false => exact hfalse

/-- A test of the current token that tells its kind. -/
lemma testCurrent {f : Token → Bool} {g g' : Bool → Parser α}
    (hf : ∀ t, f t = true → t.kind = k) (htrue : Carries ⟨AtKind k, c, n⟩ Q (g true) (g' true))
    (hfalse : Carries ⟨K, c, n⟩ Q (g false) (g' false)) :
    Carries ⟨K, c, n⟩ Q (view (fun s => f s.tape.current) >>= g)
      (view (fun s => f s.tape.current) >>= g') :=
  test (fun _ _ _ _ hahead => congrArg f (Tape.current_before hahead))
    (fun s hs => hf s.tape.current hs) htrue hfalse

/-- Where a mark stands, the token is of that kind. -/
lemma check {g g' : Bool → Parser α} (htrue : Carries ⟨AtKind mark, c, n⟩ Q (g true) (g' true))
    (hfalse : Carries ⟨K, c, n⟩ Q (g false) (g' false)) :
    Carries ⟨K, c, n⟩ Q (check mark >>= g) (check mark >>= g') :=
  testCurrent (f := (·.kind == mark)) (fun _ ht => eq_of_beq ht) htrue hfalse

/-! #### Tokens -/

/-- A token is consumed, and what is known of it and what is behind it is known from then on. -/
lemma dropKnown {P : Tape → Prop} (hsolid : ∀ tape, K tape → tape.kind.isSolid = true)
    (hturns : ∀ tape, K tape → tape.kind.Turns n n') (hP : ∀ tape, K tape → P tape.advance) :
    Carries ⟨K, c, n⟩ (fun _ => ⟨P, .solid, n'⟩) drop drop where
  passes s := .steps (Tape.steps_advance _)
  arrives s hends ha x s' hrun hclean := by
    cases hrun
    have hkind : s.tape.kind.isSolid = true := hsolid _ ha.knows
    obtain ⟨consumed, t, u, us, htape, -, hadvance⟩ :=
      (hends.consumable (TokenKind.ne_eof_of_isSolid hkind)).exists_advance
    refine ⟨⟨hP _ ha.knows, t, ?_, ?_⟩, [t], ?_, fun d => ?_⟩
    · change t ∈ s.tape.advance.consumed
      rw [hadvance]
      rfl
    · rw [htape] at hkind
      exact TokenKind.ne_newline_of_isSolid hkind
    · change Tape.Over [t] s.tape s.tape.advance
      rw [hadvance, htape]
      exact .next
    · have hturn := hturns _ ha.knows d
      rwa [htape] at hturn
  inside s ha x s' hrun hclean hahead outer hhosts := by
    cases hrun
    have hnotEnd := TokenKind.ne_eof_of_isSolid (hsolid _ ha.knows)
    exact congrArg (EStateM.Result.ok ())
      (State.move_inside Tape.advance (Tape.advance_before (hhosts.ends.consumable hnotEnd)))

/-- A token of a kind that is known is consumed. -/
lemma take (hsolid : k.isSolid = true) (hturns : k.Turns n n') :
    Carries ⟨AtKind k, c, n⟩ (reach .solid n') drop drop :=
  dropKnown (fun _ hk => by rw [hk]; exact hsolid) (fun _ hk => by rw [hk]; exact hturns)
    fun _ _ => trivial

/-- A token that is no bracket is forgotten. -/
lemma drop (h : k.isFlat = true) :
    Carries ⟨AtKind k, c, n⟩ (reach .solid n) drop drop :=
  take (TokenKind.isSolid_of_isFlat h) (TokenKind.turns_of_isFlat h n)

/-- What was consumed is the same. -/
lemma seePreviousKnown [Footing.begun.Below c] {f : Token → α} :
    Carries ⟨K, c, n⟩ (fun _ => ⟨K, c, n⟩) (view fun s => f s.tape.previous)
      (view fun s => f s.tape.previous) where
  passes s := .refl s
  arrives s _ ha _ _ hrun _ := by
    cases hrun
    exact .refl ha rfl
  inside s ha _ _ hrun _ _ outer _ := by
    cases hrun
    exact congrArg (fun t => EStateM.Result.ok (f t) (s.inside outer))
      (Tape.previous_before ha.footing.isSome)

/-- Once reading has begun, the token that was consumed last is the same. -/
lemma seePrevious [Footing.begun.Below c] {f : Token → α} :
    Carries ⟨K, c, n⟩ (reach c n) (view fun s => f s.tape.previous)
      (view fun s => f s.tape.previous) :=
  seePreviousKnown.mono (fun _ _ hs => ⟨trivial, hs.footing⟩) fun _ => rfl

/-- A token of which it is known what it opens or closes is consumed. -/
lemma advanceKnown {P : Tape → Prop} (hsolid : ∀ tape, K tape → tape.kind.isSolid = true)
    (hturns : ∀ tape, K tape → tape.kind.Turns n n') (hP : ∀ tape, K tape → P tape.advance) :
    Carries ⟨K, c, n⟩ (fun _ => ⟨P, .solid, n'⟩) advance advance :=
  (dropKnown hsolid hturns hP).bind fun _ => seePreviousKnown (f := id)

/-- A token that is known is taken. -/
lemma takeToken (hsolid : k.isSolid = true) (hturns : k.Turns n n') :
    Carries ⟨AtKind k, c, n⟩ (reach .solid n') advance advance :=
  (take hsolid hturns).bind fun _ => seePrevious (f := id)

/-- A token that is no bracket is consumed. -/
lemma advance (h : k.isFlat = true) :
    Carries ⟨AtKind k, c, n⟩ (reach .solid n) advance advance :=
  (drop h).bind fun _ => seePrevious (f := id)

/-- An opening bracket is consumed. -/
lemma opening (h : k = .punct .lParen ∨ k = .punct .lBracket) :
    Carries ⟨AtKind k, c, n⟩ (reach .solid (n + 1)) Grammar.advance Grammar.advance := by
  rcases h with rfl | rfl
  · exact takeToken rfl fun _ => rfl
  · exact takeToken rfl fun _ => rfl

/-- What is behind a token that may follow. -/
lemma acceptTurning (hsolid : mark.isSolid = true) (hturns : mark.Turns n n') :
    Carries ⟨K, c, n⟩ (fun found => if found then ⟨Anything, .solid, n'⟩ else ⟨Anything, c, n⟩)
      (accept mark) (accept mark) :=
  .check ((take hsolid hturns).bind fun _ => .pure (fun _ h => h) rfl)
    (.pure (fun _ h => ⟨trivial, h.footing⟩) rfl)

/-- A mark that is no bracket is consumed if it is there. -/
lemma accept (h : mark.isFlat = true) :
    Carries ⟨K, c, n⟩ (reach c n) (accept mark) (accept mark) :=
  .check ((drop h).bind fun _ => .done) .done

/-- A failure gives no result that would have to be the same. -/
lemma fails {f : Failure} : Carries a Q (throw f : Parser α) p' :=
  vacuous (fun s => .refl s) fun _ _ _ hrun => by cases hrun

/-- A fault gives no result that would have to be the same. -/
lemma fail {f : Fault} : Carries a Q (fail f : Parser α) p' := fails

/-- A refusal gives no result that would have to be the same. -/
lemma refuse {expected : String} : Carries a Q (refuse expected : Parser α) p' :=
  vacuous (fun s => .refl s) fun _ _ _ hrun => by cases hrun

/-- What is reported is no longer without faults. -/
lemma faults_report_ne (s : State) (f : Fault) : (s.report f).faults ≠ #[] := by
  intro hclean
  cases hgaveUp : s.gaveUp with
  | true =>
    rw [State.report_eq_of_gaveUp hgaveUp] at hclean
    rw [State.gaveUp_iff, hclean] at hgaveUp
    exact Nat.not_le_of_lt s.limits.faults_pos hgaveUp
  | false =>
    rw [State.faults_report hgaveUp] at hclean
    simp at hclean

/-- Behind a report reading is not without faults. -/
lemma report {Q : Unit → Stage} {p' : Parser Unit} {f : Fault} : Carries a Q (report f) p' :=
  vacuous (fun s => .report s f) fun s _ _ hrun => by
    cases hrun
    exact faults_report_ne s f

/-- Behind a fault that is reported nothing matters. -/
lemma faulty {expected : String} {r : Unit → Parser α} {p' : Parser α}
    (hr : ∀ s, Passes s (stateBehind (r () s))) :
    Carries a Q (Grammar.reportUnexpected expected >>= r) p' :=
  vacuous (fun s => .trans (.report s _) (hr _)) fun s x s' hrun hclean => by
    have hpasses := hr (s.report (s.unexpected expected))
    change r () (s.report (s.unexpected expected)) = .ok x s' at hrun
    rw [hrun] at hpasses
    exact faults_report_ne s _ (hpasses.clean hclean)

/-- A fault that a production fails with is reported. -/
lemma recover {q q' : Parser β} {f f' : Except Fault β → Parser α} {r : Parser α} {R : β → Stage}
    (hq : Carries a R q q') (hok : ∀ x, Carries (R x) Q (f (.ok x)) (f' (.ok x)))
    (hreports : ∀ e, f (.error e) = Grammar.report e >>= fun _ => r)
    (hr : ∀ s, Passes s (stateBehind (r s))) :
    Carries a Q (attempt q >>= f) (attempt q' >>= f') := by
  have hrecovered {s s' : State} {x : α} (hrun : (attempt q >>= f) s = .ok x s')
      (hclean : s'.faults = #[]) : ∃ y s₁, q s = .ok y s₁ ∧ f (.ok y) s₁ = .ok x s' := by
    rw [attempt_bind_eq] at hrun
    cases hq' : q s with
    | ok y s₁ =>
      rw [hq'] at hrun
      exact ⟨y, s₁, rfl, hrun⟩
    | error e s₁ =>
      rw [hq'] at hrun
      cases e with
      | exhausted => cases hrun
      | fault e =>
        rw [recovering, reporting_eq hreports] at hrun
        have hpasses := hr (s₁.report e)
        rw [hrun] at hpasses
        exact absurd (hpasses.clean hclean) (faults_report_ne s₁ e)
  constructor
  case passes =>
    intro s
    rw [attempt_bind_eq]
    exact (hq.passes s).trans (passes_recovering hreports (fun x => (hok x).passes) hr _)
  case arrives =>
    intro s hends ha x s' hrun hclean
    obtain ⟨y, s₁, hfirst, hsecond⟩ := hrecovered hrun hclean
    have hpasses := (hok y).passes_ok hsecond
    have hfirst' := hq.arrives hends ha hfirst (hpasses.clean hclean)
    exact hfirst'.trans
      ((hok y).arrives ((hq.passes_ok hfirst).ends hends) hfirst'.stage hsecond hclean)
  case inside =>
    intro s ha x s' hrun hclean hahead outer hhosts
    obtain ⟨y, s₁, hfirst, hsecond⟩ := hrecovered hrun hclean
    have hpasses := (hok y).passes_ok hsecond
    have hstage := (hq.arrives hhosts.ends ha hfirst (hpasses.clean hclean)).stage
    have hfirst' := hq.inside ha hfirst (hpasses.clean hclean) (hpasses.ahead hahead) hhosts
    rw [attempt_bind_eq, hfirst']
    exact (hok y).inside hstage hsecond hclean hahead (hhosts.passes (hq.passes_ok hfirst))

/-- A mark that has to be there is consumed, with the brackets that it opens or closes. -/
lemma expectTurning (hsolid : mark.isSolid = true) (hturns : mark.Turns n n') :
    Carries ⟨K, c, n⟩ (reach .solid n') (expect mark) (expect mark) :=
  .check (takeToken hsolid hturns) .refuse

/-- A mark that is no bracket and has to be there is consumed. -/
lemma expect (h : mark.isFlat = true) :
    Carries ⟨K, c, n⟩ (reach .solid n) (expect mark) (expect mark) :=
  .check (advance h) .refuse

/-- A closer is consumed, with the bracket that it closes. -/
lemma expectCloser {opener : Token} (hsolid : mark.isSolid = true) (hturns : mark.Turns n n') :
    Carries ⟨K, c, n⟩ (reach .solid n') (expectCloser opener mark) (expectCloser opener mark) :=
  .see (fun _ _ _ _ hahead => congrArg Token.isEof (Tape.current_before hahead)) fun _ => .ite
    (.bind (R := reach .solid n) .fail fun _ => (expectTurning hsolid hturns).discard)
    (expectTurning hsolid hturns).discard

/-- Tokens that are passed over are no brackets. -/
lemma passOver {p : TokenKind → Bool} {P : Tape → Prop} (hp : ∀ k d, p k = true → k.turn d = d)
    (hend : p .eof = false) (hP : ∀ tape, K tape → P (tape.passOver p)) :
    Carries ⟨K, c, n⟩ (fun _ => ⟨P, c.slack, n⟩) (move (Tape.passOver p))
      (move (Tape.passOver p)) where
  passes s := .steps (Tape.steps_passOver hend s.tape)
  arrives s hends ha x s' hrun hclean := by
    cases hrun
    obtain ⟨C, hC, hover⟩ := Tape.Over.passOver p s.tape
    have hopen (d : ℕ) : Tape.openBehind d C = d := by
      clear hover
      induction C with
      | nil => rfl
      | cons t C ih =>
        rw [List.forall_mem_cons] at hC
        rw [Tape.openBehind_cons, hp _ _ hC.1, ih hC.2]
    refine ⟨⟨hP _ ha.knows, ?_⟩, C, hover, fun d => hopen _⟩
    have hbegun (h : s.tape.consumed.isSome = true) :
        (s.tape.passOver p).consumed.isSome = true := by
      rw [hover.consumed, Option.isSome_or, h, Bool.or_true]
    cases c with
    | anywhere => trivial
    | begun => exact hbegun ha.footing
    | solid => exact hbegun ha.footing.isSome
  inside s ha x s' hrun hclean hahead outer hhosts := by
    cases hrun
    exact congrArg (EStateM.Result.ok ())
      (State.move_inside (Tape.passOver p) (Tape.before_passOver hahead))

/-- Line breaks are passed over, to a tape of which something is known. -/
lemma skipBreaksKnown {P : Tape → Prop}
    (hP : ∀ tape, K tape → P (tape.passOver (· == .newline))) :
    Carries ⟨K, c, n⟩ (fun _ => ⟨P, c.slack, n⟩) skipBreaks skipBreaks :=
  passOver (fun k _ hk => by rw [eq_of_beq hk]; rfl) rfl hP

/-- Line breaks are passed over, and the last token may be one of them. -/
lemma skipBreaks : Carries ⟨K, c, n⟩ (reach c.slack n) skipBreaks skipBreaks :=
  skipBreaksKnown fun _ _ => trivial

/-- What ends a statement is no bracket. -/
lemma turn_of_endsStatement {k : TokenKind} {d : ℕ} (h : Tape.endsStatement k = true) :
    k.turn d = d := by
  unfold Tape.endsStatement at h
  split at h
  · rfl
  · rfl
  · cases h

/-- Line breaks and semicolons are passed over. -/
lemma skipTerminators : Carries ⟨K, c, n⟩ (reach c.slack n) skipTerminators skipTerminators :=
  passOver (fun _ _ => turn_of_endsStatement) rfl fun _ _ => trivial

/-- What is known of the tape stays known. -/
lemma declare {name : String} :
    Carries ⟨K, c, n⟩ (fun _ => ⟨K, c, n⟩) (declare name) (declare name) where
  passes s := .declare s name
  arrives s hends ha x s' hrun hclean := by
    cases hrun
    have hstays : Arrives ⟨K, c, n⟩ ⟨K, c, n⟩ s s := .refl ha rfl
    exact hstays.congr rfl (s.tape_declare name)
  inside s ha x s' hrun hclean hahead outer hhosts := by
    cases hrun
    exact congrArg (EStateM.Result.ok ()) (State.declare_inside hhosts.scopes_ne_nil name)

/-! #### Nodes -/

/-- A node ends where the token that was consumed last does. -/
lemma finish [Footing.begun.Below c] {kind : NodeKind} {start : Position} {ns : List Node} :
    Carries ⟨K, c, n⟩ (reach c n) (finish kind start ns) (finish kind start ns) :=
  seePrevious (f := fun t => Node.inner kind ⟨start, t.span.stop.later start⟩ ns)

/-- A node with a text ends where the token that was consumed last does. -/
lemma finishNamed [Footing.begun.Below c] {kind : NodeKind} {start : Position} {text : String}
    {ns : List Node} :
    Carries ⟨K, c, n⟩ (reach c n) (finishNamed kind start text ns)
      (finishNamed kind start text ns) :=
  finish.bind fun _ => .done

/-- A leaf is the token that was consumed last. -/
lemma leaf [Footing.begun.Below c] {kind : NodeKind} {text : String} :
    Carries ⟨K, c, n⟩ (reach c n) (leaf kind text) (leaf kind text) :=
  seePrevious (f := fun t => Node.leaf kind t.span text)

/-- A token that is no bracket is consumed as a leaf. -/
lemma takeLeaf {kind : NodeKind} (h : k.isFlat = true) :
    Carries ⟨AtKind k, c, n⟩ (reach .solid n) (takeLeaf kind) (takeLeaf kind) :=
  (advance h).bind fun _ => leaf

/-- A token that is no bracket is consumed as a leaf with another text. -/
lemma takeAs {kind : NodeKind} {text : String} (h : k.isFlat = true) :
    Carries ⟨AtKind k, c, n⟩ (reach .solid n) (takeAs kind text) (takeAs kind text) :=
  (drop h).bind fun _ => leaf

/-- The result as a list. -/
lemma one {p p' : Parser Node} (h : Carries a (reach c n) p p') :
    Carries a (reach c n) (do return [← p]) (do return [← p']) :=
  h.bind fun _ => .done

/-- A repetition may go round as often or more often, and gives the same. -/
lemma iterate {body body' : σ → Parser (Round σ α)}
    (h : ∀ x, Carries ⟨Anything, c, n⟩ (Round.stage ⟨Anything, c, n⟩ Q) (body x) (body' x))
    {rounds rounds' : ℕ} (hrounds : rounds ≤ rounds') (x : σ) :
    Carries ⟨Anything, c, n⟩ Q (iterate body rounds x) (iterate body' rounds' x) := by
  induction rounds generalizing rounds' x with
  | zero => exact fails
  | succ rounds ih =>
    obtain ⟨rounds', rfl⟩ := Nat.exists_eq_add_of_le' hrounds
    refine (h x).bind fun round => ?_
    cases round with
    | again x => exact ih (Nat.le_of_succ_le_succ (by omega)) x
    | done x => exact .pure (fun _ h => h) rfl

/-! #### Contexts -/

/-- What was given in a context that was left. -/
lemma exists_of_leaving {leave : State → State} {r : EStateM.Result Failure State α} {x : α}
    (h : leaving leave r = .ok x s') : ∃ s₁, r = .ok x s₁ ∧ s' = leave s₁ := by
  cases r with
  | ok y s₁ =>
    cases h
    exact ⟨s₁, rfl, rfl⟩
  | error e s₁ => cases h

/-- What is put around a production is put around it inside another state. -/
lemma inside_enter (context : Context) (s : State) :
    context.enter (s.inside outer) = (context.enter s).inside outer := by
  cases context with
  | deeper => simp only [Context.enter, State.inside, Nat.add_right_comm]
  | allowingDo => rfl
  | withholdingDo => rfl

/-- What is taken back behind a production is taken back inside another state. -/
lemma inside_leave (context : Context) (h : Passes (context.enter s) s') :
    context.leave (s.inside outer) (s'.inside outer) = (context.leave s s').inside outer := by
  cases context with
  | deeper =>
    have hdepth : s'.depth = s.depth + 1 := h.depth
    simp only [Context.leave, State.inside, hdepth]
    congr 1
    omega
  | allowingDo => rfl
  | withholdingDo => rfl

/-- What is put around a production leaves it where it was. -/
lemma within (context : Context) (h : Carries a Q p p') :
    Carries a Q (fun s => leaving (context.leave s) (p (context.enter s)))
      (fun s => leaving (context.leave s) (p' (context.enter s))) where
  passes s := by
    rw [stateBehind_leaving]
    exact .within context (h.passes _)
  arrives s hends ha x s' hrun hclean := by
    obtain ⟨s₁, hrun', rfl⟩ := exists_of_leaving hrun
    rw [context.faults_leave] at hclean
    have htape : (context.enter s).tape = s.tape := context.tape_enter s
    have harrives := h.arrives (htape ▸ hends) ⟨htape ▸ ha.knows, htape ▸ ha.footing⟩ hrun' hclean
    exact harrives.congr htape.symm (context.tape_leave s s₁)
  inside s ha x s' hrun hclean hahead outer hhosts := by
    obtain ⟨s₁, hrun', rfl⟩ := exists_of_leaving hrun
    rw [context.faults_leave] at hclean
    rw [context.tape_leave] at hahead
    have htape : (context.enter s).tape = s.tape := context.tape_enter s
    have hhosts' : Hosts outer (context.enter s) :=
      ⟨htape ▸ hhosts.ends, htape ▸ hhosts.endsInBreak, htape ▸ hhosts.closes,
        (context.limits_enter s).symm ▸ hhosts.depth, (context.scopes_enter s).symm ▸ hhosts.closed⟩
    have hinside := h.inside ⟨htape ▸ ha.knows, htape ▸ ha.footing⟩ hrun' hclean hahead hhosts'
    change leaving _ (p' (context.enter (s.inside outer))) = _
    rw [inside_enter, hinside, leaving, inside_leave context (h.passes_ok hrun')]

/-- One level deeper inside another state is within the limit, if it is on its own. -/
lemma nested (h : Carries a Q p p') : Carries a Q (nested p) (nested p') := by
  have hwithin := h.within .deeper
  have hrun (p : Parser α) (s : State) (hhosts : s.depth < s.limits.maxDepth) :
      Grammar.nested p s = leaving (Context.deeper.leave s) (p (Context.deeper.enter s)) :=
    (if_pos hhosts).trans (around_eq _ _ p s)
  have hrefused (p : Parser α) (s : State) (hhosts : ¬ s.depth < s.limits.maxDepth) :
      Grammar.nested p s =
        .error (.fault ⟨.nestingTooDeep s.limits.maxDepth, s.tape.current.span⟩) s := if_neg hhosts
  constructor
  case passes =>
    intro s
    by_cases hhosts : s.depth < s.limits.maxDepth
    · rw [hrun p s hhosts]
      exact hwithin.passes s
    · rw [hrefused p s hhosts]
      exact .refl s
  case arrives =>
    intro s hends ha x s' hok hclean
    by_cases hhosts : s.depth < s.limits.maxDepth
    · rw [hrun p s hhosts] at hok
      exact hwithin.arrives hends ha hok hclean
    · rw [hrefused p s hhosts] at hok
      cases hok
  case inside =>
    intro s ha x s' hok hclean hahead outer hhosts
    by_cases hdepth : s.depth < s.limits.maxDepth
    · have hdepth' : (s.inside outer).depth < (s.inside outer).limits.maxDepth := by
        have hroom := hhosts.depth
        change s.depth + outer.depth < outer.limits.maxDepth
        omega
      rw [hrun p s hdepth] at hok
      rw [hrun p' _ hdepth']
      exact hwithin.inside ha hok hclean hahead hhosts
    · rw [hrefused p s hdepth] at hok
      cases hok

/-- Between brackets a `do` is free, whatever is around. -/
lemma allowingDo (h : Carries a Q p p') : Carries a Q (allowingDo p) (allowingDo p') := by
  have heq (p : Parser α) : Grammar.allowingDo p =
      fun s => leaving (Context.allowingDo.leave s) (p (Context.allowingDo.enter s)) :=
    funext fun s => around_eq _ _ p s
  rw [heq, heq]
  exact h.within .allowingDo

/-- A `do` is withheld as long as a production lasts. -/
lemma withholdingDo (h : Carries a Q p p') :
    Carries a Q (withholdingDo p) (withholdingDo p') := by
  have heq (p : Parser α) : Grammar.withholdingDo p =
      fun s => leaving (Context.withholdingDo.leave s) (p (Context.withholdingDo.enter s)) :=
    funext fun s => around_eq _ _ p s
  rw [heq, heq]
  exact h.within .withholdingDo

/-- A scope that is put around a production is the innermost one inside another state as well. -/
lemma inScope {closed : Bool} (h : Carries a Q p p') :
    Carries a Q (inScope closed p) (inScope closed p') := by
  have heq (p : Parser α) : Grammar.inScope closed p =
      fun s => leaving State.leaveScope (p (s.enterScope closed)) :=
    funext fun s => around_eq _ _ p s
  rw [heq, heq]
  constructor
  case passes =>
    intro s
    rw [stateBehind_leaving]
    exact .inScope closed (h.passes _)
  case arrives =>
    intro s hends ha x s' hrun hclean
    obtain ⟨s₁, hrun', rfl⟩ := exists_of_leaving hrun
    have harrives :=
      h.arrives (s := s.enterScope closed) hends ⟨ha.knows, ha.footing⟩ hrun' hclean
    exact harrives.congr rfl rfl
  case inside =>
    intro s ha x s' hrun hclean hahead outer hhosts
    obtain ⟨s₁, hrun', rfl⟩ := exists_of_leaving hrun
    have hhosts' : Hosts outer (s.enterScope closed) :=
      ⟨hhosts.ends, hhosts.endsInBreak, hhosts.closes, hhosts.depth,
        List.mem_cons_of_mem _ hhosts.closed⟩
    have hinside :=
      h.inside (s := s.enterScope closed) ⟨ha.knows, ha.footing⟩ hrun' hclean hahead hhosts'
    have hclosed := (h.passes_ok hrun').closed
    have hleave : (s₁.inside outer).leaveScope = s₁.leaveScope.inside outer := by
      obtain ⟨tape, faults, limits, depth, doWithheld, scopes⟩ := s₁
      cases scopes with
      | nil => simp [State.enterScope] at hclosed
      | cons scope scopes => rfl
    change leaving _ (p' ((s.enterScope closed).inside outer)) = _
    rw [hinside, leaving, hleave]

end Carries

end Grammar

end RubyCheck
