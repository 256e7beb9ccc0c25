import RubyCheck.Arena.Program
import RubyCheck.Proofs.Arena.Cells

/-!
# Productions over an arena and the productions of the grammar

`Runs` relates a production over an arena to one of the grammar.  Started on a machine at work, the
first one looks nothing up that does not exist and leaves a machine at work; and where ids have no width,
the second one, started on the state of that machine, comes to the same: the same faults, the same
place, and results that belong together.  There is one rule for each step from which productions are put
together.

Where ids have a width, a node beyond the greatest one may be taken for another, and the two productions
part.  Nothing is said of the second one then, but the first one still looks up what exists.
-/

namespace RubyCheck.Arena

open Grammar (State Failure Round)

/-! ### Machines at work -/

namespace Machine

/-- What holds of a machine at work: the last of its tokens is the end of the text, the current one
exists, every node names nodes that exist, and it has given up if the grammar would have. -/
structure Sane (greatest : Option ℕ) (m : Machine) : Prop where
  greatestId : m.greatestId = greatest
  ends : ∃ before last, m.tokens = before ++ [last] ∧ last.isEof = true
  current_lt : m.current < m.tokens.length
  closed : Closed m.nodes m.nodes.size
  gaveUp : m.gaveUp = m.state.gaveUp

/-- What reading keeps of a machine if it changes no node before `base`. -/
structure Reaches (greatest : Option ℕ) (base : ℕ) (m m' : Machine) : Prop where
  sane : m'.Sane greatest
  tokens : m'.tokens = m.tokens
  limits : m'.limits = m.limits
  depth : m'.depth = m.depth
  doWithheld : m'.doWithheld = m.doWithheld
  current_le : m.current ≤ m'.current
  grown : Grown greatest base m.nodes m'.nodes

variable {greatest : Option ℕ} {base base' : ℕ} {m m' m'' : Machine}

lemma Sane.reaches (h : m.Sane greatest) (base : ℕ) : m.Reaches greatest base m :=
  ⟨h, rfl, rfl, rfl, rfl, le_rfl, .refl _ _ _⟩

lemma Reaches.trans (h : m.Reaches greatest base m') (h' : m'.Reaches greatest base m'') :
    m.Reaches greatest base m'' where
  sane := h'.sane
  tokens := h'.tokens.trans h.tokens
  limits := h'.limits.trans h.limits
  depth := h'.depth.trans h.depth
  doWithheld := h'.doWithheld.trans h.doWithheld
  current_le := h.current_le.trans h'.current_le
  grown := h.grown.trans h'.grown

lemma Reaches.mono (h : m.Reaches greatest base m') (hbase : base' ≤ base) :
    m.Reaches greatest base' m' :=
  { h with grown := h.grown.mono hbase }

end Machine

/-! ### Related runs -/

/-- What a production over an arena comes to, and the one of the grammar with it where ids have no
width; `V` says which results belong together. -/
inductive Outcome (greatest : Option ℕ) {α β : Type} (base : ℕ) (V : Array Cell → α → β → Prop)
    (m : Machine) : EStateM.Result Stop Machine α → EStateM.Result Failure State β → Prop
  | ok {a : α} {b : β} {m' : Machine} {r : EStateM.Result Failure State β}
      (hreaches : m.Reaches greatest base m') (hresult : V m'.nodes a b)
      (hr : greatest = none → r = .ok b m'.state) : Outcome greatest base V m (.ok a m') r
  | fault {f : Fault} {m' : Machine} {r : EStateM.Result Failure State β}
      (hreaches : m.Reaches greatest base m')
      (hr : greatest = none → r = .error (.fault f) m'.state) :
      Outcome greatest base V m (.error (.fault f) m') r
  | exhausted {m' : Machine} {r : EStateM.Result Failure State β}
      (hr : greatest = none → ∃ s, r = .error .exhausted s) :
      Outcome greatest base V m (.error .exhausted m') r

/-- A production over an arena that is `w` looks nothing up that does not exist, changes no node before
`base`, and comes to what one of the grammar does. -/
def Runs (greatest : Option ℕ) {α β : Type} (w : Array Cell) (base : ℕ) (V : Array Cell → α → β → Prop)
    (p : Parser α) (q : Grammar.Parser β) : Prop :=
  base ≤ w.size → ∀ m : Machine, m.Sane greatest → m.nodes = w →
    Outcome greatest base V m (p m) (q m.state)

section Rules

variable {greatest : Option ℕ} {α β γ δ σ τ : Type} {w w' : Array Cell} {base base' : ℕ}
  {V V' : Array Cell → α → β → Prop} {W : Array Cell → γ → δ → Prop}
  {p p' : Parser α} {q q' : Grammar.Parser β} {f : α → Parser γ} {g : β → Grammar.Parser δ}

/-- What comes behind something that was done already. Of the grammar it need be said only where ids have
no width. -/
lemma Outcome.along {m m' : Machine} {r : EStateM.Result Stop Machine α}
    {s s' : EStateM.Result Failure State β} (hreaches : m.Reaches greatest base m')
    (h : Outcome greatest base V m' r s) (hs : greatest = none → s' = s) :
    Outcome greatest base V m r s' := by
  cases h with
  | ok hreaches' hresult hr =>
    exact .ok (hreaches.trans hreaches') hresult fun hnone => (hs hnone).trans (hr hnone)
  | fault hreaches' hr =>
    exact .fault (hreaches.trans hreaches') fun hnone => (hs hnone).trans (hr hnone)
  | exhausted hr =>
    refine .exhausted fun hnone => ?_
    rw [hs hnone]
    exact hr hnone

lemma Outcome.bind {m : Machine}
    (hp : Outcome greatest base V m (p m) (q m.state))
    (hf : ∀ m' a b, m.Reaches greatest base m' → V m'.nodes a b →
      Outcome greatest base W m' (f a m') (g b m'.state)) :
    Outcome greatest base W m ((p >>= f) m) ((q >>= g) m.state) := by
  change Outcome greatest base W m (EStateM.bind p f m) (EStateM.bind q g m.state)
  unfold EStateM.bind
  generalize p m = r at hp ⊢
  generalize q m.state = r' at hp ⊢
  cases hp with
  | ok hreaches hresult hr =>
    exact .along hreaches (hf _ _ _ hreaches hresult) fun hnone => by rw [hr hnone]
  | fault hreaches hr => exact .fault hreaches fun hnone => by rw [hr hnone]
  | exhausted hr =>
    refine .exhausted fun hnone => ?_
    obtain ⟨s, hs⟩ := hr hnone
    exact ⟨s, by rw [hs]⟩

/-- More results may be taken to belong together, and fewer nodes to be unchanged. -/
lemma Outcome.imp {m : Machine} {r : EStateM.Result Stop Machine α}
    {r' : EStateM.Result Failure State β} (hr : Outcome greatest base V m r r') (hbase : base' ≤ base)
    (h : ∀ w' a b, Grown greatest base m.nodes w' → V w' a b → V' w' a b) :
    Outcome greatest base' V' m r r' := by
  cases hr with
  | ok hreaches hresult hr =>
    exact .ok (hreaches.mono hbase) (h _ _ _ hreaches.grown hresult) hr
  | fault hreaches hr => exact .fault (hreaches.mono hbase) hr
  | exhausted hr => exact .exhausted hr

namespace Runs

lemma pure {a : α} {b : β} (h : V w a b) : Runs greatest w base V (Pure.pure a) (Pure.pure b) := by
  rintro _ m hm rfl
  exact .ok (hm.reaches base) h fun _ => rfl

/-- More results may be taken to belong together. -/
lemma imp (hp : Runs greatest w base V p q)
    (h : ∀ w' a b, Grown greatest base w w' → V w' a b → V' w' a b) :
    Runs greatest w base V' p q := by
  rintro hbase m hm rfl
  exact (hp hbase m hm rfl).imp le_rfl h

/-- A production that changes no node at all changes none before `base`. -/
lemma anew (hp : Runs greatest w w.size V p q) : Runs greatest w base V p q := by
  rintro hbase m hm rfl
  exact (hp le_rfl m hm rfl).imp hbase fun _ _ _ _ h => h

/-- One step after another. -/
lemma seq (hp : Runs greatest w base V p q)
    (hf : ∀ w' a b, Grown greatest base w w' → V w' a b → Runs greatest w' base W (f a) (g b)) :
    Runs greatest w base W (p >>= f) (q >>= g) := by
  rintro hbase m hm rfl
  exact (hp hbase m hm rfl).bind fun m' a b hm' hab =>
    hf m'.nodes a b hm'.grown hab (hbase.trans hm'.grown.size_le) m' hm'.sane rfl

/-- One step after another, the first of which changes no node. -/
lemma bind (hp : Runs greatest w w.size V p q)
    (hf : ∀ w' a b, Grown greatest w.size w w' → V w' a b → Runs greatest w' base W (f a) (g b)) :
    Runs greatest w base W (p >>= f) (q >>= g) := by
  have hboth : Runs greatest w base (fun w' a b => Grown greatest w.size w w' ∧ V w' a b) p q :=
    .anew (hp.imp fun _ _ _ hw hab => ⟨hw, hab⟩)
  exact hboth.seq fun w' a b _ hab => hf w' a b hab.1 hab.2

/-- What is said of the production of the grammar is said only where ids have no width. -/
lemma swap (hp : Runs greatest w base V p q') (h : greatest = none → q = q') :
    Runs greatest w base V p q := by
  rintro hbase m hm rfl
  exact (hp hbase m hm rfl).along (hm.reaches base) fun hnone => by rw [h hnone]

lemma ite {x : Prop} [Decidable x] (hp : Runs greatest w base V p q)
    (hp' : Runs greatest w base V p' q') :
    Runs greatest w base V (if x then p else p') (if x then q else q') := by
  split
  · exact hp
  · exact hp'

end Runs

/-! ### Repetition -/

/-- Rounds that come to the same: seeds that belong together, or results that do. -/
inductive Turns (I : σ → τ → Prop) (V : α → β → Prop) : Round σ α → Round τ β → Prop
  | again {s : σ} {t : τ} (h : I s t) : Turns I V (.again s) (.again t)
  | done {a : α} {b : β} (h : V a b) : Turns I V (.done a) (.done b)

/-- Repetitions belong together if their rounds do. -/
theorem Runs.iterate {I : Array Cell → σ → τ → Prop} {body : σ → Parser (Round σ α)}
    {body' : τ → Grammar.Parser (Round τ β)}
    (hbody : ∀ w s t, I w s t →
      Runs greatest w base (fun w' => Turns (I w') (V w')) (body s) (body' t)) (rounds : ℕ)
    {s : σ} {t : τ} (h : I w s t) :
    Runs greatest w base V (Arena.iterate body rounds s) (Grammar.iterate body' rounds t) := by
  induction rounds generalizing w s t with
  | zero => exact fun _ m _ _ => .exhausted fun _ => ⟨m.state, rfl⟩
  | succ rounds ih =>
    refine .seq (hbody w s t h) fun w' r r' hw hturns => ?_
    cases hturns with
    | again h => exact ih h
    | done h => exact .pure h

/-! ### Contexts -/

/-- What is read in a context that machines enter and leave as the grammar does. -/
lemma Outcome.around {enter : Machine → Machine} {leave : Machine → Option Machine}
    {enter' leave' : State → State} {m : Machine}
    (hstate : (enter m).state = enter' m.state)
    (hleave : ∀ m', (enter m).Reaches greatest base m' → ∃ m'', leave m' = some m'' ∧
      m.Reaches greatest base m'' ∧ m''.nodes = m'.nodes ∧ m''.state = leave' m'.state)
    (hp : Outcome greatest base V (enter m) (p (enter m)) (q (enter m).state)) :
    Outcome greatest base V m (Arena.around enter leave p m)
      (Grammar.around enter' leave' q m.state) := by
  unfold Arena.around Grammar.around
  rw [hstate] at hp
  generalize p (enter m) = r at hp ⊢
  generalize q (enter' m.state) = r' at hp ⊢
  cases hp with
  | ok hreaches hresult hr =>
    obtain ⟨m'', hleave, hreaches', hnodes, hstate⟩ := hleave _ hreaches
    simp only [hleave]
    refine .ok hreaches' (hnodes ▸ hresult) fun hnone => ?_
    rw [hr hnone, hstate]
  | fault hreaches hr =>
    obtain ⟨m'', hleave, hreaches', -, hstate⟩ := hleave _ hreaches
    simp only [hleave]
    refine .fault hreaches' fun hnone => ?_
    rw [hr hnone, hstate]
  | exhausted hr =>
    refine .exhausted fun hnone => ?_
    obtain ⟨s, hs⟩ := hr hnone
    exact ⟨leave' s, by rw [hs]⟩

end Rules

end RubyCheck.Arena
