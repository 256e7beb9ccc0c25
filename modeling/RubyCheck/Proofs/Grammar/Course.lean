import RubyCheck.Proofs.Grammar.Reads

/-!
# The course of reading

What a production comes to from a state on: it gives a result or fails with a fault, and never runs
out of rounds (`Gives`).  While a production runs, a `Course` keeps what was read so far, that fewer
tokens are left than a bound, and what is to be shown if it fails.  There is one rule for each step
that productions are put together from; at the end the nodes of the course close to one node.
-/

namespace RubyCheck.Grammar

variable {α β σ : Type} {F F' : State → Prop} {Q : α → State → Prop} {s s' s₀ s₁ : State}

/-! ### Outcomes -/

/-- From a state on a production gives a result, or fails with a fault; the rounds suffice. -/
def Gives (F : State → Prop) (Q : α → State → Prop) (p : Parser α) (s : State) : Prop :=
  match p s with
  | .ok a s' => Q a s'
  | .error (.fault _) s' => F s'
  | .error .exhausted _ => False

/-- What holds at the end of a round of a repetition that began in some state: another round follows
only if it has fewer tokens left. -/
def Round.Post (R : σ → State → Prop) (Q : α → State → Prop) (s : State) : Round σ α → State → Prop
  | .again a, s' => R a s' ∧ s'.tape.left < s.tape.left
  | .done a, s' => Q a s'

namespace Gives

/-- A result is given where it is. -/
lemma pure {a : α} (h : Q a s) : Gives F Q (Pure.pure a) s := h

/-- Weaker properties hold of what is given and of failures. -/
lemma mono {Q' : α → State → Prop} {p : Parser α} (h : Gives F Q p s)
    (hF : ∀ s', F s' → F' s') (hQ : ∀ a s', Q a s' → Q' a s') : Gives F' Q' p s := by
  unfold Gives at h ⊢
  split
  · rename_i hrun
    rw [hrun] at h
    exact hQ _ _ h
  · rename_i hrun
    rw [hrun] at h
    exact hF _ h
  · rename_i hrun
    rw [hrun] at h
    exact h

/-- Two productions one behind the other. -/
lemma bind {R : β → State → Prop} {p : Parser β} {f : β → Parser α} (hp : Gives F R p s)
    (hf : ∀ a s', R a s' → Gives F Q (f a) s') : Gives F Q (p >>= f) s := by
  unfold Gives at hp
  have hbind : (p >>= f) s = EStateM.bind p f s := rfl
  unfold Gives
  rw [hbind, EStateM.bind]
  cases hrun : p s with
  | ok a s' =>
    rw [hrun] at hp
    exact hf a s' hp
  | error e s' =>
    rw [hrun] at hp
    cases e with
    | fault f => exact hp
    | exhausted => exact hp

/-- The result as a list. -/
lemma one {R : β → State → Prop} {p : Parser β} {f : List β → Parser α} (hp : Gives F R p s)
    (hf : ∀ a s', R a s' → Gives F Q (f [a]) s') :
    Gives F Q ((do return [← p]) >>= f) s := by
  have hone : Gives F (fun as s' => ∃ a, as = [a] ∧ R a s') (do return [← p]) s :=
    hp.bind fun a s' ha => pure ⟨a, rfl, ha⟩
  refine hone.bind fun as s' has => ?_
  obtain ⟨a, rfl, ha⟩ := has
  exact hf a s' ha

/-- What is seen of the state is passed on. -/
lemma view {f : State → β} {k : β → Parser α} (h : Gives F Q (k (f s)) s) :
    Gives F Q (Grammar.view f >>= k) s := h

/-- Reporting goes on in the state that has the fault. -/
lemma report {fault : Fault} {k : Unit → Parser α} (h : Gives F Q (k ()) (s.report fault)) :
    Gives F Q (Grammar.report fault >>= k) s := h

/-- Reporting the current token goes on in the state that has its fault. -/
lemma reportUnexpected {expected : String} {k : Unit → Parser α}
    (h : Gives F Q (k ()) (s.report (s.unexpected expected))) :
    Gives F Q (Grammar.reportUnexpected expected >>= k) s := h

/-- Learning a name goes on in the state that has it. -/
lemma declare {name : String} {k : Unit → Parser α} (h : Gives F Q (k ()) (s.declare name)) :
    Gives F Q (Grammar.declare name >>= k) s := h

/-- One of two productions, which is known. -/
lemma ite {c : Prop} [Decidable c] {p q : Parser α} (hp : c → Gives F Q p s)
    (hq : ¬ c → Gives F Q q s) : Gives F Q (if c then p else q) s := by
  split
  · exact hp ‹_›
  · exact hq ‹_›

/-- What a production gives from a state is told by its run from there. -/
lemma congr {p q : Parser α} (hpq : p s = q s) (h : Gives F Q q s) : Gives F Q p s := by
  unfold Gives at h ⊢
  rwa [hpq]

/-- A failure by a fault is no exhaustion. -/
lemma fail {f : Fault} (h : F s) : Gives F Q (fail f : Parser α) s := h

/-- A refusal is no exhaustion. -/
lemma refuse {expected : String} (h : F s) : Gives F Q (refuse expected : Parser α) s := h

/-- What is read in a changed context. -/
lemma around {Q' : α → State → Prop} {p : Parser α} {enter leave : State → State}
    (h : Gives F' Q' p (enter s)) (hF : ∀ s', F' s' → F (leave s'))
    (hQ : ∀ a s', Q' a s' → Q a (leave s')) : Gives F Q (around enter leave p) s := by
  unfold Gives at h
  unfold Gives Grammar.around
  cases hrun : p (enter s) with
  | ok a s' =>
    rw [hrun] at h
    exact hQ a s' h
  | error e s' =>
    rw [hrun] at h
    cases e with
    | fault f => exact hF s' h
    | exhausted => exact h

/-- A failure that is caught. -/
lemma attempt {Q' : α → State → Prop} {Q : Except Fault α → State → Prop} {p : Parser α}
    (h : Gives F' Q' p s) (hok : ∀ a s', Q' a s' → Q (.ok a) s')
    (herror : ∀ f s', F' s' → Q (.error f) s') : Gives F Q (attempt p) s := by
  unfold Gives at h
  unfold Gives Grammar.attempt
  cases hrun : p s with
  | ok a s' =>
    rw [hrun] at h
    exact hok a s' h
  | error e s' =>
    rw [hrun] at h
    cases e with
    | fault f => exact herror f s' h
    | exhausted => exact h

/-- A repetition whose rounds each leave fewer tokens ends before its rounds run out. -/
theorem iterate {R : σ → State → Prop} {body : σ → Parser (Round σ α)}
    (hbody : ∀ a s, R a s → Gives F (Round.Post R Q s) (body a) s) {rounds : ℕ} {a : σ}
    (hrounds : s.tape.left < rounds) (ha : R a s) : Gives F Q (iterate body rounds a) s := by
  induction rounds generalizing a s with
  | zero => exact absurd hrounds (Nat.not_lt_zero _)
  | succ rounds ih =>
    unfold Grammar.iterate
    refine (hbody a s ha).bind fun round s' hround => ?_
    cases round with
    | again a => exact ih (by have := hround.2; omega) hround.1
    | done a => exact hround

end Gives

/-! ### Productions that read nodes -/

/-- A production that reads a node of a class, and at least some tokens, where fewer than `n` are
left. -/
def Reader (least n : ℕ) (c : NodeClass) (p : Parser Node) : Prop :=
  ∀ ⦃s : State⦄, s.tape.Ends → s.tape.left < n →
    Gives (Passes s)
      (fun m s' => c.has m = true ∧ Reads s [m] s' ∧ s'.tape.left + least ≤ s.tape.left) p s

/-- A production that reads nodes which make up some parts. -/
def ListReader (n : ℕ) (parts : List Part) (p : Parser (List Node)) : Prop :=
  ∀ ⦃s : State⦄, s.tape.Ends → s.tape.left < n →
    Gives (Passes s) (fun ms s' => Fits parts ms ∧ Reads s ms s') p s

/-- A production that reads tokens and makes no node. -/
def Skipper (n : ℕ) (p : Parser α) : Prop :=
  ∀ ⦃s : State⦄, s.tape.Ends → s.tape.left < n → Gives (Passes s) (fun _ s' => Reads s [] s') p s

/-- The end of a production that began in some state: one node of a class. -/
def Yields (c : NodeClass) (b : ℕ) (s₀ : State) (m : Node) (s : State) : Prop :=
  c.has m = true ∧ Reads s₀ [m] s ∧ s.tape.left < b

/-- What was read from a state on, where fewer than `b` tokens are left, and `b` is no more than the
inner goals stand; whatever is done to the state from here on, if it fails then so that `F`
holds. -/
structure Course (F : State → Prop) (n b : ℕ) (s₀ : State) (ns : List Node) (s : State) : Prop where
  reads : Reads s₀ ns s
  ends : s.tape.Ends
  left : s.tape.left < b
  le : b ≤ n
  fails : ∀ s', Passes s s' → F s'

variable {n b b' least : ℕ} {c d : NodeClass} {parts : List Part} {k : NodeKind} {ns ms : List Node}

/-- A course may begin wherever fewer tokens are left than the inner goals stand. -/
lemma Course.begin (hends : s.tape.Ends) (hleft : s.tape.left < n) : Course (Passes s) n n s [] s :=
  ⟨.refl s, hends, hleft, Nat.le_refl n, fun _ hs => hs⟩

/-- What reads no node from the beginning of any course reads none. -/
lemma Skipper.of {p : Parser α}
    (h : ∀ s, Course (Passes s) n n s [] s → Gives (Passes s) (fun _ s' => Reads s [] s') p s) :
    Skipper n p := fun s hends hleft => h s (.begin hends hleft)

/-- What reads a list of nodes from the beginning of any course reads such lists. -/
lemma ListReader.of {p : Parser (List Node)}
    (h : ∀ s, Course (Passes s) n n s [] s →
      Gives (Passes s) (fun ms s' => Fits parts ms ∧ Reads s ms s') p s) :
    ListReader n parts p := fun s hends hleft => h s (.begin hends hleft)

namespace Reader

/-- A production that need not take a token. -/
lemma ofCourse {p : Parser Node}
    (h : ∀ s, Course (Passes s) n n s [] s → Gives (Passes s) (Yields c n s) p s) :
    Reader 0 n c p := fun s hends hleft =>
  (h s (.begin hends hleft)).mono (fun _ hs => hs)
    fun _ _ hm => ⟨hm.1, hm.2.1, hm.2.1.passes.left_le⟩

/-- A reader of nodes of one sort reads nodes of any wider one. -/
lemma mono {p : Parser Node} (h : Reader least n c p) (hc : c.Within d) : Reader least n d p :=
  fun _ hends hleft => (h hends hleft).mono (fun _ h => h) fun m _ hm => ⟨hc m hm.1, hm.2⟩

/-- Where fewer tokens are left. -/
lemma lower {n' : ℕ} {p : Parser Node} (h : Reader least n c p) (hn : n' ≤ n) :
    Reader least n' c p :=
  fun _ hends hleft => h hends (Nat.lt_of_lt_of_le hleft hn)

/-- A context around a production. -/
lemma within (context : Context) {p : Parser Node} (h : Reader least n c p) (hends : s.tape.Ends)
    (hleft : s.tape.left < n) :
    Gives (Passes s)
      (fun m s' => c.has m = true ∧ Reads s [m] s' ∧ s'.tape.left + least ≤ s.tape.left)
      (around context.enter (context.leave s) p) s := by
  refine Gives.around (h ?_ ?_) (fun s' hs' => .within context hs') fun m s' hm => ?_
  · rwa [context.tape_enter]
  · rwa [context.tape_enter]
  · obtain ⟨hclass, hreads, hless⟩ := hm
    rw [context.tape_enter] at hless
    exact ⟨hclass, .within context hreads, by rwa [context.tape_leave]⟩

/-- One level deeper the same nodes are read, or the limit is the fault. -/
lemma nested {p : Parser Node} (h : Reader least n c p) : Reader least n c (nested p) := by
  intro s hends hleft
  by_cases hdepth : s.depth < s.limits.maxDepth
  · exact .congr (if_pos hdepth) (h.within .deeper hends hleft)
  · exact .congr (if_neg hdepth) (.fail (.refl s))

/-- Between brackets the same nodes are read. -/
lemma allowingDo {p : Parser Node} (h : Reader least n c p) : Reader least n c (allowingDo p) :=
  fun _ hends hleft => h.within .allowingDo hends hleft

/-- Where a `do` is withheld the same nodes are read. -/
lemma withholdingDo {p : Parser Node} (h : Reader least n c p) :
    Reader least n c (withholdingDo p) :=
  fun _ hends hleft => h.within .withholdingDo hends hleft

end Reader

namespace ListReader

/-- Lists of nodes are read in a context that is put around them. -/
lemma within (context : Context) {p : Parser (List Node)} (h : ListReader n parts p)
    (hends : s.tape.Ends) (hleft : s.tape.left < n) :
    Gives (Passes s) (fun ms s' => Fits parts ms ∧ Reads s ms s')
      (around context.enter (context.leave s) p) s := by
  refine Gives.around (h ?_ ?_) (fun s' hs' => .within context hs') fun m s' hm => ?_
  · rwa [context.tape_enter]
  · rwa [context.tape_enter]
  · exact ⟨hm.1, .within context hm.2⟩

/-- Between brackets the same lists are read. -/
lemma allowingDo {p : Parser (List Node)} (h : ListReader n parts p) :
    ListReader n parts (allowingDo p) :=
  fun _ hends hleft => h.within .allowingDo hends hleft

/-- Where a `do` is withheld the same lists are read. -/
lemma withholdingDo {p : Parser (List Node)} (h : ListReader n parts p) :
    ListReader n parts (withholdingDo p) :=
  fun _ hends hleft => h.within .withholdingDo hends hleft

end ListReader

/-! ### Steps of a course -/

namespace Course

/-- The goals further in can be read here. -/
lemma left_lt (h : Course F n b s₀ ns s) : s.tape.left < n := Nat.lt_of_lt_of_le h.left h.le

/-- A course that begins here. -/
lemma fresh (h : Course F n b s₀ ns s) : Course F n b s [] s :=
  ⟨.refl s, h.ends, h.left, h.le, h.fails⟩

/-- Another account of what was read so far. -/
lemma retold (h : Course F n b s₀ ns s) (hreads : Reads s₀ ms s) : Course F n b s₀ ms s :=
  ⟨hreads, h.ends, h.left, h.le, h.fails⟩

/-- Another bound. -/
lemma bounded (h : Course F n b s₀ ns s) (hleft : s.tape.left < b') (hb : b' ≤ n) :
    Course F n b' s₀ ns s :=
  ⟨h.reads, h.ends, hleft, hb, h.fails⟩

/-- Going on to another state. -/
lemma go (h : Course F n b s₀ ns s) (hreads : Reads s ms s') (hleft : s'.tape.left < b')
    (hb : b' ≤ n) : Course F n b' s₀ (ns ++ ms) s' :=
  ⟨h.reads.append hreads, hreads.passes.ends h.ends, hleft, hb,
    fun _ hs => h.fails _ (hreads.passes.trans hs)⟩

/-- A course goes on with the nodes that are read. -/
lemma on (h : Course F n b s₀ ns s) (hreads : Reads s ms s') : Course F n b s₀ (ns ++ ms) s' :=
  h.go hreads (Nat.lt_of_le_of_lt hreads.passes.left_le h.left) h.le

/-- A course goes on where no node is read. -/
lemma skip (h : Course F n b s₀ ns s) (hreads : Reads s [] s') : Course F n b s₀ ns s' := by
  simpa using h.on hreads

/-- What was read inside a course, put behind what was read before. -/
lemma join (h : Course F n b s₀ ns s₁) (h' : Course F' n b' s₁ ms s) :
    Course F n b s₀ (ns ++ ms) s :=
  h.on h'.reads

/-- A course may end with a refusal. -/
lemma refuse (h : Course F n b s₀ ns s) {expected : String} :
    Gives F Q (Grammar.refuse expected : Parser α) s := h.fails s (.refl s)

/-- A course may end with a fault. -/
lemma fail (h : Course F n b s₀ ns s) {f : Fault} : Gives F Q (Grammar.fail f : Parser α) s :=
  h.fails s (.refl s)

/-! #### Tokens -/

/-- A course goes on behind the current token, unless it is the end of the text. -/
lemma advanced (h : Course F n b s₀ ns s) (hkind : s.tape.kind ≠ .eof) :
    Course F n b s₀ ns s.advanced :=
  h.skip (.steps (h.ends.consumable hkind).steps)

/-- Consuming a token leaves fewer. -/
lemma advanced' (h : Course F n b s₀ ns s) (hkind : s.tape.kind ≠ .eof) :
    Course F n s.tape.left s₀ ns s.advanced := by
  have hmore := h.ends.consumable hkind
  have hgo : Course F n s.tape.left s₀ (ns ++ []) s.advanced :=
    h.go (.steps hmore.steps) hmore.left_advance (Nat.le_of_lt h.left_lt)
  rwa [List.append_nil] at hgo

/-- A course forgets a token, and keeps its bound. -/
lemma drop {f : Unit → Parser α} (h : Course F n b s₀ ns s)
    (hf : Course F n b s₀ ns s.advanced → Gives F Q (f ()) s.advanced) :
    Gives F Q (Grammar.drop >>= f) s := hf (h.skip (.steps s.tape.steps_advance))

/-- A course forgets a token that is not the end of the text, and fewer tokens are left. -/
lemma drop' {f : Unit → Parser α} (h : Course F n b s₀ ns s) (hkind : s.tape.kind ≠ .eof)
    (hf : Course F n s.tape.left s₀ ns s.advanced → Gives F Q (f ()) s.advanced) :
    Gives F Q (Grammar.drop >>= f) s := hf (h.advanced' hkind)

/-- A course consumes a token that is not the end of the text. -/
lemma take {f : Token → Parser α} (h : Course F n b s₀ ns s) (hkind : s.tape.kind ≠ .eof)
    (hf : Course F n b s₀ ns s.advanced → Gives F Q (f s.tape.current) s.advanced) :
    Gives F Q (advance >>= f) s := by
  have hprevious := (h.ends.consumable hkind).previous_advance
  change Gives F Q (f s.tape.advance.previous) s.advanced
  rw [hprevious]
  exact hf (h.advanced hkind)

/-- A token that may stand here. -/
lemma accept {p q : Parser α} {mark : TokenKind} (h : Course F n b s₀ ns s) (hmark : mark ≠ .eof)
    (hp : s.tape.kind = mark → Course F n b s₀ ns s.advanced → Gives F Q p s.advanced)
    (hq : Gives F Q q s) :
    Gives F Q (Grammar.accept mark >>= fun found => if found then p else q) s := by
  have hview : (Grammar.accept mark >>= fun found => if found then p else q) s =
      ((if s.tape.kind == mark then (do Grammar.drop; Pure.pure (s.tape.kind == mark))
        else Pure.pure (s.tape.kind == mark)) >>= fun found =>
          if found then p else q : Parser α) s := rfl
  rw [Gives, hview]
  by_cases hkind : s.tape.kind = mark
  · have hcheck : (s.tape.kind == mark) = true := by simpa using hkind
    rw [hcheck]
    exact hp hkind (h.advanced (hkind ▸ hmark))
  · have hcheck : (s.tape.kind == mark) = false := by simpa using hkind
    rw [hcheck]
    exact hq

/-! #### Productions -/

/-- A course reads a node of some sort. -/
lemma node {p : Parser Node} {f : Node → Parser α} (h : Course F n b s₀ ns s)
    (hp : Reader least n c p)
    (hf : ∀ m s', c.has m = true → Course F n b s₀ (ns ++ [m]) s' → Gives F Q (f m) s') :
    Gives F Q (p >>= f) s := by
  refine ((hp h.ends h.left_lt).mono h.fails fun _ _ hm => hm).bind fun m s' hm => ?_
  exact hf m s' hm.1 (h.on hm.2.1)

/-- Reading a node that takes a token leaves fewer. -/
lemma node' {p : Parser Node} {f : Node → Parser α} (h : Course F n b s₀ ns s) (hp : Reader 1 n c p)
    (hf : ∀ m s', c.has m = true → Course F n s.tape.left s₀ (ns ++ [m]) s' → Gives F Q (f m) s') :
    Gives F Q (p >>= f) s := by
  refine ((hp h.ends h.left_lt).mono h.fails fun _ _ hm => hm).bind fun m s' hm => ?_
  exact hf m s' hm.1 (h.go hm.2.1 hm.2.2 (Nat.le_of_lt h.left_lt))

/-- A course reads nodes that fit into some parts. -/
lemma nodes {p : Parser (List Node)} {f : List Node → Parser α} (h : Course F n b s₀ ns s)
    (hp : ListReader n parts p)
    (hf : ∀ ms s', Fits parts ms → Course F n b s₀ (ns ++ ms) s' → Gives F Q (f ms) s') :
    Gives F Q (p >>= f) s := by
  refine ((hp h.ends h.left_lt).mono h.fails fun _ _ hm => hm).bind fun ms s' hm => ?_
  exact hf ms s' hm.1 (h.on hm.2)

/-- A course goes on past what reads no node. -/
lemma silent {p : Parser β} {f : β → Parser α} (h : Course F n b s₀ ns s) (hp : Skipper n p)
    (hf : ∀ a s', Course F n b s₀ ns s' → Gives F Q (f a) s') : Gives F Q (p >>= f) s := by
  refine ((hp h.ends h.left_lt).mono h.fails fun _ _ hm => hm).bind fun a s' hs' => ?_
  exact hf a s' (h.skip hs')

/-- Nodes that are read in place of what is left of a production. -/
lemma tail {p : Parser (List Node)} (h : Course F n b s₀ [] s) (hp : ListReader n parts p) :
    Gives F (fun ms s' => Fits parts ms ∧ Reads s₀ ms s') p s :=
  (hp h.ends h.left_lt).mono h.fails fun _ _ hms => ⟨hms.1, h.reads.append hms.2⟩

/-- A node that is read in place of what is left of a production. -/
lemma last {p : Parser Node} (h : Course F n b s₀ [] s) (hp : Reader least n c p) :
    Gives F (Yields c b s₀) p s := by
  refine (hp h.ends h.left_lt).mono h.fails fun m s' hm => ?_
  have hpasses := hm.2.1.passes
  exact ⟨hm.1, h.reads.append hm.2.1, Nat.lt_of_le_of_lt hpasses.left_le h.left⟩

/-! #### Ends -/

/-- The nodes of a course close to one node. -/
lemma finish (h : Course F n b s₀ ns s) (hk : k.isMarked = false) (hfits : Fits k.layout ns)
    (hinert : ∀ span, (⟨k, span, none, ns⟩ : Node).isInert = true)
    (hc : ∀ span, c.has ⟨k, span, none, ns⟩ = true) :
    Gives F (Yields c b s₀) (Grammar.finish k s₀.start ns) s :=
  ⟨hc _, .unmarked h.reads hfits (hinert _) hk, h.left⟩

/-- A course closes to a node with a text. -/
lemma finishNamed {text : String} (h : Course F n b s₀ ns s) (hk : k.isMarked = false)
    (hfits : Fits k.layout ns)
    (hinert : ∀ span, (⟨k, span, some text, ns⟩ : Node).isInert = true)
    (hc : ∀ span, c.has ⟨k, span, some text, ns⟩ = true) :
    Gives F (Yields c b s₀) (Grammar.finishNamed k s₀.start text ns) s :=
  ⟨hc _, .unmarked h.reads hfits (hinert _) hk, h.left⟩

/-- What was read behind a first token closes with it to one node. -/
lemma marked (h : Course F n b s₀.advanced ns s) (hmore : s₀.tape.Consumable)
    (hwritten : s₀.tape.kind.isWritten = true) (hfits : Fits k.layout ns)
    (hinert : ∀ span, (⟨k, span, none, ns⟩ : Node).isInert = true)
    (hc : ∀ span, c.has ⟨k, span, none, ns⟩ = true) :
    Gives F (Yields c b s₀) (Grammar.finish k s₀.start ns) s :=
  ⟨hc _, .marked h.reads hmore hwritten hfits (hinert _), h.left⟩

/-- A course behind its first token closes to a node with a text, which is marked by that token. -/
lemma markedNamed {text : String} (h : Course F n b s₀.advanced ns s)
    (hmore : s₀.tape.Consumable) (hwritten : s₀.tape.kind.isWritten = true)
    (hfits : Fits k.layout ns)
    (hinert : ∀ span, (⟨k, span, some text, ns⟩ : Node).isInert = true)
    (hc : ∀ span, c.has ⟨k, span, some text, ns⟩ = true) :
    Gives F (Yields c b s₀) (Grammar.finishNamed k s₀.start text ns) s :=
  ⟨hc _, .marked h.reads hmore hwritten hfits (hinert _), h.left⟩

/-- The nodes read inside a course close to one node of it. -/
lemma wrap {f : Node → Parser α} (h : Course F n b s₀ ns s₁) (hk : k.isMarked = false)
    (h' : Course F' n b' s₁ ms s)
    (hfits : Fits k.layout ms) (hinert : ∀ span, (⟨k, span, none, ms⟩ : Node).isInert = true)
    (hf : ∀ m, m.kind = k → Course F n b s₀ (ns ++ [m]) s → Gives F Q (f m) s)
    :
    Gives F Q (Grammar.finish k s₁.start ms >>= f) s :=
  hf _ rfl (h.on (.unmarked h'.reads hfits (hinert _) hk))

/-- A node that was read is all that is given. -/
lemma yield {m : Node} (h : Course F n b s₀ [m] s) (hc : c.has m = true) :
    Gives F (Yields c b s₀) (Pure.pure m) s := ⟨hc, h.reads, h.left⟩

end Course

/-! ### The beginning of a production -/

/-- In front of a production that consumes a token before it asks for goals further in. -/
structure Ready (F : State → Prop) (n : ℕ) (s : State) : Prop where
  ends : s.tape.Ends
  left : s.tape.left ≤ n
  fails : ∀ s', Passes s s' → F s'

/-- In the middle of a course a production may begin. -/
lemma Course.ready (h : Course F n b s₀ ns s) : Ready F n s :=
  ⟨h.ends, Nat.le_of_lt h.left_lt, h.fails⟩

/-- What closes its course to one node, from wherever a production may begin, reads nodes. -/
lemma Reader.of {p : Parser Node}
    (h : ∀ s, Ready (Passes s) n s → Gives (Passes s) (Yields c s.tape.left s) p s) :
    Reader 1 (n + 1) c p :=
  fun s hends hleft => h s ⟨hends, Nat.le_of_lt_succ hleft, fun _ h => h⟩

namespace Ready

/-- A production may begin with a refusal. -/
lemma refuse (h : Ready F n s) {expected : String} :
    Gives F Q (Grammar.refuse expected : Parser α) s := h.fails s (.refl s)

/-- The course behind the first token. -/
lemma advanced (h : Ready F n s) (hkind : s.tape.kind ≠ .eof) :
    Course F n s.tape.left s [] s.advanced where
  reads := .steps (h.ends.consumable hkind).steps
  ends := Tape.onward_ends.steps (h.ends.consumable hkind).steps h.ends
  left := (h.ends.consumable hkind).left_advance
  le := h.left
  fails s' hs := h.fails s' (.trans (.steps (h.ends.consumable hkind).steps) hs)

/-- A production forgets its first token. -/
lemma drop {f : Unit → Parser α} (h : Ready F n s) (hkind : s.tape.kind ≠ .eof)
    (hf : Course F n s.tape.left s [] s.advanced → Gives F Q (f ()) s.advanced) :
    Gives F Q (Grammar.drop >>= f) s := hf (h.advanced hkind)

/-- A production consumes its first token. -/
lemma take {f : Token → Parser α} (h : Ready F n s) (hkind : s.tape.kind ≠ .eof)
    (hf : Course F n s.tape.left s [] s.advanced → Gives F Q (f s.tape.current) s.advanced) :
    Gives F Q (advance >>= f) s := by
  have hprevious := (h.ends.consumable hkind).previous_advance
  change Gives F Q (f s.tape.advance.previous) s.advanced
  rw [hprevious]
  exact hf (h.advanced hkind)

/-- A token that has to stand here. -/
lemma expect {f : Token → Parser α} {mark : TokenKind} (h : Ready F n s) (hmark : mark ≠ .eof)
    (hf : s.tape.kind = mark → Course F n s.tape.left s [] s.advanced →
      Gives F Q (f s.tape.current) s.advanced) :
    Gives F Q (Grammar.expect mark >>= f) s := by
  unfold Grammar.expect
  by_cases hkind : s.tape.kind = mark
  · have hcheck : (s.tape.kind == mark) = true := by simpa using hkind
    change Gives F Q ((if (s.tape.kind == mark) = true then advance
      else Grammar.refuse mark.display : Parser Token) >>= f) s
    rw [if_pos hcheck]
    exact h.take (hkind ▸ hmark) (hf hkind)
  · have hcheck : ¬ (s.tape.kind == mark) = true := by simpa using hkind
    change Gives F Q ((if (s.tape.kind == mark) = true then advance
      else Grammar.refuse mark.display : Parser Token) >>= f) s
    rw [if_neg hcheck]
    exact Gives.bind (R := fun _ _ => False) h.refuse fun _ _ hs => hs.elim

/-- A production in place of this one. -/
lemma tail {p : Parser Node} (h : Ready F n s) (hp : Reader 1 (n + 1) c p) :
    Gives F (Yields c s.tape.left s) p s :=
  (hp h.ends (Nat.lt_succ_of_le h.left)).mono h.fails fun _ _ hm => hm

/-- A production reads a node at its beginning, where nothing was consumed yet. -/
lemma node {p : Parser Node} {f : Node → Parser α} (h : Ready F n s) (hp : Reader 1 (n + 1) c p)
    (hf : ∀ m s', c.has m = true → Course F n s.tape.left s [m] s' → Gives F Q (f m) s') :
    Gives F Q (p >>= f) s := by
  refine (h.tail hp).bind fun m s' hm => hf m s' hm.1 ?_
  have hpasses := hm.2.1.passes
  exact ⟨hm.2.1, hpasses.ends h.ends, hm.2.2, h.left, fun _ hs => h.fails _ (hpasses.trans hs)⟩

/-- The leaf for a token that was just consumed. -/
lemma leafThen {text : String} {f : Node → Parser α} (h : Ready F n s) (hkind : s.tape.kind ≠ .eof)
    (hf : Gives F Q (f (.leaf k s.tape.current.span text)) s.advanced) :
    Gives F Q (Grammar.leaf k text >>= f) s.advanced := by
  have hprevious := (h.ends.consumable hkind).previous_advance
  change Gives F Q (f (.leaf k s.tape.advance.previous.span text)) s.advanced
  rwa [hprevious]

/-- A token by itself. -/
lemma leaf {text : String} (h : Ready F n s) (hkind : s.tape.kind ≠ .eof) (hfits : Fits k.layout [])
    (hinert : ∀ span, (Node.leaf k span text).isInert = true)
    (hc : ∀ span, c.has (Node.leaf k span text) = true)
    (hk : k.isMarked = true → s.tape.kind.isWritten = true) :
    Gives F (Yields c s.tape.left s) (Grammar.leaf k text) s.advanced := by
  have hmore := h.ends.consumable hkind
  change Yields c s.tape.left s (.leaf k s.tape.advance.previous.span text) s.advanced
  rw [hmore.previous_advance]
  have hmarks : s.Marks k := fun hmarked => ⟨hmore, hk hmarked⟩
  exact ⟨hc _, .leaf k text hmore hfits (hinert _) hmarks, hmore.left_advance⟩

end Ready

namespace Course

/-- A node that a production reads which stands at this level. -/
lemma own {p : Parser Node} {f : Node → Parser α} (h : Course F n b s₀ ns s)
    (hp : Gives F (Yields c s.tape.left s) p s)
    (hf : ∀ m s', c.has m = true → Course F n b s₀ (ns ++ [m]) s' → Gives F Q (f m) s') :
    Gives F Q (p >>= f) s :=
  hp.bind fun m s' hm => hf m s' hm.1 (h.on hm.2.1)

/-- A course reads a node of its own, behind which fewer tokens are left. -/
lemma own' {p : Parser Node} {f : Node → Parser α} (h : Course F n b s₀ ns s)
    (hp : Gives F (Yields c s.tape.left s) p s)
    (hf : ∀ m s', c.has m = true → Course F n s.tape.left s₀ (ns ++ [m]) s' → Gives F Q (f m) s') :
    Gives F Q (p >>= f) s :=
  hp.bind fun m s' hm => hf m s' hm.1 (h.go hm.2.1 hm.2.2 (Nat.le_of_lt h.left_lt))

end Course

/-! ### Scopes -/

/-- The end of a production that stands in a scope and closes to one node: the last children of the
node were read inside the scope. -/
def Built (c : NodeClass) (b : ℕ) (s₀ : State) (outer : List Node) (closed : Bool) (s₁ : State)
    (m : Node) (s : State) : Prop :=
  ∃ k text inner, m = ⟨k, s.spanFrom s₀.start, text, outer ++ inner⟩ ∧ Reads s₁ inner s ∧
    s.tape.left < b ∧ Fits k.layout (outer ++ inner) ∧ m.opens = some (closed, outer.length) ∧
    c.has m = true ∧ k.isMarked = false

/-- A course with more behind it that was read in a scope. -/
structure Scoped (F : State → Prop) (n b : ℕ) (s₀ : State) (outer : List Node) (closed : Bool)
    (inner : List Node) (s : State) : Prop where
  reads : ∃ s₁ s₂, Reads s₀ outer s₁ ∧ Reads (s₁.enterScope closed) inner s₂ ∧
    Reads s₂.leaveScope [] s
  ends : s.tape.Ends
  left : s.tape.left < b
  le : b ≤ n
  fails : ∀ s', Passes s s' → F s'

variable {outer inner : List Node} {closed : Bool}

namespace Course

/-- A production that closes to a node inside a scope. -/
lemma inScope {p : Parser Node} (h : Course F n b s₀ outer s)
    (hp : ∀ s₁, s₁.tape = s.tape → Course (Passes s₁) n b s₁ [] s₁ →
      Gives (Passes s₁) (Built c b' s₀ outer closed s₁) p s₁) :
    Gives F (Yields c b' s₀) (Grammar.inScope closed (allowingDo p)) s := by
  set s₁ := s.enterScope closed
  have hinside : Course (Passes (Context.allowingDo.enter s₁)) n b (Context.allowingDo.enter s₁) []
      (Context.allowingDo.enter s₁) :=
    ⟨.refl _, h.ends, h.left, h.le, fun _ hs => hs⟩
  have hallowed : Gives (Passes s₁) (Built c b' s₀ outer closed s₁) (allowingDo p) s₁ := by
    refine Gives.around (hp _ rfl hinside) (fun _ hs => .within .allowingDo hs) fun m s' hm => ?_
    obtain ⟨k, text, inner, hm, hreads, hrest⟩ := hm
    exact ⟨k, text, inner, hm, .within .allowingDo hreads, hrest⟩
  refine Gives.around hallowed (fun _ hs => h.fails _ (.inScope closed hs)) fun m s' hm => ?_
  obtain ⟨k, text, inner, rfl, hreads, hleft, hfits, hopens, hc, hk⟩ := hm
  exact ⟨hc, .unmarkedScope h.reads hreads (.refl _) hfits hopens hk, hleft⟩

/-- The end of a production inside a scope. -/
lemma built (h : Course F n b s₁ inner s) (hk : k.isMarked = false)
    (hfits : Fits k.layout (outer ++ inner))
    (hopens : ∀ span, (⟨k, span, none, outer ++ inner⟩ : Node).opens = some (closed, outer.length))
    (hc : ∀ span, c.has ⟨k, span, none, outer ++ inner⟩ = true)
    :
    Gives F (Built c b s₀ outer closed s₁) (Grammar.finish k s₀.start (outer ++ inner)) s :=
  ⟨k, none, inner, rfl, h.reads, h.left, hfits, hopens _, hc _, hk⟩

/-- A course in a scope closes to a node with a text that opens the scope. -/
lemma builtNamed {text : String} (h : Course F n b s₁ inner s) (hk : k.isMarked = false)
    (hfits : Fits k.layout (outer ++ inner))
    (hopens : ∀ span,
      (⟨k, span, some text, outer ++ inner⟩ : Node).opens = some (closed, outer.length))
    (hc : ∀ span, c.has ⟨k, span, some text, outer ++ inner⟩ = true)
    :
    Gives F (Built c b s₀ outer closed s₁)
      (Grammar.finishNamed k s₀.start text (outer ++ inner)) s :=
  ⟨k, some text, inner, rfl, h.reads, h.left, hfits, hopens _, hc _, hk⟩

/-- Something that is read in a scope, with the nodes it is made of. -/
lemma inside {p : Parser β} {f : β → Parser α} {P : β → Prop} (h : Course F n b s₀ outer s)
    (nodes : β → List Node)
    (hp : ∀ ⦃s : State⦄, s.tape.Ends → s.tape.left < n →
      Gives (Passes s) (fun a s' => P a ∧ Reads s (nodes a) s') p s)
    (hf : ∀ a s', P a → Scoped F n b s₀ outer closed (nodes a) s' → Gives F Q (f a) s') :
    Gives F Q (Grammar.inScope closed (allowingDo p) >>= f) s := by
  have hallowed : Gives (Passes (s.enterScope closed))
      (fun a s' => P a ∧ Reads (s.enterScope closed) (nodes a) s') (allowingDo p)
      (s.enterScope closed) :=
    Gives.around (hp (s := Context.allowingDo.enter (s.enterScope closed)) h.ends h.left_lt)
      (fun _ hs => .within .allowingDo hs) fun _ _ ha => ⟨ha.1, .within .allowingDo ha.2⟩
  have hscope : Gives F
      (fun a s' => ∃ s₂, P a ∧ Reads (s.enterScope closed) (nodes a) s₂ ∧ s' = s₂.leaveScope)
      (Grammar.inScope closed (allowingDo p)) s :=
    Gives.around hallowed (fun _ hs => h.fails _ (.inScope closed hs)) fun _ s' ha =>
      ⟨s', ha.1, ha.2, rfl⟩
  refine hscope.bind fun a s' ha => ?_
  obtain ⟨s₂, hP, hreads, rfl⟩ := ha
  have hpasses : Passes s s₂.leaveScope := .inScope closed hreads.passes
  refine hf a _ hP ⟨⟨s, s₂, h.reads, hreads, .refl _⟩, hpasses.ends h.ends, ?_, h.le, ?_⟩
  · exact Nat.lt_of_le_of_lt hpasses.left_le h.left
  · exact fun _ hs => h.fails _ (hpasses.trans hs)

end Course

namespace Scoped

/-- A course in a scope goes on past what reads no node. -/
lemma silent {p : Parser β} {f : β → Parser α} (h : Scoped F n b s₀ outer closed inner s)
    (hp : Skipper n p)
    (hf : ∀ a s', Scoped F n b s₀ outer closed inner s' → Gives F Q (f a) s') :
    Gives F Q (p >>= f) s := by
  have hleft := Nat.lt_of_lt_of_le h.left h.le
  refine ((hp h.ends hleft).mono h.fails fun _ _ hs => hs).bind fun a s' hs' => hf a s' ?_
  obtain ⟨s₁, s₂, houter, hinner, hbehind⟩ := h.reads
  have hpasses := hs'.passes
  have hreads : Reads s₂.leaveScope [] s' := by simpa using hbehind.append hs'
  refine ⟨⟨s₁, s₂, houter, hinner, hreads⟩, hpasses.ends h.ends, ?_, h.le, ?_⟩
  · exact Nat.lt_of_le_of_lt hpasses.left_le h.left
  · exact fun _ hs => h.fails _ (hpasses.trans hs)

/-- A course in a scope closes to a node that opens the scope. -/
lemma finish (h : Scoped F n b s₀ outer closed inner s) (hk : k.isMarked = false)
    (hfits : Fits k.layout (outer ++ inner))
    (hopens : ∀ span, (⟨k, span, none, outer ++ inner⟩ : Node).opens = some (closed, outer.length))
    (hc : ∀ span, c.has ⟨k, span, none, outer ++ inner⟩ = true)
    :
    Gives F (Yields c b s₀) (Grammar.finish k s₀.start (outer ++ inner)) s := by
  obtain ⟨s₁, s₂, houter, hinner, hbehind⟩ := h.reads
  exact ⟨hc _, .unmarkedScope houter hinner hbehind hfits (hopens _) hk, h.left⟩

/-- The end of a production that has consumed a token of its own in front of its nodes. -/
lemma marked (h : Scoped F n b s₀.advanced outer closed inner s) (hmore : s₀.tape.Consumable)
    (hwritten : s₀.tape.kind.isWritten = true) (hfits : Fits k.layout (outer ++ inner))
    (hopens : ∀ span, (⟨k, span, none, outer ++ inner⟩ : Node).opens = some (closed, outer.length))
    (hc : ∀ span, c.has ⟨k, span, none, outer ++ inner⟩ = true) :
    Gives F (Yields c b s₀) (Grammar.finish k s₀.start (outer ++ inner)) s := by
  obtain ⟨s₁, s₂, houter, hinner, hbehind⟩ := h.reads
  have hall : Reads s₀ ([] ++ outer) s₁ := (Reads.steps hmore.steps).append houter
  have hscope := Reads.scope hall hinner hbehind hfits (hopens _) (fun _ => ⟨hmore, hwritten⟩)
    fun _ => houter
  exact ⟨hc _, hscope, h.left⟩

/-- A course in a scope closes to a node with a text that opens the scope. -/
lemma finishNamed {text : String} (h : Scoped F n b s₀ outer closed inner s)
    (hk : k.isMarked = false)
    (hfits : Fits k.layout (outer ++ inner))
    (hopens : ∀ span,
      (⟨k, span, some text, outer ++ inner⟩ : Node).opens = some (closed, outer.length))
    (hc : ∀ span, c.has ⟨k, span, some text, outer ++ inner⟩ = true)
    :
    Gives F (Yields c b s₀) (Grammar.finishNamed k s₀.start text (outer ++ inner)) s := by
  obtain ⟨s₁, s₂, houter, hinner, hbehind⟩ := h.reads
  exact ⟨hc _, .unmarkedScope houter hinner hbehind hfits (hopens _) hk, h.left⟩

end Scoped

/-! ### Lists -/

/-- The nodes that a repetition has seen so far, last first. -/
structure Seen (F : State → Prop) (n b : ℕ) (s₀ : State) (c : NodeClass) (seen : List Node)
    (s : State) : Prop where
  course : Course F n b s₀ seen.reverse s
  each : ∀ m ∈ seen, c.has m = true

/-- The end of a round of a repetition that reads nodes of a class. -/
abbrev Seen.Post (F : State → Prop) (n : ℕ) (s₀ : State) (c : NodeClass) (s : State) :
    Round (List Node) (List Node) → State → Prop :=
  Round.Post (Seen F n n s₀ c) (fun ms s' => Fits [.many c] ms ∧ Reads s₀ ms s') s

namespace Seen

variable {seen : List Node} {m : Node}

/-- The items of a list are kept past what reads no node. -/
lemma silent {p : Parser β} {f : β → Parser α} (h : Seen F n b s₀ c seen s) (hp : Skipper n p)
    (hf : ∀ a s', Seen F n b s₀ c seen s' → Gives F Q (f a) s') : Gives F Q (p >>= f) s :=
  h.course.silent hp fun a s' hs' => hf a s' ⟨hs', h.each⟩

/-- The items of a list are kept behind a token that is forgotten. -/
lemma drop {f : Unit → Parser α} (h : Seen F n b s₀ c seen s)
    (hf : Seen F n b s₀ c seen s.advanced → Gives F Q (f ()) s.advanced) :
    Gives F Q (Grammar.drop >>= f) s :=
  h.course.drop fun hs => hf ⟨hs, h.each⟩

/-- One more node was seen. -/
lemma cons (h : Seen F n b s₀ c seen s) (hm : c.has m = true)
    (h' : Course F n b' s₀ (seen.reverse ++ [m]) s') : Seen F n b' s₀ c (m :: seen) s' :=
  ⟨by rwa [List.reverse_cons], List.forall_mem_cons.mpr ⟨hm, h.each⟩⟩

/-- Nothing more follows. -/
lemma done (h : Seen F n b s₀ c seen s') :
    Gives F (Seen.Post F n s₀ c s) (pure (.done seen.reverse)) s' :=
  ⟨.many fun m hm => h.each m (List.mem_reverse.mp hm), h.course.reads⟩

/-- Another round follows, with fewer tokens left. -/
lemma again (h : Seen F n b s₀ c seen s') (hb : b ≤ s.tape.left) :
    Gives F (Seen.Post F n s₀ c s) (pure (.again seen)) s' :=
  ⟨⟨⟨h.course.reads, h.course.ends, h.course.left_lt, Nat.le_refl n, h.course.fails⟩, h.each⟩,
    Nat.lt_of_lt_of_le h.course.left hb⟩

end Seen

/-- A repetition that reads nodes of a class. -/
lemma ListReader.iterate {body : List Node → Parser (Round (List Node) (List Node))} {rounds : ℕ}
    (hrounds : n ≤ rounds)
    (hbody : ∀ s₀ seen s, Seen (Passes s₀) n (s.tape.left + 1) s₀ c seen s →
      Gives (Passes s₀) (Seen.Post (Passes s₀) n s₀ c s) (body seen) s) :
    ListReader n [.many c] (Grammar.iterate body rounds []) := by
  intro s hends hleft
  refine Gives.iterate (R := Seen (Passes s) n n s c) (fun seen s' h => hbody s seen s' ?_)
    (Nat.lt_of_lt_of_le hleft hrounds) ?_
  · obtain ⟨⟨hreads, hends, hleft, -, hfails⟩, heach⟩ := h
    exact ⟨⟨hreads, hends, Nat.lt_succ_self _, hleft, hfails⟩, heach⟩
  · exact ⟨.begin hends hleft, by simp⟩

end RubyCheck.Grammar
