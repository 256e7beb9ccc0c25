import RubyCheck.Grammar.Program
import RubyCheck.Proofs.Grammar.Limits
import RubyCheck.Proofs.Tree.Nesting
import RubyCheck.Proofs.Tree.Spelled

/-!
# What productions give, and where they fail

A production reads at a place: some tokens, the limits, and a number of constructs that are open
around it.  `Keeps` says of a production that it stays at its place, whether it gives a result or
fails, that what it gives has a property, and that all the faults it reports or fails with are
raised at tokens of the place.  There is one rule for each step that productions are made of.

A node that fits a place (`Place.Apt`) begins where a token does, no path through it leads deeper
than the limits allow from there, and every literal in it is written as tokens of the place are.  An element or
argument (`Place.Item`) is read one level deeper than its place, unless it is spread.
-/

namespace RubyCheck

/-- A fault raised at a token of some tokens: it is reported where the token begins, or, if the text
ended too soon, where it stops. -/
def Fault.RaisedAt (ts : List Token) (f : Fault) : Prop :=
  ∃ t ∈ ts, f.span.start = t.span.start ∨ f.span = .point t.span.stop

/-- A fault of the grammar, raised at a token of some tokens. -/
structure Fault.Raised (ts : List Token) (f : Fault) : Prop where
  raisedAt : f.RaisedAt ts
  grammatical : f.isLexical = false

namespace Tape

variable {ts : List Token} {begun : Bool} {tape tape' : Tape}

/-- A tape over tokens among some tokens, at least one of which was consumed if reading has begun. -/
structure Among (ts : List Token) (begun : Bool) (tape : Tape) : Prop where
  ends : tape.Ends
  suffix : tape.current :: tape.ahead <:+ ts
  previous : begun = true ∨ tape.kind = .eof → tape.previous ∈ ts

namespace Among

/-- The current token is one of the tokens that are read. -/
lemma current_mem (h : tape.Among ts begun) : tape.current ∈ ts :=
  h.suffix.subset List.mem_cons_self

/-- Where a token was consumed, less may be claimed. -/
lemma weaken (h : tape.Among ts true) : tape.Among ts begun :=
  ⟨h.ends, h.suffix, fun _ => h.previous (.inl rfl)⟩

/-- Behind a step, reading has begun. -/
lemma step {consumed : Option Token} {t u : Token} {us : List Token}
    (h : Among ts begun ⟨consumed, t, u :: us⟩) : Among ts true ⟨some t, u, us⟩ :=
  ⟨onward_ends h.ends, (List.suffix_cons t _).trans h.suffix, fun _ => h.current_mem⟩

/-- Going on along the tape stays among the tokens that are read. -/
lemma steps (h : tape.Among ts begun) (hsteps : tape.Steps tape') : tape'.Among ts begun :=
  Onward.steps (fun _ _ _ _ h => h.step.weaken) hsteps h

/-- Giving up goes on to the last of the tokens that are read. -/
lemma toLast (h : tape.Among ts begun) : tape.toLast.Among ts begun :=
  Onward.toLast (fun _ _ _ _ h => h.step.weaken) h

/-- At the end of the text nothing is consumed, but there reading has begun. -/
lemma advance (h : tape.Among ts begun) : tape.advance.Among ts true := by
  by_cases hkind : tape.kind = .eof
  · exact (Among.steps ⟨h.ends, h.suffix, fun _ => h.previous (.inr hkind)⟩ tape.steps_advance)
  · obtain ⟨consumed, t, u, us, rfl, -, hadvance⟩ := (h.ends.consumable hkind).exists_advance
    rw [hadvance]
    exact h.step

end Among

end Tape

/-- Whether a node of a kind fits where its children do, whatever its text. -/
def NodeKind.carries (k : NodeKind) : Bool := !k.deepens && !k.isSpelled

/-- A node that only carries its children deepens nothing and spells nothing. -/
lemma NodeKind.of_carries {k : NodeKind} (h : k.carries = true) :
    k.deepens = false ∧ k.isSpelled = false := by
  simpa [carries] using h

namespace Grammar

variable {α β σ : Type}

/-! ### Places -/

/-- Where a production reads: the tokens, the limits, and how many constructs are open around. -/
structure Place where
  tokens : List Token
  limits : Limits
  depth : ℕ

namespace Place

/-- The same place one level deeper. -/
def deeper (e : Place) : Place := { e with depth := e.depth + 1 }

/-- A position where a token begins. -/
def Begins (e : Place) (p : Position) : Prop := ∃ t ∈ e.tokens, p = t.span.start

/-- A node that begins at a token and leads no deeper than may be, and whose literals are written
with tokens of the place. -/
structure Apt (e : Place) (n : Node) : Prop where
  begins : e.Begins n.span.start
  shallow : n.Shallow (e.limits.maxDepth + 1 - e.depth)
  spelled : n.Everywhere (Node.Spelled e.tokens)

/-- A node that stands among parameters. -/
structure Bound (e : Place) (n : Node) : Prop where
  apt : e.Apt n
  binds : n.binds = true

/-- A node that is read one level deeper unless it is spread. -/
structure Item (e : Place) (n : Node) : Prop where
  apt : e.Apt n
  deeper : n.kind.spreads = false → e.deeper.Apt n

variable {e : Place} {n n' : Node} {ns : List Node}

/-- What is apt one level deeper is apt here. -/
lemma Apt.of_deeper (h : e.deeper.Apt n) : e.Apt n :=
  ⟨h.begins, h.shallow.mono (by simp only [deeper]; omega), h.spelled⟩

/-- What is apt one level deeper is an element here. -/
lemma Item.of_deeper (h : e.deeper.Apt n) : e.Item n := ⟨h.of_deeper, fun _ => h⟩

/-- What spreads its value is an element where it stands. -/
lemma Item.of_spreads (h : e.Apt n) (hspreads : n.kind.spreads = true) : e.Item n :=
  ⟨h, by simp [hspreads]⟩

namespace Apt

/-- A node that is written as its kind has it, and whose children are read where it stands. -/
lemma of_spelled (hbegins : e.Begins n.span.start) (hdeepens : n.kind.deepens = false)
    (hspelled : n.Spelled e.tokens) (h : ∀ m ∈ n.children, e.Apt m) : e.Apt n :=
  ⟨hbegins, .of_children hdeepens fun m hm => (h m hm).shallow,
    .intro hspelled fun m hm => (h m hm).spelled⟩

/-- A node whose children are read where it stands. -/
lemma of_children (hbegins : e.Begins n.span.start) (hkind : n.kind.carries = true)
    (h : ∀ m ∈ n.children, e.Apt m) : e.Apt n :=
  have ⟨hdeepens, hspelled⟩ := NodeKind.of_carries hkind
  of_spelled hbegins hdeepens (Node.spelled_of_not hspelled) h

/-- A list of parameters. -/
lemma of_bound (hbegins : e.Begins n.span.start)
    (hkind : n.kind = .parameters ∨ n.kind = .blockParameters) (h : ∀ m ∈ n.children, e.Bound m) :
    e.Apt n := by
  have hbinds : ∀ m ∈ n.children, m.binds = true := fun m hm => (h m hm).binds
  refine of_spelled hbegins ?_ ?_ fun m hm => (h m hm).apt
  · rcases hkind with hkind | hkind
    · rw [hkind]; rfl
    · rw [hkind]; rfl
  · unfold Node.Spelled
    rcases hkind with hkind | hkind
    · rw [hkind]; exact hbinds
    · rw [hkind]; exact hbinds

/-- A node whose children are elements. -/
lemma of_items (hle : e.depth ≤ e.limits.maxDepth) (hbegins : e.Begins n.span.start)
    (h : ∀ m ∈ n.children, e.Item m) (hkind : n.kind.isSpelled = false) : e.Apt n := by
  have hone : e.limits.maxDepth + 1 - e.depth =
      e.deeper.limits.maxDepth + 1 - e.deeper.depth + 1 := by
    simp only [Place.deeper]
    omega
  refine ⟨hbegins, ?_,
    .intro (Node.spelled_of_not hkind) fun m hm => (h m hm).apt.spelled⟩
  rw [hone]
  refine .deepen fun m hm => ⟨?_, fun hspreads => ((h m hm).deeper hspreads).shallow⟩
  rw [← hone]
  exact (h m hm).apt.shallow

/-- A node stays apt if its span is stretched to the right or its kind is changed for one like it. -/
lemma congr (h : e.Apt n) (hbegins : n'.span.start = n.span.start)
    (hkind : n'.kind.deepens = n.kind.deepens) (hchildren : n'.children = n.children)
    (hspelled : n'.kind.isSpelled = false) : e.Apt n' := by
  refine ⟨hbegins ▸ h.begins, h.shallow.congr hkind hchildren,
    .intro (Node.spelled_of_not hspelled) ?_⟩
  rw [hchildren]
  exact h.spelled.children

/-- A call with a block behind it. -/
lemma withBlock {call block : Node} (h : e.Apt call) (hblock : e.Apt block)
    (htakes : takesBlock call = true) : e.Apt (withBlock call block) := by
  have hkind : call.kind.carries = true := by
    rcases kind_of_takesBlock htakes with hkind | hkind
    · rw [hkind]; rfl
    · rw [hkind]; rfl
  obtain ⟨hdeepens, hspelled⟩ := NodeKind.of_carries hkind
  refine ⟨h.begins, .of_children hdeepens ?_, .intro (Node.spelled_of_not hspelled) ?_⟩
  · refine List.forall_mem_append.mpr ⟨h.shallow.children, ?_⟩
    exact List.forall_mem_singleton.mpr hblock.shallow
  · refine List.forall_mem_append.mpr ⟨h.spelled.children, ?_⟩
    exact List.forall_mem_singleton.mpr hblock.spelled

end Apt

end Place

/-- What holds of two nodes holds of each in the list of them. -/
lemma forall_mem_pair {P : Node → Prop} {n m : Node} (hn : P n) (hm : P m) :
    ∀ l ∈ [n, m], P l :=
  List.forall_mem_cons.mpr ⟨hn, List.forall_mem_singleton.mpr hm⟩

/-! ### Productions at a place -/

/-- What a round goes on with has one property, what it ends with another one. -/
def Round.Holds (I : σ → Prop) (V : α → Prop) : Round σ α → Prop
  | .again a => I a
  | .done a => V a

/-- A state in which reading stands at a place. -/
structure Stands (e : Place) (begun : Bool) (s : State) : Prop where
  limits : s.limits = e.limits
  depth : s.depth = e.depth
  le : e.depth ≤ e.limits.maxDepth
  tape : s.tape.Among e.tokens begun
  faults : ∀ f ∈ s.faults, f.Raised e.tokens

/-- What a production came to at a place: what it gave has a property, or it failed with a fault that
is raised at a token of the place; and it stayed at the place. -/
def Meets (e : Place) (begun begun' : Bool) (V : α → Prop) : EStateM.Result Failure State α → Prop
  | .ok a s => V a ∧ Stands e begun' s
  | .error (.fault f) s => f.Raised e.tokens ∧ Stands e begun s
  | .error .exhausted _ => True

/-- Reading that has begun goes on. -/
class GoesOn (begun begun' : Bool) : Prop where
  begun (h : begun = true) : begun' = true

instance (begun : Bool) : GoesOn begun begun := ⟨id⟩

instance (begun : Bool) : GoesOn begun true := ⟨fun _ => rfl⟩

/-- A production that stays at its place; what it gives has a property, and faults are raised at
tokens of the place.  Once reading has begun it goes on, behind a result and behind a failure. -/
structure Keeps (e : Place) (begun begun' : Bool) (V : α → Prop) (p : Parser α) : Prop where
  goesOn : begun = true → begun' = true
  run : ∀ ⦃s : State⦄, Stands e begun s → Meets e begun begun' V (p s)

variable {e : Place} {b b' b'' : Bool} {V V' : α → Prop} {W : β → Prop} {s s' : State}

namespace Stands

/-- Where a token was consumed, less may be claimed of the state. -/
lemma weaken (h : Stands e b' s) (hb : b = true → b' = true) : Stands e b s :=
  { h with tape := ⟨h.tape.ends, h.tape.suffix, fun hbegun => h.tape.previous (hbegun.imp_left hb)⟩ }

/-- A state stands where its tape does. -/
lemma move {tape : Tape} (h : Stands e b s) (htape : tape.Among e.tokens b') :
    Stands e b' { s with tape := tape } := { h with tape := htape }

/-- The same state in another context. -/
lemma congr (h : Stands e b s) (htape : s'.tape = s.tape) (hfaults : s'.faults = s.faults)
    (hlimits : s'.limits = s.limits) (hdepth : s'.depth = s.depth) : Stands e b s' where
  limits := hlimits.trans h.limits
  depth := hdepth.trans h.depth
  le := h.le
  tape := htape ▸ h.tape
  faults := hfaults ▸ h.faults

/-- A node that begins at the current token begins at the place. -/
lemma begins (h : Stands e b s) : e.Begins s.tape.current.span.start :=
  ⟨_, h.tape.current_mem, rfl⟩

/-- Once a token was consumed, a node may begin there. -/
lemma previous_begins (h : Stands e true s) : e.Begins s.tape.previous.span.start :=
  ⟨_, h.tape.previous (.inl rfl), rfl⟩

/-- What is not expected stands at the current token, or behind the last one. -/
lemma unexpected (h : Stands e b s) (expected : String) :
    (s.unexpected expected).Raised e.tokens := by
  unfold State.unexpected
  split
  · rename_i hend
    have hkind : s.tape.kind = .eof := by simpa [Tape.atEnd, Token.isEof, Tape.kind] using hend
    exact ⟨⟨_, h.tape.previous (.inr hkind), .inr rfl⟩, rfl⟩
  · exact ⟨⟨_, h.tape.current_mem, .inl rfl⟩, rfl⟩

/-- Reporting a fault of the place leaves the state at the place, even if it is the last one. -/
lemma report {f : Fault} (h : Stands e b s) (hf : f.Raised e.tokens) :
    Stands e b (s.report f) := by
  have hpush : ∀ g ∈ s.faults.push f, g.Raised e.tokens := by
    intro g hg
    rcases Array.mem_push.mp hg with hg | rfl
    · exact h.faults g hg
    · exact hf
  unfold State.report
  split
  · exact h
  · simp only
    split
    · exact { h with tape := h.tape.toLast, faults := hpush }
    · exact { h with faults := hpush }

end Stands

namespace Meets

variable {r : EStateM.Result Failure State α} {k : α → Parser β}

/-- Of a failure it does not matter what the result would have been. -/
lemma failed {failure : Failure} (h : Meets e b b' V (.error failure s)) :
    Meets e b b'' W (.error failure s) := by
  cases failure with
  | fault f => exact h
  | exhausted => trivial

/-- What a production came to has every weaker property too. -/
lemma mono (h : Meets e b b' V r) (hV : ∀ a, V a → V' a) : Meets e b b' V' r := by
  cases r with
  | ok a s => exact ⟨hV a h.1, h.2⟩
  | error failure s => exact h.failed

/-- Behind a failure less may be known. -/
lemma weaken (h : Meets e b' b'' V r) (hb : b = true → b' = true) : Meets e b b'' V r := by
  cases r with
  | ok a s => exact h
  | error failure s =>
    cases failure with
    | fault f => exact ⟨h.1, h.2.weaken hb⟩
    | exhausted => trivial

/-- Behind a result less may be known. -/
lemma settle (h : Meets e b b' V r) (hb : b'' = true → b' = true) : Meets e b b'' V r := by
  cases r with
  | ok a s => exact ⟨h.1, h.2.weaken hb⟩
  | error failure s => exact h.failed

/-- Going on behind a result, a failure is passed on. -/
lemma continue_ (h : Meets e b b' V r)
    (hk : ∀ a s, V a → Stands e b' s → Meets e b b'' W (k a s)) :
    Meets e b b'' W (continuing k r) := by
  cases r with
  | ok a s => exact hk a s h.1 h.2
  | error failure s => exact h.failed

/-- Going on behind a result or behind a fault. -/
lemma recover {k : Except Fault α → Parser β} (h : Meets e b b' V r)
    (hok : ∀ a s, V a → Stands e b' s → Meets e b b'' W (k (.ok a) s))
    (hfault : ∀ f s, f.Raised e.tokens → Stands e b s → Meets e b b'' W (k (.error f) s)) :
    Meets e b b'' W (recovering k r) := by
  cases r with
  | ok a s => exact hok a s h.1 h.2
  | error failure s =>
    cases failure with
    | fault f => exact hfault f s h.1 h.2
    | exhausted => trivial

/-- What is put around a production leaves the tokens alone. -/
lemma leave {e' : Place} {leave : State → State} (h : Meets e' b b' V r)
    (htokens : e'.tokens = e.tokens) (hleave : ∀ b s, Stands e' b s → Stands e b (leave s)) :
    Meets e b b' V (leaving leave r) := by
  cases r with
  | ok a s => exact ⟨h.1, hleave _ _ h.2⟩
  | error failure s =>
    cases failure with
    | fault f => exact ⟨htokens ▸ h.1, hleave _ _ h.2⟩
    | exhausted => trivial

end Meets

namespace Keeps

variable {p q : Parser α} {f : α → Parser β}

/-! #### Control -/

/-- Giving a result without reading. -/
lemma pure {a : α} (h : V a) : Keeps e b b V (Pure.pure a) := ⟨id, fun _ hs => ⟨h, hs⟩⟩

/-- What a production gives has every weaker property too. -/
lemma mono (h : Keeps e b b' V p) (hV : ∀ a, V a → V' a) : Keeps e b b' V' p :=
  ⟨h.goesOn, fun _ hs => (h.run hs).mono hV⟩

/-- Two productions one behind the other. -/
lemma bind [hb : GoesOn b' b''] (hp : Keeps e b b' V p)
    (hf : ∀ a, V a → Keeps e b' b'' W (f a)) : Keeps e b b'' W (p >>= f) := by
  refine ⟨fun h => hb.begun (hp.goesOn h), fun s hs => ?_⟩
  rw [bind_eq]
  exact (hp.run hs).continue_ fun a s' ha hs' => ((hf a ha).run hs').weaken hp.goesOn

/-- A fault that a production failed with is taken up. -/
lemma recover {k : Except Fault α → Parser β} (hp : Keeps e b b' V p)
    (hok : ∀ a, V a → Keeps e b' b' W (k (.ok a)))
    (hfault : ∀ f : Fault, f.Raised e.tokens → Keeps e b b W (k (.error f))) :
    Keeps e b b W (attempt p >>= k) := by
  refine ⟨id, fun s hs => ?_⟩
  rw [attempt_bind_eq]
  refine (hp.run hs).recover (fun a s' ha hs' => ?_) fun f s' hf hs' => (hfault f hf).run hs'
  exact (((hok a ha).run hs').weaken hp.goesOn).settle hp.goesOn

/-- A production that is one of two. -/
lemma ite {c : Prop} [Decidable c] (hp : Keeps e b b' V p) (hq : Keeps e b b' V q) :
    Keeps e b b' V (if c then p else q) := by
  split
  · exact hp
  · exact hq

/-- What is known of a branch. -/
lemma dite {c : Prop} [Decidable c] (hp : c → Keeps e b b' V p) (hq : Keeps e b b' V q) :
    Keeps e b b' V (if c then p else q) := by
  split
  · exact hp ‹_›
  · exact hq

/-- Rounds, the first of which perhaps begins reading. -/
lemma iterate {body : σ → Parser (Round σ α)} {I : σ → Prop}
    (hfirst : ∀ a, I a → Keeps e b b' (Round.Holds I V) (body a))
    (hnext : ∀ a, I a → Keeps e b' b' (Round.Holds I V) (body a))
    (rounds : ℕ) {a : σ} (ha : I a) : Keeps e b b' V (iterate body rounds a) := by
  induction rounds generalizing a b with
  | zero => exact ⟨(hfirst a ha).goesOn, fun _ _ => trivial⟩
  | succ rounds ih =>
    refine (hfirst a ha).bind fun round hround => ?_
    cases round with
    | again a => exact ih hnext hround
    | done a => exact .pure hround

/-- Rounds that keep whether reading has begun. -/
lemma rounds {body : σ → Parser (Round σ α)} {I : σ → Prop}
    (h : ∀ a, I a → Keeps e b b (Round.Holds I V) (body a)) (rounds : ℕ) {a : σ} (ha : I a) :
    Keeps e b b V (Grammar.iterate body rounds a) := .iterate h h rounds ha

/-- Looking at the state. -/
lemma view {f : State → α} (h : ∀ s, Stands e b s → V (f s)) : Keeps e b b V (view f) :=
  ⟨id, fun s hs => ⟨h s hs, hs⟩⟩

/-- What is seen of the state and of no importance to the result. -/
lemma see [hb : GoesOn b b'] {f : State → α} {k : α → Parser β}
    (h : ∀ a, Keeps e b b' W (k a)) : Keeps e b b' W (Grammar.view f >>= k) :=
  ⟨hb.begun, fun s hs => (h (f s)).run hs⟩

/-- The kind of the current token, which stays in view. -/
lemma kind [hb : GoesOn b b'] {k : TokenKind → Parser β}
    (h : ∀ s, Stands e b s → Meets e b b' W (k s.tape.kind s)) :
    Keeps e b b' W (Grammar.kind >>= k) :=
  ⟨hb.begun, h⟩

/-- What begins at the current token begins at the place. -/
lemma here [hb : GoesOn b b'] {k : Position → Parser β}
    (h : ∀ p, e.Begins p → Keeps e b b' W (k p)) : Keeps e b b' W (Grammar.here >>= k) :=
  ⟨hb.begun, fun _ hs => (h _ hs.begins).run hs⟩

/-- What is done with the current token may use that it stands at the place. -/
lemma current [hb : GoesOn b b'] {k : Token → Parser β}
    (h : ∀ t, e.Begins t.span.start → Keeps e b b' W (k t)) :
    Keeps e b b' W (Grammar.current >>= k) :=
  ⟨hb.begun, fun _ hs => (h _ hs.begins).run hs⟩

/-! #### Tokens -/

/-- Going on along the tape. -/
lemma move {f : Tape → Tape} (h : ∀ tape, Tape.Steps tape (f tape)) :
    Keeps e b b (fun _ => True) (move f) :=
  ⟨id, fun s hs => ⟨trivial, hs.move (hs.tape.steps (h s.tape))⟩⟩

/-- Line breaks are passed over. -/
lemma skipBreaks : Keeps e b b (fun _ => True) skipBreaks := move (Tape.steps_passOver rfl)

/-- Line breaks and semicolons are passed over. -/
lemma skipTerminators : Keeps e b b (fun _ => True) skipTerminators :=
  move (Tape.steps_passOver rfl)

/-- Forgetting a token consumes it. -/
lemma drop : Keeps e b true (fun _ => True) drop :=
  ⟨fun _ => rfl, fun _ hs => ⟨trivial, hs.move hs.tape.advance⟩⟩

/-- A token that is consumed stands at the place. -/
lemma advance : Keeps e b true (fun t => e.Begins t.span.start) advance :=
  drop.bind fun _ _ => view fun _ hs => hs.previous_begins

/-- A mark is consumed if it is there, so nothing is known to have been consumed. -/
lemma accept (mark : TokenKind) : Keeps e b b (fun _ => True) (accept mark) :=
  .see fun found => by
    cases found with
    | true => exact (move Tape.steps_advance).bind fun _ _ => .pure trivial
    | false => exact .pure trivial

/-- A fault of the place may be failed with. -/
lemma fail [hb : GoesOn b b'] {f : Fault} (h : f.Raised e.tokens) :
    Keeps e b b' V (fail f : Parser α) :=
  ⟨hb.begun, fun _ hs => ⟨h, hs⟩⟩

/-- Whatever stands at the current token may be refused. -/
lemma refuse [hb : GoesOn b b'] (expected : String) :
    Keeps e b b' V (refuse expected : Parser α) :=
  ⟨hb.begun, fun _ hs => ⟨hs.unexpected expected, hs⟩⟩

/-- A fault of the place may be reported. -/
lemma report {f : Fault} (h : f.Raised e.tokens) : Keeps e b b (fun _ => True) (report f) :=
  ⟨id, fun _ hs => ⟨trivial, hs.report h⟩⟩

/-- Whatever stands at the current token may be reported. -/
lemma reportUnexpected (expected : String) :
    Keeps e b b (fun _ => True) (reportUnexpected expected) :=
  ⟨id, fun _ hs => ⟨trivial, hs.report (hs.unexpected expected)⟩⟩

/-- A mark that has to be there is consumed or refused. -/
lemma expect (mark : TokenKind) :
    Keeps e b true (fun t => e.Begins t.span.start) (expect mark) :=
  .see fun _ => .ite advance (.refuse _)

/-- What a production gives may be forgotten. -/
lemma discard (h : Keeps e b b' V p) : Keeps e b b' (fun _ => True) (discard p) :=
  h.bind fun _ _ => .pure trivial

/-- An opener that was never closed is reported where it stands. -/
lemma raised_unclosed {opener : Token} (h : e.Begins opener.span.start) (closer : TokenKind)
    (atEnd : Bool) : (unclosed opener closer atEnd).Raised e.tokens := by
  obtain ⟨t, ht, hstart⟩ := h
  exact ⟨⟨t, ht, .inl hstart⟩, rfl⟩

/-- A closer that is missing is reported at its opener, which stands at the place. -/
lemma expectCloser {opener : Token} (h : e.Begins opener.span.start) (closer : TokenKind) :
    Keeps e b true (fun _ => True) (expectCloser opener closer) := by
  have hexpect : Keeps e b true (fun _ => True) (Functor.discard (Grammar.expect closer)) :=
    (expect closer).discard
  have hfail : Keeps e b b (fun _ => True)
      (Grammar.fail (unclosed opener closer true) : Parser Unit) := .fail (raised_unclosed h _ _)
  exact .see fun _ => .ite (hfail.bind fun _ _ => hexpect) hexpect

/-- Learning a name moves nothing. -/
lemma declare (name : String) : Keeps e b b (fun _ => True) (declare name) :=
  ⟨id, fun s hs => ⟨trivial, hs.congr (s.tape_declare name) (s.faults_declare name)
    (s.limits_declare name) (s.depth_declare name)⟩⟩

/-! #### Nodes -/

/-- A node whose children are read where it stands, perhaps one level deeper. -/
lemma finish {e' : Place} {k : NodeKind} {start : Position} {ns : List Node}
    (hstart : e'.Begins start) (h : ∀ m ∈ ns, e'.Apt m) (hkind : k.carries = true) :
    Keeps e b b e'.Apt (finish k start ns) :=
  view fun _ _ => .of_children hstart hkind h

/-- A node whose children are elements. -/
lemma finishItems {k : NodeKind} {start : Position} {ns : List Node} (hstart : e.Begins start)
    (h : ∀ m ∈ ns, e.Item m) (hkind : k.isSpelled = false) :
    Keeps e b b e.Apt (Grammar.finish k start ns) :=
  view fun _ hs => .of_items hs.le hstart h hkind

/-- A list of parameters. -/
lemma finishBound {k : NodeKind} {start : Position} {ns : List Node} (hstart : e.Begins start)
    (h : ∀ m ∈ ns, e.Bound m) (hkind : k = .parameters ∨ k = .blockParameters) :
    Keeps e b b e.Apt (Grammar.finish k start ns) :=
  view fun _ _ => .of_bound hstart hkind h

/-- A parameter, with its default value perhaps. -/
lemma finishParameter {start : Position} {text : String} {ns : List Node} (hstart : e.Begins start)
    (h : ∀ m ∈ ns, e.Apt m) : Keeps e b b e.Bound (Grammar.finishNamed .parameter start text ns) :=
  view fun _ _ => ⟨.of_children hstart rfl h, Node.binds_eq _⟩

/-- Several parameters in parentheses. -/
lemma finishGroup {start : Position} {ns : List Node} (hstart : e.Begins start)
    (h : ∀ m ∈ ns, e.Bound m) : Keeps e b b e.Bound (Grammar.finish .multiTargets start ns) :=
  view fun _ _ => ⟨.of_children hstart rfl fun m hm => (h m hm).apt,
    (Node.binds_eq _).trans (List.all_eq_true.mpr fun m hm => (h m hm).binds)⟩

/-- A value that is spread among others is read where they are. -/
lemma finishSpread {k : NodeKind} {start : Position} {ns : List Node} (hstart : e.Begins start)
    (h : ∀ m ∈ ns, e.Apt m) (hspreads : k.spreads = true) (hkind : k.carries = true) :
    Keeps e b b e.Item (Grammar.finish k start ns) :=
  view fun _ _ => .of_spreads (.of_children hstart hkind h) hspreads

/-- Unless it is a literal, a node may have any text. -/
lemma named {e' : Place} {k : NodeKind} {start : Position} {ns : List Node}
    (h : Keeps e b b e'.Apt (Grammar.finish k start ns)) (hkind : k.isSpelled = false)
    (text : String) : Keeps e b b e'.Apt (Grammar.finishNamed k start text ns) := by
  refine ⟨h.goesOn, fun s hs => ?_⟩
  obtain ⟨hn, hs'⟩ := h.run hs
  exact ⟨hn.congr rfl rfl rfl hkind, hs'⟩

/-- A node with a text, which carries what stands where it does. -/
lemma finishNamed {e' : Place} {k : NodeKind} {start : Position} {text : String} {ns : List Node}
    (hstart : e'.Begins start) (h : ∀ m ∈ ns, e'.Apt m) (hkind : k.carries = true) :
    Keeps e b b e'.Apt (Grammar.finishNamed k start text ns) :=
  (finish hstart h hkind).named (NodeKind.of_carries hkind).2 text

/-- A node with a text, whose children are elements. -/
lemma finishItemsNamed {k : NodeKind} {start : Position} {text : String} {ns : List Node}
    (hstart : e.Begins start) (h : ∀ m ∈ ns, e.Item m) (hkind : k.isSpelled = false) :
    Keeps e b b e.Apt (Grammar.finishNamed k start text ns) :=
  (finishItems hstart h hkind).named hkind text

/-- A leaf fits one level deeper as well. -/
lemma leaf {k : NodeKind} (text : String) (hkind : k.carries = true) :
    Keeps e true true e.deeper.Apt (leaf k text) :=
  view fun _ hs => .of_children hs.previous_begins hkind (by simp [Node.leaf])

/-- A token is consumed as a leaf. -/
lemma takeLeaf {k : NodeKind} (hkind : k.carries = true) :
    Keeps e b true e.Apt (takeLeaf k) :=
  advance.bind fun _ _ => (leaf _ hkind).mono fun _ => .of_deeper

/-- A leaf that is written as the token is that stands there, and what follows it. -/
lemma leafThen (k : Token → NodeKind) (text : Token → String) {f : Token → Node → Parser β}
    {s : State} (hs : Stands e b s) (hkind : s.tape.kind ≠ .eof)
    (hleaf : ∀ t ∈ e.tokens, t = s.tape.current → (k t).deepens = false ∧
      (Node.leaf (k t) t.span (text t)).Spelled e.tokens)
    (hf : ∀ t n, e.deeper.Apt n → Keeps e true b'' W (f t n)) :
    Meets e b b'' W ((do
      let t ← Grammar.advance
      let n ← Grammar.leaf (k t) (text t)
      f t n : Parser β) s) := by
  have hconsumable := hs.tape.ends.consumable hkind
  have hmoved : Stands e true { s with tape := s.tape.advance } := hs.move hs.tape.advance
  have hmem := hs.tape.current_mem
  change Meets e b b'' W (f s.tape.advance.previous (.leaf (k s.tape.advance.previous)
    s.tape.advance.previous.span (text s.tape.advance.previous)) { s with tape := s.tape.advance })
  rw [hconsumable.previous_advance]
  obtain ⟨hdeepens, hspelled⟩ := hleaf _ hmem rfl
  have hapt : e.deeper.Apt (.leaf (k s.tape.current) s.tape.current.span (text s.tape.current)) :=
    .of_spelled ⟨_, hmem, rfl⟩ hdeepens hspelled (by simp [Node.leaf])
  exact ((hf _ _ hapt).run hmoved).weaken fun _ => rfl

/-- A leaf that is written as the token is that stands there. -/
lemma takeSpelled (k : Token → NodeKind) (text : Token → String) {s : State} (hs : Stands e b s)
    (hkind : s.tape.kind ≠ .eof)
    (hleaf : ∀ t ∈ e.tokens, t = s.tape.current → (k t).deepens = false ∧
      (Node.leaf (k t) t.span (text t)).Spelled e.tokens) :
    Meets e b true e.Apt ((do
      let t ← Grammar.advance
      Grammar.leaf (k t) (text t) : Parser Node) s) :=
  leafThen k text hs hkind hleaf (f := fun _ => Pure.pure) fun _ _ hn => .pure (.of_deeper hn)

/-- A token is consumed as a leaf with another text. -/
lemma takeAs {k : NodeKind} (text : String) (hkind : k.carries = true) :
    Keeps e b true e.Apt (takeAs k text) :=
  drop.bind fun _ _ => (leaf _ hkind).mono fun _ => .of_deeper

/-! #### Contexts -/

/-- One level deeper, where another construct fits. -/
lemma nested (h : Keeps e.deeper b b' V p) : Keeps e b b' V (nested p) := by
  refine ⟨h.goesOn, fun s hs => ?_⟩
  unfold Grammar.nested
  split
  · rename_i hfits
    rw [hs.limits, hs.depth] at hfits
    rw [around_eq]
    have henter : Stands e.deeper b { s with depth := s.depth + 1 } :=
      ⟨hs.limits, congrArg (· + 1) hs.depth, hfits, hs.tape, hs.faults⟩
    exact (h.run henter).leave rfl fun _ s' hs' =>
      ⟨hs'.limits, congrArg (· - 1) hs'.depth, hs.le, hs'.tape, hs'.faults⟩
  · exact ⟨⟨⟨_, hs.tape.current_mem, .inl rfl⟩, rfl⟩, hs⟩

/-- A context that changes neither what is nested nor where reading stands. -/
lemma around {enter leave : State → State} (h : Keeps e b b' V p) {s : State} (hs : Stands e b s)
    (henter : ∀ b s, Stands e b s → Stands e b (enter s))
    (hleave : ∀ b s, Stands e b s → Stands e b (leave s)) :
    Meets e b b' V (Grammar.around enter leave p s) := by
  rw [around_eq]
  exact (h.run (henter b s hs)).leave rfl hleave

/-- Whether a `do` is withheld does not matter to the place: inside brackets it is not. -/
lemma allowingDo (h : Keeps e b b' V p) : Keeps e b b' V (allowingDo p) :=
  ⟨h.goesOn, fun _ hs => h.around hs (fun _ _ hs => hs.congr rfl rfl rfl rfl)
    fun _ _ hs => hs.congr rfl rfl rfl rfl⟩

/-- In front of the `do` of a construct around it is withheld. -/
lemma withholdingDo (h : Keeps e b b' V p) : Keeps e b b' V (withholdingDo p) :=
  ⟨h.goesOn, fun _ hs => h.around hs (fun _ _ hs => hs.congr rfl rfl rfl rfl)
    fun _ _ hs => hs.congr rfl rfl rfl rfl⟩

/-- A scope of its own has no place of its own. -/
lemma inScope (closed : Bool) (h : Keeps e b b' V p) : Keeps e b b' V (inScope closed p) :=
  ⟨h.goesOn, fun _ hs => h.around hs (fun _ _ hs => hs.congr rfl rfl rfl rfl)
    fun _ _ hs => hs.congr rfl rfl rfl rfl⟩

/-! #### Lists -/

variable {P : Node → Prop} {p : Parser Node}

/-- An empty list. -/
lemma nil : Keeps e b b (∀ m ∈ ·, P m) (Pure.pure ([] : List Node) : Parser _) :=
  .pure fun _ hm => absurd hm List.not_mem_nil

/-- The result as a list. -/
lemma one (h : Keeps e b b' P p) : Keeps e b b' (∀ m ∈ ·, P m) (do return [← p]) :=
  h.bind (fun _ hn => .pure (List.forall_mem_singleton.mpr hn))

/-- What a round of a list comes to. -/
abbrev Listed (P : Node → Prop) : Round (List Node) (List Node) → Prop :=
  Round.Holds (∀ m ∈ ·, P m) (∀ m ∈ ·, P m)

/-- What holds of each node in a list holds of each in the reversed one. -/
lemma forall_mem_reverse {ns : List Node} (h : ∀ m ∈ ns, P m) : ∀ m ∈ ns.reverse, P m :=
  fun m hm => h m (List.mem_reverse.mp hm)

/-- Rounds of a list behind something that was read. -/
lemma list {body : List Node → Parser (Round (List Node) (List Node))}
    (h : ∀ seen, (∀ m ∈ seen, P m) → Keeps e b b (Listed P) (body seen)) (rounds : ℕ) :
    Keeps e b b (∀ m ∈ ·, P m) (Grammar.iterate body rounds []) :=
  .rounds (I := fun ns => ∀ m ∈ ns, P m) h rounds fun _ hm => absurd hm List.not_mem_nil

/-- A comma goes on with the list, anything else ends it. -/
lemma unlessComma {behindComma : Parser Unit} {seen : List Node}
    (h : Keeps e b b (fun _ => True) behindComma) (hseen : ∀ m ∈ seen, P m) :
    Keeps e b b (Listed P) (unlessComma behindComma seen seen.reverse) :=
  (accept _).bind (fun _ _ => .ite (h.bind (fun _ _ => .pure hseen))
    (.pure (forall_mem_reverse hseen)))

/-- Items with commas between them: each round stays at the place. -/
lemma separated {behindComma : Parser Unit} (h : Keeps e true true (fun _ => True) behindComma)
    (hitem : Keeps e true true P p) (rounds : ℕ) :
    Keeps e true true (∀ m ∈ ·, P m) (separated rounds behindComma p) :=
  .list (fun _ hseen => hitem.bind fun _ hn =>
    .unlessComma h (List.forall_mem_cons.mpr ⟨hn, hseen⟩)) rounds

/-- One value, or an array of several. -/
lemma arrayOf {start : Position} {ns : List Node} (hstart : e.Begins start)
    (h : ∀ m ∈ ns, e.Item m) : Keeps e b b e.Apt (arrayOf start ns) := by
  unfold Grammar.arrayOf
  split
  · exact .pure (List.forall_mem_singleton.mp h).apt
  · exact .finishItems hstart h rfl

/-- Behind an item its list goes on or is closed, perhaps behind line breaks. -/
lemma behindItem {opener : Token} {seen : List Node} (hopener : e.Begins opener.span.start)
    (hseen : ∀ m ∈ seen, P m) (closer : TokenKind) :
    Keeps e b b (Listed P) (behindItem opener closer seen) := by
  have hunclosed (atEnd : Bool) : (unclosed opener closer atEnd).Raised e.tokens :=
    raised_unclosed hopener closer atEnd
  have hdrop : Keeps e b b (fun _ => True) Grammar.drop := .move Tape.steps_advance
  have hbreak : Keeps e b b (Listed P) (behindBreak opener closer seen) := by
    refine .see (fun _ => .ite (.pure hseen) (.ite ?_ (.ite (.fail (hunclosed true)) ?_)))
    · exact skipBreaks.bind (fun _ _ => hdrop.bind (fun _ _ => .pure hseen))
    · exact (report (hunclosed false)).bind (fun _ _ => .pure (forall_mem_reverse hseen))
  refine .see (fun _ => .ite (hdrop.bind (fun _ _ => .pure hseen)) (.ite (.pure hseen) ?_))
  exact .ite hbreak (.ite (.fail (hunclosed true)) (.refuse _))

/-- The items behind an opener that stands at the place. -/
lemma items {g : Grammar} {opener : Token} (hopener : e.Begins opener.span.start)
    (hitem : Keeps e true true P p) (closer : TokenKind) :
    Keeps e true true (∀ m ∈ ·, P m) (items g opener closer p) := by
  refine .list (fun seen hseen => skipBreaks.bind fun _ _ => (accept _).bind fun _ _ => ?_) _
  refine .ite (.pure (forall_mem_reverse hseen)) (.see fun _ => .ite ?_ ?_)
  · exact .fail (raised_unclosed hopener closer true)
  · exact hitem.bind fun _ hn => .behindItem hopener (List.forall_mem_cons.mpr ⟨hn, hseen⟩) closer

/-! #### Names -/

/-- A target begins where the expression did that was read for it. -/
lemma assignable {n : Node} (h : e.Apt n) : Keeps e b b e.Apt (assignable n) := by
  have hfault (what : String) : (⟨.cannotAssign what, n.span⟩ : Fault).Raised e.tokens := by
    obtain ⟨t, ht, hstart⟩ := h.begins
    exact ⟨⟨t, ht, .inl hstart⟩, rfl⟩
  have htarget (hkind : n.kind.deepens = false) : e.Apt { n with kind := .localTarget } :=
    h.congr rfl hkind.symm rfl rfl
  unfold Grammar.assignable
  split
  case h_1 hkind | h_2 hkind => exact .pure (htarget (by rw [hkind]; rfl))
  case h_9 hkind =>
    refine .ite ?_ (.ite (.pure h) (.fail (hfault _)))
    exact (declare _).bind (fun _ _ => .pure (htarget (by rw [hkind]; rfl)))
  case h_10 => exact .fail (hfault _)
  all_goals exact .pure h

/-- What separates a condition from its statements, or the report that it is missing. -/
lemma separator {keyword : Token} (doMayStand : Bool) :
    Keeps e true true (fun _ => True) (separator keyword doMayStand) := by
  refine .see fun _ => ?_
  split
  · exact drop
  · exact skipTerminators.bind fun _ _ => (accept _).discard
  · exact skipTerminators.bind fun _ _ => (accept _).discard
  · exact .pure trivial
  · refine .ite drop (.current fun t ht => .report ?_)
    obtain ⟨u, hu, hstart⟩ := ht
    exact ⟨⟨u, hu, .inl hstart⟩, rfl⟩

/-- The `end` of a construct that begins at the place. -/
lemma expectEnd {opener : Token} (h : e.Begins opener.span.start) :
    Keeps e b true (fun _ => True) (expectEnd opener) :=
  expectCloser h _

/-- A variable of a block binds a name. -/
lemma blockLocal : Keeps e true true e.Bound blockLocal :=
  (expect _).bind fun _ _ => (declare _).bind fun _ _ => view fun _ hs =>
    ⟨.of_children hs.previous_begins rfl (by simp [Node.leaf]), by simp [Node.binds_eq, Node.leaf]⟩

/-- The bar that closes parameters, or a report at the bar that opened them. -/
lemma closingBar {opener : Token} (h : e.Begins opener.span.start) :
    Keeps e true true (fun _ => True) (closingBar opener) :=
  .see fun _ => .ite (.report (raised_unclosed h _ _)) (expect _).discard

/-- A percent literal is spelled by its token. -/
lemma percentLiteral {s : State} (hs : Stands e b s) (hkind : s.tape.kind = .percentLiteral) :
    Meets e b true e.Apt (Grammar.percentLiteral s) := by
  refine takeSpelled (fun t => if t.text.startsWith "%q" then .string else .words) Token.text hs
    (by simp [hkind]) fun t ht hcurrent => ?_
  rw [hcurrent] at ht ⊢
  split
  · rename_i hquoted
    exact ⟨rfl, .inl ⟨_, ht, hkind, hquoted, rfl⟩⟩
  · exact ⟨rfl, trivial⟩

/-- A symbol is spelled by its token. -/
lemma symbol {s : State} (hs : Stands e b s) (hkind : s.tape.kind = .symbol) :
    Meets e b true e.Apt (Grammar.symbol s) := by
  refine takeSpelled (fun _ => .symbol) (fun t => symbolName t.text) hs (by simp [hkind])
    fun t ht hcurrent => ⟨rfl, t, ht, _, ?_, rfl⟩
  rw [hcurrent]
  exact .symbol hkind

/-- The owner of a method in front of its name. -/
lemma owner : Keeps e true true (fun _ => True) owner :=
  .see fun _ => .ite (advance.bind fun _ _ => drop.bind fun _ _ => .pure trivial) (.pure trivial)

/-- The name of a method, which may be a keyword or an operator. -/
lemma methodName : Keeps e true true (fun _ => True) methodName :=
  owner.bind fun _ _ => .see fun _ => .ite (advance.bind fun _ _ => .pure trivial) (.refuse _)

/-- A method that is named in an `alias` or `undef`. -/
lemma methodReference : Keeps e b true e.Apt methodReference := by
  refine .kind fun s hs => ?_
  by_cases hglobal : (s.tape.kind == .globalVariable) = true
  · rw [if_pos hglobal]
    exact (takeLeaf rfl).run hs
  rw [if_neg hglobal]
  by_cases hsymbol : (s.tape.kind == .symbol) = true
  · rw [if_pos hsymbol]
    exact symbol hs (eq_of_beq hsymbol)
  rw [if_neg hsymbol]
  by_cases hnames : namesMethod s.tape.kind = true
  · rw [if_pos hnames]
    have hkind : s.tape.kind ≠ .eof := by
      intro hkind
      rw [hkind] at hnames
      exact absurd hnames (by decide)
    refine takeSpelled (fun _ => .symbol) Token.text hs hkind
      fun t ht hcurrent => ⟨rfl, t, ht, _, ?_, rfl⟩
    rw [hcurrent]
    exact .method hnames
  · rw [if_neg hnames]
    exact (refuse _).run hs

/-- Two names of one method. -/
lemma alias_ : Keeps e b true e.Apt alias_ :=
  .here fun _ hstart => drop.bind fun _ _ => methodReference.bind fun _ hn =>
    methodReference.bind fun _ hm => .finish hstart (forall_mem_pair hn hm) rfl

/-- Two colons and a constant. -/
lemma outermostConstant : Keeps e b true e.Apt outermostConstant :=
  .here fun _ hstart => drop.bind fun _ _ => (expect _).bind fun _ _ =>
    .finishNamed hstart (by simp) rfl

/-- The name behind a dot. -/
lemma calledName : Keeps e true true (fun _ => True) calledName :=
  .see fun _ => .ite (.pure trivial) (.ite (advance.bind fun _ _ => .pure trivial) (.refuse _))

/-- Two operands with an operator between them. -/
lemma joined {start : Position} {left right : Node} (hstart : e.Begins start) (hleft : e.Apt left)
    (hright : e.Apt right) (operator : Punct) :
    Keeps e b b e.Apt (joined start operator left right) := by
  unfold Grammar.joined
  split
  · exact .finish hstart (forall_mem_pair hleft hright) rfl
  · exact .finish hstart (forall_mem_pair hleft hright) rfl
  · exact .finishNamed hstart (forall_mem_pair hleft hright) rfl

end Keeps

end Grammar

end RubyCheck
