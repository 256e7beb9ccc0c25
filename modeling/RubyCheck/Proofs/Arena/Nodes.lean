import RubyCheck.Proofs.Arena.Ahead

/-!
# Nodes by id and trees

One rule for each thing that is done with nodes.  New nodes show new trees, a node that is changed shows
the tree that the grammar builds anew, and a look at a node tells what the grammar sees of its tree.
`Makes` is what every production comes to: an id from where it began on, which shows the tree of the
production of the grammar.
-/

namespace RubyCheck.Arena

open Grammar (State Round)

variable {greatest : Option ℕ} {m : Machine} {α β γ δ : Type} {w : Array Cell} {base : ℕ}
  {V : Array Cell → γ → δ → Prop} {id : ℕ} {ids : List ℕ} {t : Node} {ts : List Node}

/-! ### What productions come to -/

/-- A production whose results belong together, wherever it begins. -/
def Yields (greatest : Option ℕ) (V : Array Cell → ℕ → α → β → Prop) (p : Parser α)
    (q : Grammar.Parser β) : Prop :=
  ∀ w, Runs greatest w w.size (fun w' => V w' w.size) p q

/-- A production that hands on the id of a tree of its own. -/
abbrev Makes (greatest : Option ℕ) (p : Parser NodeId) (q : Grammar.Parser Node) : Prop :=
  Yields greatest (Own greatest) p q

/-- A production that hands on the ids of trees of its own. -/
abbrev MakesAll (greatest : Option ℕ) (p : Parser (List NodeId)) (q : Grammar.Parser (List Node)) :
    Prop :=
  Yields greatest (Owns greatest) p q

section Makes

variable {p : Parser NodeId} {q : Grammar.Parser Node} {f : NodeId → Parser γ}
  {g : Node → Grammar.Parser δ} {ps : Parser (List NodeId)} {qs : Grammar.Parser (List Node)}
  {fs : List NodeId → Parser γ} {gs : List Node → Grammar.Parser δ}

/-- What is done with a node. -/
lemma Yields.bind (h : Makes greatest p q)
    (hf : ∀ w' id t, Grown greatest w.size w w' → Own greatest w' base id t →
      Runs greatest w' base V (f id) (g t)) :
    Runs greatest w base V (p >>= f) (q >>= g) := by
  intro hbase
  exact Runs.bind (h w) (fun w' id t hw hid => hf w' id t hw (hid.mono hbase)) hbase

/-- What is done with several nodes. -/
lemma Yields.bindAll (h : MakesAll greatest ps qs)
    (hf : ∀ w' ids ts, Grown greatest w.size w w' → Owns greatest w' base ids ts →
      Runs greatest w' base V (fs ids) (gs ts)) :
    Runs greatest w base V (ps >>= fs) (qs >>= gs) := by
  intro hbase
  exact Runs.bind (h w) (fun w' ids ts hw hids => hf w' ids ts hw (hids.mono hbase)) hbase

/-- A node as a list. -/
lemma Yields.one (h : Makes greatest p q) :
    MakesAll greatest (do return [← p]) (do return [← q]) :=
  fun _ => h.bind fun _ _ _ _ hid => .pure (.cons hid .nil)

/-- No nodes are made alike. -/
lemma MakesAll.nil : MakesAll greatest (pure []) (pure []) := fun _ => .pure .nil

end Makes

/-! ### New nodes -/

/-- Looking at the id of a node gives its cell. -/
lemma node_eq {c : Cell} (h : m.nodes[id]? = some c) : node id m = .ok c m := by
  change inRange m.nodes[id]? m = _
  rw [h]
  rfl

namespace Runs

/-- A new node; where ids have a width its children need only exist. -/
lemma adding (hlt : ∀ id ∈ ids, id < w.size) (h : greatest = none → Owns greatest w base ids ts)
    (kind : NodeKind) (span : Span) (text : Option String) :
    Runs greatest w base (fun w' id t => Grown greatest w.size w w' ∧ Own greatest w' base id t)
      (Arena.add ⟨kind, span, text, ids⟩) (Pure.pure ⟨kind, span, text, ts⟩) := by
  rintro hbase m hm rfl
  change Outcome greatest base _ m (.ok (idAt m.greatestId m.nodes.size)
    { m with nodes := m.nodes.push ⟨kind, span, text, ids⟩ }) _
  rw [show idAt m.greatestId m.nodes.size = idAt greatest m.nodes.size by rw [hm.greatestId]]
  refine .ok ⟨⟨hm.greatestId, hm.ends, hm.current_lt, closed_push hm.closed hlt, hm.gaveUp⟩,
    rfl, rfl, rfl, rfl, le_rfl, .push _ hbase _⟩ ⟨.push _ le_rfl _, Own.push h hbase _ _ _⟩
    fun _ => rfl

/-- A new node whose children are all there. -/
lemma add (h : Owns greatest w base ids ts) (kind : NodeKind) (span : Span) (text : Option String) :
    Runs greatest w base (fun w' id t => Own greatest w' base id t)
      (Arena.add ⟨kind, span, text, ids⟩) (Pure.pure ⟨kind, span, text, ts⟩) :=
  (adding h.lt (fun _ => h) kind span text).imp fun _ _ _ _ hid => hid.2

/-- Owned children are put under a new node, which leaves all older ones alone. -/
lemma finishing (h : Owns greatest w base ids ts) {k : NodeKind} {start : Position} :
    Runs greatest w base (fun w' id t => Grown greatest w.size w w' ∧ Own greatest w' base id t)
      (Arena.finish k start ids) (Grammar.finish k start ts) :=
  (Exact.spanFrom start).runs fun _ => adding h.lt (fun _ => h) _ _ _

/-- So the new node is owned. -/
lemma finish (h : Owns greatest w base ids ts) {k : NodeKind} {start : Position} :
    Runs greatest w base (fun w' id t => Own greatest w' base id t)
      (Arena.finish k start ids) (Grammar.finish k start ts) :=
  (finishing h).imp fun _ _ _ _ hid => hid.2

/-- What is done with a new node. -/
lemma behindFinish {f : NodeId → Parser γ} {g : Node → Grammar.Parser δ}
    (h : Owns greatest w base ids ts) {k : NodeKind} {start : Position}
    (hf : ∀ w' id t, Grown greatest w.size w w' → Own greatest w' base id t →
      Runs greatest w' base V (f id) (g t)) :
    Runs greatest w base V (Arena.finish k start ids >>= f) (Grammar.finish k start ts >>= g) :=
  (finishing h).seq fun w' id t _ hid => hf w' id t hid.1 hid.2

/-- A leaf is made and owned. -/
lemma leaf {k : NodeKind} {text : String} :
    Runs greatest w base (fun w' id t => Own greatest w' base id t)
      (Arena.leaf k text) (Grammar.leaf k text) :=
  Exact.previous.runs fun _ => add .nil _ _ _

/-! ### Changed nodes -/

/-- What has no counterpart in the grammar. -/
lemma alone {P : Array Cell → Prop} {p : Parser Unit} {f : Parser γ} {g : Grammar.Parser δ}
    (hp : Runs greatest w base (fun w' _ _ => P w') p (Pure.pure ()))
    (hf : ∀ w', P w' → Runs greatest w' base V f g) :
    Runs greatest w base V (do p; f) g :=
  hp.seq (g := fun _ => g) fun w' _ _ _ hw' => hf w' hw'

/-- A change to a node that is there, if it keeps what it should of the arena. -/
lemma change {P : Array Cell → Prop} {f : Cell → Cell} (hlt : id < w.size)
    (hgrown : Grown greatest base w (w.modify id f))
    (hclosed : Closed w w.size → Closed (w.modify id f) w.size) (hP : P (w.modify id f)) :
    Runs greatest w base (fun w' _ _ => P w') (Arena.change id f) (Pure.pure ()) := by
  rintro hbase m hm rfl
  have hnode : node id m = .ok m.nodes[id] m := node_eq (Array.getElem?_eq_getElem hlt)
  have hchange : Arena.change id f m = .ok () { m with nodes := m.nodes.modify id f } := by
    change EStateM.bind (discard (node id)) _ m = _
    have hdiscard : discard (node id) m = .ok () m := by
      change EStateM.bind (node id) (fun _ => Pure.pure ()) m = _
      rw [EStateM.bind, hnode]
      rfl
    rw [EStateM.bind, hdiscard]
    rfl
  rw [hchange]
  refine .ok ⟨⟨hm.greatestId, hm.ends, hm.current_lt, ?_, hm.gaveUp⟩,
    rfl, rfl, rfl, rfl, le_rfl, hgrown⟩ hP fun _ => rfl
  rw [Array.size_modify]
  exact hclosed hm.closed

/-- A node that gets another label. -/
lemma relabel {f : Cell → Cell} {φ : Node → Node} (hid : Own greatest w base id t)
    (h : Relabels f φ) :
    Runs greatest w base (fun w' id t => Own greatest w' base id t)
      (do Arena.change id f; return id) (Pure.pure (φ t)) :=
  alone (change hid.lt (hid.grown_change h) (closed_modify h) (hid.change h)) fun _ hid => .pure hid

/-- Owned children are put under a new node with a text, which is owned. -/
lemma finishNamed (h : Owns greatest w base ids ts) {k : NodeKind} {start : Position}
    {text : String} :
    Runs greatest w base (fun w' id t => Own greatest w' base id t)
      (Arena.finishNamed k start text ids) (Grammar.finishNamed k start text ts) :=
  (finish h).seq fun _ _ _ _ hid =>
    relabel (φ := (·.withText text)) hid fun _ _ _ _ _ => ⟨_, _, _, rfl, rfl⟩

/-! ### Looks at nodes -/

/-- What can be told without changing anything. -/
lemma known {p : Parser α} {a : α} {f : α → Parser γ} {g : Grammar.Parser δ}
    (hp : ∀ m : Machine, m.nodes = w → p m = .ok a m) (hf : Runs greatest w base V (f a) g) :
    Runs greatest w base V (p >>= f) g := by
  intro hbase m hm hnodes
  change Outcome greatest base V m (EStateM.bind p f m) _
  rw [EStateM.bind, hp m hnodes]
  exact hf hbase m hm hnodes

/-- A node may be taken to show what it looks like, which where ids have no width is its tree. -/
lemma sight {p : Parser γ} {q : Node → Grammar.Parser δ} (hid : Own greatest w base id t)
    (hf : ∀ c t', Peek w id t' c → Own greatest w base id t' → (greatest = none → t' = t) →
      Runs greatest w base V p (q t')) :
    Runs greatest w base V p (q t) := by
  rintro hbase m hm rfl
  obtain ⟨c, t', hpeek, hid', heq⟩ := hid.exists_peek hm.closed
  have hsame : Runs greatest m.nodes base V p (q t) :=
    (hf c t' hpeek hid' heq).swap fun hnone => by rw [heq hnone]
  exact hsame hbase m hm rfl

/-- The same for several nodes. -/
lemma sights {p : Parser γ} {q : List Node → Grammar.Parser δ} (hids : Owns greatest w base ids ts)
    (hf : ∀ ts', Owns greatest w base ids ts' →
      List.Forall₂ (fun id t => ∃ c, Peek w id t c) ids ts' → Runs greatest w base V p (q ts')) :
    Runs greatest w base V p (q ts) := by
  induction hids generalizing q with
  | nil => exact hf [] .nil .nil
  | @cons id t ids ts hid _ ih =>
    refine sight (q := fun t => q (t :: ts)) hid fun c t' hpeek hid' _ => ?_
    refine ih (q := fun ts => q (t' :: ts)) fun ts' hids' hpeeks => ?_
    exact hf (t' :: ts') (.cons hid' hids') (.cons ⟨c, hpeek⟩ hpeeks)

/-- A block that was read behind a call is put there. -/
lemma attach {w' : Array Cell} {call block : ℕ} {u : Node} {f : Parser γ} {g : Grammar.Parser δ}
    (hcall : Own greatest w base call t) (hw : Grown greatest w.size w w')
    (hblock : Own greatest w' w.size block u) (hbase : base ≤ w.size)
    (hf : ∀ w'', Own greatest w'' base call (Grammar.withBlock t u) →
      Runs greatest w'' base V f g) :
    Runs greatest w' base V (do Arena.attach call block; f) g := by
  refine alone (P := fun w'' => Own greatest w'' base call (Grammar.withBlock t u)) ?_ hf
  refine sight (q := fun _ => Pure.pure ()) (hblock.mono hbase) fun c u' hpeek _ heq => ?_
  have hstop (hnone : greatest = none) : c.span.stop = u.span.stop := by
    rw [hpeek.span, heq hnone]
  refine known (fun m hnodes => node_eq (hnodes ▸ hpeek.cell)) ?_
  exact change (hcall.grown hw).lt (Own.grown_attach (hcall.grown hw) (hblock.mono hbase))
    (fun hclosed => closed_attach hclosed hblock.lt) (hcall.attach hw hblock hstop)

end Runs

section Sights

variable {c : Cell}

/-- The last elements of lists that belong together do. -/
lemma forall₂_getLast? {R : α → β → Prop} {as : List α} {bs : List β} (h : List.Forall₂ R as bs) :
    as = [] ∧ bs = [] ∨ ∃ a b, as.getLast? = some a ∧ bs.getLast? = some b ∧ R a b := by
  induction h with
  | nil => exact .inl ⟨rfl, rfl⟩
  | @cons a b as bs hab _ ih =>
    right
    obtain ⟨rfl, rfl⟩ | ⟨a', b', ha, hb, hlast⟩ := ih
    · exact ⟨a, b, rfl, rfl, hab⟩
    · exact ⟨a', b', by rw [List.getLast?_cons, ha]; rfl, by rw [List.getLast?_cons, hb]; rfl, hlast⟩

/-- Whether a node takes a block is seen alike. -/
lemma takesBlock_eq (h : Peek m.nodes id t c) :
    Arena.takesBlock id m = .ok (Grammar.takesBlock t) m := by
  change EStateM.bind (node id) _ m = _
  rw [EStateM.bind, node_eq h.cell, Grammar.takesBlock, ← h.kind]
  simp only
  cases hkind : c.kind == .call || c.kind == .super_ with
  | false => rfl
  | true =>
    obtain ⟨hids, hts⟩ | ⟨last, u, hlast, hu, d, hd, hdkind⟩ := forall₂_getLast? h.children
    · rw [hids, hts]
      rfl
    · rw [hlast, hu]
      change EStateM.bind (node last) _ m = _
      rw [EStateM.bind, node_eq hd]
      simp only [hdkind]
      rfl

/-- Whether a node is an attribute is seen alike. -/
lemma isAttribute_eq (h : Peek m.nodes id t c) :
    Arena.isAttribute c m = .ok (Grammar.isAttribute t) m := by
  have hchildren := h.children
  unfold Arena.isAttribute Grammar.isAttribute
  generalize c.children = ids at hchildren
  generalize t.children = ts at hchildren
  cases hchildren with
  | nil => rfl
  | @cons child u ids ts hchild hrest =>
    cases hrest with
    | cons _ _ => rfl
    | nil =>
      obtain ⟨d, hd, hkind⟩ := hchild
      change EStateM.bind (node child) _ m = _
      rw [EStateM.bind, node_eq hd]
      simp only [hkind]
      rfl

/-- The span of several nodes is the same. -/
lemma spanOfEach_eq {start : Position}
    (h : List.Forall₂ (fun id t => ∃ c, Peek m.nodes id t c) ids ts) :
    Arena.spanOfEach start ids m = .ok (Grammar.spanOfEach start ts) m := by
  obtain ⟨rfl, rfl⟩ | ⟨last, u, hlast, hu, d, hd⟩ := forall₂_getLast? h
  · rfl
  · cases h with
    | nil => simp at hlast
    | @cons first v ids ts hfirst _ =>
      obtain ⟨c, hc⟩ := hfirst
      unfold Arena.spanOfEach Grammar.spanOfEach
      rw [hlast, hu]
      change EStateM.bind (node first) _ m = _
      rw [EStateM.bind, node_eq hc.cell]
      change EStateM.bind (node last) _ m = _
      rw [EStateM.bind, node_eq hd.cell, hc.span]
      simp only [hd.span]
      rfl

end Sights

namespace Runs

/-- Values without brackets are put under a new array. -/
lemma arrayOf {start : Position} (h : Owns greatest w base ids ts) :
    Runs greatest w base (fun w' id t => Grown greatest w.size w w' ∧ Own greatest w' base id t)
      (Arena.arrayOf start ids) (Grammar.arrayOf start ts) := by
  have hmany := @finishing _ w base _ _ h .array start
  cases h with
  | nil => exact hmany
  | cons hid hrest =>
    cases hrest with
    | nil => exact .pure ⟨.refl _ _ _, hid⟩
    | cons _ _ => exact hmany

/-- An owned node becomes a target in place, and stays owned. -/
lemma assignable (hid : Own greatest w base id t) :
    Runs greatest w base (fun w' id t => Own greatest w' base id t)
      (Arena.assignable id) (Grammar.assignable t) := by
  refine sight (q := Grammar.assignable) hid fun c t' hpeek hid' _ => ?_
  refine known (fun m hnodes => node_eq (hnodes ▸ hpeek.cell)) ?_
  have htarget : Runs greatest w base (fun w' id t => Own greatest w' base id t)
      (do Arena.change id fun c => { c with kind := .localTarget }; return id)
      (Pure.pure { t' with kind := .localTarget }) :=
    relabel (φ := fun t => { t with kind := .localTarget }) hid' fun _ _ _ _ _ =>
      ⟨_, _, _, rfl, rfl⟩
  have hempty : c.children.isEmpty = t'.children.isEmpty := by
    have hlength := hpeek.children.length_eq
    rw [Bool.eq_iff_iff, List.isEmpty_iff_length_eq_zero, List.isEmpty_iff_length_eq_zero, hlength]
  unfold Grammar.assignable
  rw [hpeek.kind, hempty, hpeek.text, hpeek.span]
  cases hkind : t'.kind with
  | localVariable => exact htarget
  | localTarget => exact htarget
  | instanceVariable => exact .pure hid'
  | classVariable => exact .pure hid'
  | globalVariable => exact .pure hid'
  | constant => exact .pure hid'
  | scopedConstant => exact .pure hid'
  | index => exact .pure hid'
  | call =>
    refine .ite ((Exact.declare _).runs fun _ => htarget) ?_
    refine known (fun m hnodes => isAttribute_eq (hnodes ▸ hpeek)) ?_
    exact .ite (.pure hid') (.fail _)
  | _ => exact .fail _

end Runs

/-! ### Lists and choices -/

/-- Rounds of a list. -/
abbrev Rounds (greatest : Option ℕ) (w : Array Cell) (base : ℕ) :
    Round (List ℕ) (List ℕ) → Round (List Node) (List Node) → Prop :=
  Turns (Owns greatest w base) (Owns greatest w base)

/-- Rounds that each add owned nodes make all of them alike. -/
lemma MakesAll.listing {body : List ℕ → Parser (Round (List ℕ) (List ℕ))}
    {body' : List Node → Grammar.Parser (Round (List Node) (List Node))}
    (hbody : ∀ w base seen seen', Owns greatest w base seen seen' →
      Runs greatest w base (fun w' => Rounds greatest w' base) (body seen) (body' seen'))
    (rounds : ℕ) : MakesAll greatest (iterate body rounds []) (Grammar.iterate body' rounds []) :=
  fun _ => .iterate (fun w' => hbody w' _) rounds .nil

section Choices

variable {x : Prop} [Decidable x]

/-- What is done with several nodes, whichever they are. -/
lemma Yields.either {p p' : Parser (List NodeId)} {q q' : Grammar.Parser (List Node)}
    {f : List NodeId → Parser γ} {g : List Node → Grammar.Parser δ} (h : MakesAll greatest p q)
    (h' : MakesAll greatest p' q')
    (hf : ∀ w' ids ts, Grown greatest w.size w w' → Owns greatest w' base ids ts →
      Runs greatest w' base V (f ids) (g ts)) :
    Runs greatest w base V (if x then p >>= f else p' >>= f) (if x then q >>= g else q' >>= g) :=
  .ite (h.bindAll hf) (h'.bindAll hf)

end Choices

end RubyCheck.Arena
