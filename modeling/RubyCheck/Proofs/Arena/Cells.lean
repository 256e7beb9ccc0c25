import Mathlib.Data.List.Forall2
import Mathlib.Order.Basic
import Mathlib.Order.Nat
import RubyCheck.Arena.Expression

/-!
# Trees in an arena

An arena shows a tree if the node of an id has its kind, span and text, and names nodes that show its
children.  `Shows` says besides between which indices all of the tree lies, and that the root does
not lie among what belongs to a child; so what is done to a root does nothing to its children, and
what is done behind a tree does nothing to the tree.

`Own` is what a production may rely on for an id that was handed on: it is the id of a node that
exists, from `base` on, and where ids have no width that node shows the tree.  `Grown` is what an arena
goes through while a production reads that changes no node before `base`.
-/

namespace RubyCheck.Arena

variable {greatest : Option ℕ} {w w' w'' : Array Cell} {base base' lo lo' hi hi' root n : ℕ}
  {id : ℕ} {ids : List ℕ} {t : Node} {ts : List Node} {c : Cell}

/-- An id is no greater than the index it stands for. -/
lemma idAt_le (greatest : Option ℕ) (i : ℕ) : idAt greatest i ≤ i := by
  cases greatest with
  | none => exact le_rfl
  | some g => exact Nat.min_le_left i g

/-- An id that lies below the index it was given for is the greatest one. -/
lemma idAt_lt_of_lt {i j : ℕ} (hi : idAt greatest i < n) (hn : n ≤ i) : idAt greatest j < n := by
  cases greatest with
  | none => exact absurd hi hn.not_gt
  | some g =>
    change min i g < n at hi
    change min j g < n
    omega

/-- What lies before a mark stays when the rest is taken out. -/
lemma getElem?_take {i : ℕ} (hi : i < n) : (w.take n)[i]? = w[i]? := by
  simp only [Array.take_eq_extract, Array.getElem?_extract]
  by_cases hsize : i < w.size
  · rw [if_pos (by omega), Nat.zero_add]
  · rw [if_neg (by omega), Array.getElem?_eq_none (by omega)]

/-! ### Arenas that grow -/

/-- Below an index every node names only nodes below it. -/
def Closed (w : Array Cell) (n : ℕ) : Prop :=
  ∀ i c, i < n → w[i]? = some c → ∀ child ∈ c.children, child < n

/-- What an arena goes through if no node before `base` is changed: it gets no smaller, and what names
only nodes below some index up to `base` goes on to. -/
structure Grown (greatest : Option ℕ) (base : ℕ) (w w' : Array Cell) : Prop where
  size_le : w.size ≤ w'.size
  closed : ∀ n ≤ base, Closed w n → Closed w' n
  same : greatest = none → ∀ i < base, w'[i]? = w[i]?

namespace Grown

/-- An arena that nothing is done to grows. -/
lemma refl (greatest : Option ℕ) (base : ℕ) (w : Array Cell) : Grown greatest base w w :=
  ⟨le_rfl, fun _ _ h => h, fun _ _ _ => rfl⟩

/-- Growing twice is growing. -/
lemma trans (h : Grown greatest base w w') (h' : Grown greatest base w' w'') :
    Grown greatest base w w'' where
  size_le := h.size_le.trans h'.size_le
  closed := fun n hn hw => h'.closed n hn (h.closed n hn hw)
  same := fun hid i hi => (h'.same hid i hi).trans (h.same hid i hi)

/-- What changes no node before an index changes none before a lower one. -/
lemma mono (h : Grown greatest base w w') (hbase : base' ≤ base) : Grown greatest base' w w' where
  size_le := h.size_le
  closed := fun n hn hw => h.closed n (hn.trans hbase) hw
  same := fun hid i hi => h.same hid i (hi.trans_le hbase)

/-- Nodes before `base` stay as they are if one more is added. -/
lemma push (greatest : Option ℕ) (hbase : base ≤ w.size) (c : Cell) :
    Grown greatest base w (w.push c) where
  size_le := by simp
  closed := by
    intro n hn hw i c' hi hc'
    rw [Array.getElem?_push_lt (by omega), ← Array.getElem?_eq_getElem] at hc'
    exact hw i c' hi hc'
  same := by
    intro _ i hi
    rw [Array.getElem?_push, if_neg (by omega)]

/-- What is taken out again behind `base` leaves no trace. -/
lemma take (h : Grown greatest base w w') (hbase : base = w.size) :
    Grown greatest base w (w'.take base) where
  size_le := by
    have hsize := h.size_le
    simp only [Array.take_eq_extract, Array.size_extract]
    omega
  closed := by
    intro n hn hw i c hi hc
    rw [getElem?_take (by omega)] at hc
    exact h.closed n hn hw i c hi hc
  same := by
    intro hid i hi
    rw [getElem?_take hi]
    exact h.same hid i hi

end Grown

/-! ### Trees -/

mutual

/-- The node of an id shows a tree all of which lies between two indices. -/
def Shows (w : Array Cell) (lo hi : ℕ) (id : ℕ) : Node → Prop
  | ⟨kind, span, text, children⟩ =>
    lo ≤ id ∧ id < hi ∧ ∃ ids, w[id]? = some ⟨kind, span, text, ids⟩ ∧
      ShowsEach w lo hi id ids children

/-- The nodes of some ids show some trees, each within a stretch of its own without the root. -/
def ShowsEach (w : Array Cell) (lo hi : ℕ) (root : ℕ) : List ℕ → List Node → Prop
  | [], [] => True
  | id :: ids, t :: ts =>
    (∃ a b, lo ≤ a ∧ b ≤ hi ∧ (b ≤ root ∨ root < a) ∧ Shows w a b id t) ∧
      ShowsEach w lo hi root ids ts
  | _, _ => False

end

/-- The node of an id shows a tree within a stretch that does not contain the root. -/
def Beside (w : Array Cell) (lo hi : ℕ) (root id : ℕ) (t : Node) : Prop :=
  ∃ a b, lo ≤ a ∧ b ≤ hi ∧ (b ≤ root ∨ root < a) ∧ Shows w a b id t

/-- Ids show trees one by one, each beside the root. -/
lemma showsEach_iff : ShowsEach w lo hi root ids ts ↔ List.Forall₂ (Beside w lo hi root) ids ts := by
  induction ids generalizing ts with
  | nil => cases ts <;> simp [ShowsEach]
  | cons id ids ih =>
    cases ts with
    | nil => simp [ShowsEach]
    | cons t ts => rw [ShowsEach, List.forall₂_cons, ih, Beside]

/-- An id shows a tree if its node has the same kind, span and text and its ids show the children. -/
lemma shows_iff : Shows w lo hi id t ↔ lo ≤ id ∧ id < hi ∧
    ∃ ids, w[id]? = some ⟨t.kind, t.span, t.text, ids⟩ ∧
      List.Forall₂ (Beside w lo hi id) ids t.children := by
  cases t
  simp only [Shows, showsEach_iff]

/-- A tree that lies between two indices lies between wider ones. -/
lemma Beside.mono (h : Beside w lo hi root id t) (hlo : lo' ≤ lo) (hhi : hi ≤ hi') :
    Beside w lo' hi' root id t := by
  obtain ⟨a, b, ha, hb, hroot, hshows⟩ := h
  exact ⟨a, b, hlo.trans ha, hb.trans hhi, hroot, hshows⟩

/-- A tree that lies between two indices lies between wider ones. -/
lemma Shows.mono (h : Shows w lo hi id t) (hlo : lo' ≤ lo) (hhi : hi ≤ hi') :
    Shows w lo' hi' id t := by
  rw [shows_iff] at h ⊢
  obtain ⟨hle, hlt, ids, hcell, hchildren⟩ := h
  exact ⟨hlo.trans hle, hlt.trans_le hhi, ids, hcell,
    hchildren.imp fun _ _ hchild => hchild.mono hlo hhi⟩

mutual

/-- A tree is shown by every arena that is the same where the tree lies. -/
lemma Shows.congr {lo hi id : ℕ} (hsame : ∀ i, lo ≤ i → i < hi → w'[i]? = w[i]?) :
    (t : Node) → Shows w lo hi id t → Shows w' lo hi id t
  | ⟨_, _, _, children⟩, h => by
    rw [Shows] at h ⊢
    obtain ⟨hle, hlt, ids, hcell, hchildren⟩ := h
    exact ⟨hle, hlt, ids, (hsame _ hle hlt).trans hcell,
      ShowsEach.congr (fun i hlo hhi _ => hsame i hlo hhi) ids children hchildren⟩

/-- What happens outside a stretch, and at the root, changes nothing of the trees in it. -/
lemma ShowsEach.congr {lo hi root : ℕ}
    (hsame : ∀ i, lo ≤ i → i < hi → i ≠ root → w'[i]? = w[i]?) :
    (ids : List ℕ) → (ts : List Node) → ShowsEach w lo hi root ids ts →
      ShowsEach w' lo hi root ids ts
  | [], [], _ => by rw [ShowsEach]; trivial
  | id :: ids, t :: ts, h => by
    rw [ShowsEach] at h ⊢
    obtain ⟨⟨a, b, ha, hb, hroot, hshows⟩, hrest⟩ := h
    refine ⟨⟨a, b, ha, hb, hroot, ?_⟩, ShowsEach.congr hsame ids ts hrest⟩
    refine Shows.congr (fun i hai hib => ?_) t hshows
    exact hsame i (ha.trans hai) (hib.trans_le hb) (by omega)
  | [], _ :: _, h => by simp [ShowsEach] at h
  | _ :: _, [], h => by simp [ShowsEach] at h

end

mutual

/-- An arena shows at most one tree at an id. -/
theorem Shows.unique {lo hi lo' hi' id : ℕ} : (t : Node) → {t' : Node} → Shows w lo hi id t →
    Shows w lo' hi' id t' → t = t'
  | ⟨_, _, _, children⟩, ⟨_, _, _, _⟩, h, h' => by
    rw [Shows] at h h'
    obtain ⟨-, -, ids, hcell, hchildren⟩ := h
    obtain ⟨-, -, ids', hcell', hchildren'⟩ := h'
    obtain ⟨rfl, rfl, rfl, rfl⟩ := Cell.mk.inj (Option.some.inj (hcell.symm.trans hcell'))
    rw [ShowsEach.unique ids children hchildren hchildren']

/-- Ids show no more than one list of trees. -/
lemma ShowsEach.unique {lo hi lo' hi' root root' : ℕ} : (ids : List ℕ) → (ts : List Node) →
    {ts' : List Node} → ShowsEach w lo hi root ids ts → ShowsEach w lo' hi' root' ids ts' → ts = ts'
  | [], [], [], _, _ => rfl
  | _ :: ids, t :: ts, _ :: _, h, h' => by
    rw [ShowsEach] at h h'
    obtain ⟨⟨_, _, -, -, -, hshows⟩, hrest⟩ := h
    obtain ⟨⟨_, _, -, -, -, hshows'⟩, hrest'⟩ := h'
    rw [Shows.unique t hshows hshows', ShowsEach.unique ids ts hrest hrest']
  | [], _ :: _, _, h, _ | _ :: _, [], _, h, _ => by simp [ShowsEach] at h
  | [], _, _ :: _, _, h | _ :: _, _, [], _, h => by simp [ShowsEach] at h

end

/-! ### Nodes that are handed on -/

/-- What a production may rely on for an id: it is that of a node from `base` on, and where ids have no
width this node shows the tree. -/
structure Own (greatest : Option ℕ) (w : Array Cell) (base id : ℕ) (t : Node) : Prop where
  placed : ∃ i, base ≤ i ∧ i < w.size ∧ id = idAt greatest i
  shows : greatest = none → Shows w base w.size id t

namespace Own

/-- An id that is owned is that of a node. -/
lemma lt (h : Own greatest w base id t) : id < w.size := by
  obtain ⟨i, -, hi, rfl⟩ := h.placed
  exact (idAt_le greatest i).trans_lt hi

/-- The node of an id that is owned is in the arena. -/
lemma exists_cell (h : Own greatest w base id t) : ∃ c, w[id]? = some c :=
  ⟨_, Array.getElem?_eq_getElem h.lt⟩

/-- What is from an index on is so from a lower one on. -/
lemma mono (h : Own greatest w base id t) (hbase : base' ≤ base) : Own greatest w base' id t where
  placed := by
    obtain ⟨i, hi, hsize, hid⟩ := h.placed
    exact ⟨i, hbase.trans hi, hsize, hid⟩
  shows := fun hid => (h.shows hid).mono hbase le_rfl

/-- A node stays what it is while nodes behind it are read. -/
lemma grown (h : Own greatest w base id t) (hw : Grown greatest w.size w w') :
    Own greatest w' base id t where
  placed := by
    obtain ⟨i, hi, hsize, hid⟩ := h.placed
    exact ⟨i, hi, hsize.trans_le hw.size_le, hid⟩
  shows := fun hid =>
    (Shows.congr (fun i _ hi => hw.same hid i hi) t (h.shows hid)).mono le_rfl hw.size_le

end Own

/-- The same for several ids and trees. -/
abbrev Owns (greatest : Option ℕ) (w : Array Cell) (base : ℕ) : List ℕ → List Node → Prop :=
  List.Forall₂ (Own greatest w base)

/-- Several ids that are owned are those of nodes. -/
lemma Owns.lt (h : Owns greatest w base ids ts) : ∀ id ∈ ids, id < w.size := by
  induction h with
  | nil => simp
  | cons hid _ ih => exact List.forall_mem_cons.mpr ⟨hid.lt, ih⟩

/-- What is owned is owned in an arena that has grown behind it. -/
lemma Owns.grown (h : Owns greatest w base ids ts) (hw : Grown greatest w.size w w') :
    Owns greatest w' base ids ts :=
  h.imp fun _ _ hid => hid.grown hw

/-- What is owned from an index on is owned from every earlier one. -/
lemma Owns.mono (h : Owns greatest w base ids ts) (hbase : base' ≤ base) :
    Owns greatest w base' ids ts :=
  h.imp fun _ _ hid => hid.mono hbase

/-! ### New nodes -/

/-- A new node that names older ones leaves the arena closed. -/
lemma closed_push (hw : Closed w w.size) (hc : ∀ child ∈ c.children, child < w.size) :
    Closed (w.push c) (w.push c).size := by
  intro i c' hi hc' child hchild
  rw [Array.size_push] at hi ⊢
  rw [Array.getElem?_push] at hc'
  split at hc'
  · obtain rfl := Option.some.inj hc'
    exact (hc child hchild).trans (Nat.lt_succ_self _)
  · exact (hw i c' (by omega) hc' child hchild).trans (Nat.lt_succ_self _)

/-- A new node shows the tree of what its children show. -/
lemma Own.push (h : greatest = none → Owns greatest w base ids ts) (hbase : base ≤ w.size)
    (kind : NodeKind) (span : Span) (text : Option String) :
    Own greatest (w.push ⟨kind, span, text, ids⟩) base (idAt greatest w.size)
      ⟨kind, span, text, ts⟩ where
  placed := ⟨w.size, hbase, by simp, rfl⟩
  shows := by
    rintro rfl
    rw [shows_iff]
    refine ⟨hbase, by simp [idAt], ids, by simp [idAt], ?_⟩
    refine (h rfl).imp fun id t hid => ⟨base, w.size, le_rfl, by simp, .inl le_rfl, ?_⟩
    refine Shows.congr (fun i _ hi => ?_) t (hid.shows rfl)
    rw [Array.getElem?_push, if_neg hi.ne]

/-! ### Changed nodes -/

/-- What a change does to a node and its tree if it leaves the children alone. -/
def Relabels (f : Cell → Cell) (φ : Node → Node) : Prop :=
  ∀ kind span text ids ts, ∃ kind' span' text',
    f ⟨kind, span, text, ids⟩ = ⟨kind', span', text', ids⟩ ∧
      φ ⟨kind, span, text, ts⟩ = ⟨kind', span', text', ts⟩

section Change

variable {f : Cell → Cell} {φ : Node → Node}

/-- Relabelling a node leaves its children. -/
lemma Relabels.children_eq (h : Relabels f φ) (c : Cell) : (f c).children = c.children := by
  obtain ⟨kind, span, text, ids⟩ := c
  obtain ⟨_, _, _, hf, -⟩ := h kind span text ids []
  rw [hf]

/-- So it leaves the arena closed. -/
lemma closed_modify (h : Relabels f φ) (hw : Closed w n) : Closed (w.modify id f) n := by
  intro i c hi hc child hchild
  rw [Array.getElem?_modify] at hc
  split at hc
  · obtain ⟨d, hd, rfl⟩ := Option.map_eq_some_iff.mp hc
    rw [h.children_eq] at hchild
    exact hw i d hi hd child hchild
  · exact hw i c hi hc child hchild

/-- Changing a node that is from `base` on changes none before it. -/
lemma Own.grown_change (hid : Own greatest w base id t) (h : Relabels f φ) :
    Grown greatest base w (w.modify id f) where
  size_le := by simp
  closed := fun _ _ hw => closed_modify h hw
  same := by
    intro hnone i hi
    obtain ⟨hle, -⟩ := shows_iff.mp (hid.shows hnone)
    rw [Array.getElem?_modify, if_neg (by omega)]

/-- A changed node shows the changed tree. -/
lemma Own.change (hid : Own greatest w base id t) (h : Relabels f φ) :
    Own greatest (w.modify id f) base id (φ t) where
  placed := by simpa using hid.placed
  shows := by
    intro hnone
    obtain ⟨kind, span, text, children⟩ := t
    obtain ⟨hle, hlt, ids, hcell, hchildren⟩ := hid.shows hnone
    obtain ⟨kind', span', text', hf, hφ⟩ := h kind span text ids children
    rw [hφ, Shows]
    refine ⟨hle, by simpa using hlt, ids, ?_, ?_⟩
    · rw [Array.getElem?_modify, if_pos rfl, hcell, Option.map_some, hf]
    · rw [Array.size_modify]
      refine ShowsEach.congr (fun i _ _ hi => ?_) ids children hchildren
      rw [Array.getElem?_modify, if_neg (Ne.symm hi)]

end Change

/-! ### Blocks behind calls -/

section Attach

variable {call block : ℕ} {u : Node} {stop : Position}

/-- A block that exists may be put behind a call. -/
lemma closed_attach (hw : Closed w n) (hblock : block < n) :
    Closed (w.modify call (Cell.withBlock block stop)) n := by
  intro i c hi hc child hchild
  rw [Array.getElem?_modify] at hc
  split at hc
  · obtain ⟨d, hd, rfl⟩ := Option.map_eq_some_iff.mp hc
    rcases List.mem_append.mp hchild with hchild | hchild
    · exact hw i d hi hd child hchild
    · rwa [List.mem_singleton.mp hchild]
  · exact hw i c hi hc child hchild

/-- Putting a block behind a call that is from `base` on changes no node before it: the block is
behind it too, or both have the greatest id. -/
lemma Own.grown_attach (hcall : Own greatest w base call t) (hblock : Own greatest w base block u) :
    Grown greatest base w (w.modify call (Cell.withBlock block stop)) where
  size_le := by simp
  closed := by
    intro n hn hw
    obtain ⟨i, hi, -, rfl⟩ := hcall.placed
    obtain ⟨j, -, -, rfl⟩ := hblock.placed
    by_cases hlt : idAt greatest i < n
    · exact closed_attach hw (idAt_lt_of_lt hlt (hn.trans hi))
    · intro k c hk hc
      have hne : idAt greatest i ≠ k := fun heq => hlt (heq ▸ hk)
      rw [Array.getElem?_modify, if_neg hne] at hc
      exact hw k c hk hc
  same := by
    intro hnone i hi
    obtain ⟨hle, -⟩ := shows_iff.mp (hcall.shows hnone)
    rw [Array.getElem?_modify, if_neg (by omega)]

/-- The call shows the tree with the block behind it, if the block was read behind the call. -/
lemma Own.attach (hcall : Own greatest w base call t) (hw : Grown greatest w.size w w')
    (hblock : Own greatest w' w.size block u) (hstop : greatest = none → stop = u.span.stop) :
    Own greatest (w'.modify call (Cell.withBlock block stop)) base call
      { t with children := t.children ++ [u], span := ⟨t.span.start, u.span.stop⟩ } where
  placed := by simpa using (hcall.grown hw).placed
  shows := by
    intro hnone
    obtain ⟨hle, hlt, ids, hcell, hchildren⟩ := shows_iff.mp (hcall.shows hnone)
    have hsize := hw.size_le
    rw [shows_iff]
    refine ⟨hle, by simp; omega, ids ++ [block], ?_, ?_⟩
    · rw [Array.getElem?_modify, if_pos rfl, hw.same hnone call hlt, hcell, hstop hnone]
      rfl
    · rw [Array.size_modify]
      refine List.rel_append (hchildren.imp fun child v hchild => ?_) (.cons ?_ .nil)
      · obtain ⟨a, b, ha, hb, hroot, hshows⟩ := hchild
        refine ⟨a, b, ha, hb.trans hsize, hroot, ?_⟩
        refine Shows.congr (fun i hai hib => ?_) v hshows
        rw [Array.getElem?_modify, if_neg (by omega), hw.same hnone i (hib.trans_le hb)]
      · refine ⟨w.size, w'.size, hle.trans hlt.le, le_rfl, .inr hlt, ?_⟩
        refine Shows.congr (fun i hi _ => ?_) u (hblock.shows hnone)
        rw [Array.getElem?_modify, if_neg (by omega)]

end Attach

/-! ### Looking at nodes -/

/-- What a look at a node and at the kinds of its children tells. -/
structure Peek (w : Array Cell) (id : ℕ) (t : Node) (c : Cell) : Prop where
  cell : w[id]? = some c
  kind : c.kind = t.kind
  span : c.span = t.span
  text : c.text = t.text
  children : List.Forall₂ (fun child u => ∃ d, w[child]? = some d ∧ d.kind = u.kind)
    c.children t.children

/-- The children of a node that was looked at are nodes. -/
lemma Peek.lt (h : Peek w id t c) : ∀ child ∈ c.children, child < w.size := by
  have hchildren := h.children
  generalize c.children = ids at hchildren ⊢
  generalize t.children = ts at hchildren
  induction hchildren with
  | nil => simp
  | cons hchild _ ih =>
    obtain ⟨d, hd, -⟩ := hchild
    exact List.forall_mem_cons.mpr ⟨(Array.getElem?_eq_some_iff.mp hd).1, ih⟩

/-- The tree that a node looks like at first sight: its children have kinds and nothing else. -/
def atSight (w : Array Cell) (c : Cell) : Node :=
  ⟨c.kind, c.span, c.text, c.children.map fun child =>
    .inner ((w[child]?.map (·.kind)).getD default) default []⟩

/-- Every node can be looked at, and what is seen is what it shows where ids have no width. -/
lemma Own.exists_peek (h : Own greatest w base id t) (hw : Closed w w.size) :
    ∃ c t', Peek w id t' c ∧ Own greatest w base id t' ∧ (greatest = none → t' = t) := by
  cases hgreatest : greatest with
  | none =>
    obtain ⟨-, -, ids, hcell, hchildren⟩ := shows_iff.mp (h.shows hgreatest)
    refine ⟨_, t, ⟨hcell, rfl, rfl, rfl, hchildren.imp fun child u hchild => ?_⟩, hgreatest ▸ h,
      fun _ => rfl⟩
    obtain ⟨a, b, -, -, -, hshows⟩ := hchild
    obtain ⟨-, -, _, hcell, -⟩ := shows_iff.mp hshows
    exact ⟨_, hcell, rfl⟩
  | some g =>
    obtain ⟨c, hcell⟩ := h.exists_cell
    refine ⟨c, atSight w c, ⟨hcell, rfl, rfl, rfl, ?_⟩, ⟨hgreatest ▸ h.placed, by simp⟩, by simp⟩
    refine List.forall₂_map_right_iff.mpr (List.forall₂_same.mpr fun child hchild => ?_)
    have hlt := hw id c h.lt hcell child hchild
    exact ⟨_, Array.getElem?_eq_getElem hlt, by simp [Node.inner, Array.getElem?_eq_getElem hlt]⟩

end RubyCheck.Arena
