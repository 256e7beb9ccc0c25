import RubyCheck.Proofs.Grammar.Order

/-!
# Nodes apart from the regions that are given up

Whatever a finding may point at begins with a token that covers some text, and a region that is given
up ends where the tokens that were given up end.  So in a text whose tokens stand in order, no such
node begins inside such a region (`Node.Apart`), wherever the two are in the tree: a node around the
region begins with a token of its own in front of it, and the nodes on either side of it were read
from other tokens.
-/

namespace RubyCheck

/-! ### Tokens in order of their bytes -/

/-- The later of two positions has the greater of their bytes. -/
lemma Position.byte_later (p q : Position) : (p.later q).byte = max p.byte q.byte := by
  unfold later
  split
  · rename_i hgt
    rw [compare_eq] at hgt
    simp only [Ordering.then_eq_gt, Nat.compare_eq_gt, Nat.compare_eq_eq] at hgt
    omega
  · rename_i hle
    rw [compare_eq] at hle
    simp only [Ordering.then_eq_gt, Nat.compare_eq_gt, Nat.compare_eq_eq] at hle
    omega

namespace Tape

variable {b : ℕ} {tape : Tape}

/-- The tokens from the current one on are in order by their bytes, behind the token that was
consumed last, and the current one does not begin before some byte. -/
structure Rises (b : ℕ) (tape : Tape) : Prop where
  each : ∀ t ∈ tape.current :: tape.ahead, t.span.start.byte ≤ t.span.stop.byte ∧ t.Written
  chain : (tape.current :: tape.ahead).IsChain fun t u => t.span.stop.byte ≤ u.span.start.byte
  behind : ∀ t ∈ tape.consumed, t.span.stop.byte ≤ tape.current.span.start.byte
  le : b ≤ tape.current.span.start.byte

/-- The tokens from the current one on stay in order by their bytes. -/
lemma onward_rises (b : ℕ) : Onward (Rises b) := by
  rintro consumed t u us ⟨heach, hchain, -, hle⟩
  rw [List.forall_mem_cons] at heach
  have htu : t.span.stop.byte ≤ u.span.start.byte := (List.isChain_cons_cons.mp hchain).1
  refine ⟨heach.2, hchain.tail, ?_, (hle.trans heach.1.1).trans htu⟩
  rintro v hv
  obtain rfl := Option.mem_some.mp hv
  exact htu

/-- A tape that has consumed a token goes on to have consumed one. -/
lemma onward_isSome : Onward fun tape => tape.consumed.isSome = true := fun _ _ _ _ _ => rfl

/-- Consuming a token leaves it consumed. -/
lemma Consumable.isSome_advance (h : tape.Consumable) : tape.advance.consumed.isSome = true := by
  obtain ⟨consumed, t, u, us, -, -, hadvance⟩ := h.exists_advance
  rw [hadvance]
  rfl

/-- The tokens do not begin before the byte of the current one. -/
lemma Rises.here (h : Rises b tape) : Rises tape.current.span.start.byte tape :=
  ⟨h.each, h.chain, h.behind, Nat.le_refl _⟩

end Tape

/-! ### Nodes apart -/

namespace Node

variable {p q r c : ℕ} {n n' : Node} {ns ms : List Node}

/-- Whether a node is pointed at, or is once a name is assigned to. -/
def isHeld (n : Node) : Bool := n.isPointedAt || n.isBareName

/-- Some trees with everything below them. -/
def parts (ns : List Node) : List Node := (outlineEach 0 ns).map Prod.snd

/-- The nodes of some trees are those of their outline, at whatever depth. -/
lemma map_outlineEach (depth : ℕ) (ns : List Node) :
    (outlineEach depth ns).map Prod.snd = parts ns := by
  have hsituate (depth : ℕ) : (situateEach [] [] 0 0 ns).map Prod.snd =
      (outlineEach depth ns).map Prod.snd := map_situateEach ns
  rw [parts, ← hsituate depth, ← hsituate 0]

/-- The first tree comes first, with everything below it. -/
lemma parts_cons (n : Node) (ns : List Node) :
    parts (n :: ns) = n :: (parts n.children ++ parts ns) := by
  rw [parts, outlineEach, outline_eq, List.cons_append, List.map_cons, List.map_append,
    map_outlineEach, map_outlineEach]

/-- Trees in a row come one behind another. -/
lemma parts_append (ns ms : List Node) : parts (ns ++ ms) = parts ns ++ parts ms := by
  rw [parts, outlineEach_eq_flatMap, List.flatMap_append, List.map_append, ← outlineEach_eq_flatMap,
    ← outlineEach_eq_flatMap, parts, parts]

/-- A tree is its root and what is below. -/
lemma parts_one (n : Node) : parts [n] = n :: parts n.children := by
  rw [parts_cons]
  change n :: (parts n.children ++ []) = _
  rw [List.append_nil]

/-- Leaves have nothing below them. -/
lemma parts_of_leaves (h : ∀ n ∈ ns, n.children = []) : parts ns = ns := by
  induction ns with
  | nil => rfl
  | cons n ns ih =>
    rw [List.forall_mem_cons] at h
    rw [parts_cons, ih h.2, h.1]
    rfl

/-- Nodes between two bytes: whatever may be pointed at begins in between, whatever was given up is
in between, and no node of the former kind begins in one of the latter. -/
structure Apart (p : ℕ) (ns : List Node) (q : ℕ) : Prop where
  le : p ≤ q
  held : ∀ n ∈ parts ns, n.isHeld = true → p ≤ n.span.start.byte ∧ n.span.start.byte < q
  given : ∀ e ∈ parts ns, e.kind = .error → p ≤ e.span.start.byte ∧ e.span.stop.byte ≤ q
  apart : ∀ n ∈ parts ns, ∀ e ∈ parts ns, n.isHeld = true → e.kind = .error →
    n.span.start.byte < e.span.start.byte ∨ e.span.stop.byte ≤ n.span.start.byte

/-- A region that was given up is not pointed at. -/
lemma isHeld_of_error (h : n.kind = .error) : n.isHeld = false := by
  obtain ⟨kind, span, text, children⟩ := n
  obtain rfl : kind = .error := h
  rfl

namespace Apart

/-- No nodes are apart between any two bytes in order. -/
lemma nil (h : p ≤ q) : Apart p [] q :=
  ⟨h, by simp [parts, outlineEach], by simp [parts, outlineEach], by simp [parts, outlineEach]⟩

/-- Nodes behind others. -/
lemma append (h : Apart p ns q) (h' : Apart q ms r) : Apart p (ns ++ ms) r where
  le := h.le.trans h'.le
  held := by
    rw [parts_append]
    refine List.forall_mem_append.mpr ⟨fun n hn hheld => ?_, fun n hn hheld => ?_⟩
    · exact ⟨(h.held n hn hheld).1, Nat.lt_of_lt_of_le (h.held n hn hheld).2 h'.le⟩
    · exact ⟨h.le.trans (h'.held n hn hheld).1, (h'.held n hn hheld).2⟩
  given := by
    rw [parts_append]
    refine List.forall_mem_append.mpr ⟨fun e he hkind => ?_, fun e he hkind => ?_⟩
    · exact ⟨(h.given e he hkind).1, (h.given e he hkind).2.trans h'.le⟩
    · exact ⟨h.le.trans (h'.given e he hkind).1, (h'.given e he hkind).2⟩
  apart := by
    rw [parts_append]
    intro n hn e he hheld hkind
    rcases List.mem_append.mp hn with hn | hn
    · rcases List.mem_append.mp he with he | he
      · exact h.apart n hn e he hheld hkind
      · exact .inl (Nat.lt_of_lt_of_le (h.held n hn hheld).2 (h'.given e he hkind).1)
    · rcases List.mem_append.mp he with he | he
      · exact .inr ((h.given e he hkind).2.trans (h'.held n hn hheld).1)
      · exact h'.apart n hn e he hheld hkind

/-- Nodes that are apart up to a byte are so up to every later one. -/
lemma le_to (h : Apart p ns q) (hq : q ≤ r) : Apart p ns r := by
  have hall := h.append (.nil hq)
  rwa [List.append_nil] at hall

/-- Nodes that are apart from a byte on are so from every earlier one. -/
lemma from_le (h : Apart q ns r) (hp : p ≤ q) : Apart p ns r := Apart.append (.nil hp) h

/-- A node around others.  If it may be pointed at, it begins in front of them. -/
lemma around (h : Apart c n.children q) (hc : p ≤ c) (herror : n.kind ≠ .error)
    (hheld : n.isHeld = true → p ≤ n.span.start.byte ∧ n.span.start.byte < c) :
    Apart p [n] q := by
  have hinside := h.from_le hc
  refine ⟨hinside.le, ?_, ?_, ?_⟩
  · rw [parts_one]
    refine List.forall_mem_cons.mpr ⟨fun hn => ?_, hinside.held⟩
    exact ⟨(hheld hn).1, Nat.lt_of_lt_of_le (hheld hn).2 h.le⟩
  · rw [parts_one]
    exact List.forall_mem_cons.mpr ⟨fun hkind => absurd hkind herror, hinside.given⟩
  · rw [parts_one]
    intro m hm e he hm' hkind
    rcases List.mem_cons.mp he with rfl | he
    · exact absurd hkind herror
    · rcases List.mem_cons.mp hm with rfl | hm
      · exact .inl (Nat.lt_of_lt_of_le (hheld hm').2 (h.given e he hkind).1)
      · exact h.apart m hm e he hm' hkind

/-- A node that is never pointed at may begin anywhere. -/
lemma unheld (h : Apart p n.children q) (herror : n.kind ≠ .error) (hheld : n.isHeld = false) :
    Apart p [n] q := by
  refine h.around (Nat.le_refl p) herror fun hn => ?_
  rw [hheld] at hn
  exact absurd hn Bool.false_ne_true

/-- Nodes without children that were not given up. -/
lemma leaves (hle : p ≤ q) (h : ∀ n ∈ ns, n.children = [] ∧ n.kind ≠ .error ∧
    p ≤ n.span.start.byte ∧ n.span.start.byte < q) : Apart p ns q := by
  have hparts := parts_of_leaves fun n hn => (h n hn).1
  refine ⟨hle, ?_, ?_, ?_⟩
  · rw [hparts]
    exact fun n hn _ => (h n hn).2.2
  · rw [hparts]
    exact fun e he hkind => absurd hkind (h e he).2.1
  · rw [hparts]
    exact fun _ _ e he _ hkind => absurd hkind (h e he).2.1

/-- A leaf that begins between two bytes is apart. -/
lemma leaf (hleaf : n.children = []) (herror : n.kind ≠ .error) (hp : p ≤ n.span.start.byte)
    (hq : n.span.start.byte < q) : Apart p [n] q :=
  leaves (hp.trans (Nat.le_of_lt hq)) (List.forall_mem_singleton.mpr ⟨hleaf, herror, hp, hq⟩)

/-- A region that was given up. -/
lemma error (hleaf : n.children = []) (hkind : n.kind = .error) (hle : p ≤ q)
    (hp : p ≤ n.span.start.byte) (hq : n.span.stop.byte ≤ q) : Apart p [n] q := by
  have honly : parts [n] = [n] := by
    rw [parts_one, hleaf]
    rfl
  have hheld := isHeld_of_error hkind
  refine ⟨hle, ?_, ?_, ?_⟩
  · simp [honly, hheld]
  · rw [honly]
    exact List.forall_mem_singleton.mpr fun _ => ⟨hp, hq⟩
  · simp [honly, hheld]

/-- The children of a node that is apart are apart. -/
lemma children (h : Apart p [n] q) : Apart p n.children q := by
  have hsub : ∀ m ∈ parts n.children, m ∈ parts [n] := by
    intro m hm
    rw [parts_one]
    exact List.mem_cons_of_mem n hm
  exact ⟨h.le, fun m hm => h.held m (hsub m hm), fun e he => h.given e (hsub e he),
    fun m hm e he => h.apart m (hsub m hm) e (hsub e he)⟩

/-- A node that becomes a target may be pointed at from then on. -/
lemma retarget (h : Apart p [n] q) (hn : n.isHeld = true) (hspan : n'.span = n.span)
    (hchildren : n'.children = n.children) (herror : n'.kind ≠ .error) : Apart p [n'] q := by
  have hmem : n ∈ parts [n] := by
    rw [parts_one]
    exact List.mem_cons_self
  have hinside := h.children
  refine ⟨h.le, ?_, ?_, ?_⟩
  · rw [parts_one, hchildren]
    refine List.forall_mem_cons.mpr ⟨fun _ => ?_, hinside.held⟩
    rw [hspan]
    exact h.held n hmem hn
  · rw [parts_one, hchildren]
    exact List.forall_mem_cons.mpr ⟨fun hkind => absurd hkind herror, hinside.given⟩
  · rw [parts_one, hchildren]
    intro m hm e he hm' hkind
    rcases List.mem_cons.mp he with rfl | hbelow
    · exact absurd hkind herror
    · have hlisted : e ∈ parts [n] := by
        rw [parts_one]
        exact List.mem_cons_of_mem n hbelow
      rcases List.mem_cons.mp hm with rfl | hm
      · rw [hspan]
        exact h.apart n hmem e hlisted hn hkind
      · exact hinside.apart m hm e hbelow hm' hkind

end Apart

/-- What may be pointed at without being a name, or the place of one, begins with a token of its
own. -/
lemma isMarked_of_isHeld (hheld : n.isHeld = true) (hname : n.isBareName = false)
    (hdeclares : n.declares = false) : n.kind.isMarked = true := by
  obtain ⟨kind, span, text, children⟩ := n
  rw [isHeld, hname, Bool.or_false, isPointedAt, hdeclares, Bool.or_false] at hheld
  cases kind with
  | localVariable => simp [isBareName] at hname
  | endBlock | integer | float | string | character | symbol | regex | nil_ | true_ | false_
  | unary => rfl
  | _ => simp [literal?] at hheld

/-- A node that shows nothing, is no bare name and declares none is not held. -/
lemma isHeld_eq_false (hkind : n.kind.isMarked = false) (hname : n.isBareName = false)
    (hdeclares : n.declares = false) : n.isHeld = false := by
  rw [Bool.eq_false_iff]
  intro hheld
  exact NodeKind.not_marked hkind (isMarked_of_isHeld hheld hname hdeclares)

/-- So a node that has nothing to do with variables is not, unless a finding may point at its kind. -/
lemma isHeld_of_isInert (hinert : n.isInert = true) (hkind : n.kind.isMarked = false) :
    n.isHeld = false := by
  simp only [isInert, Bool.and_eq_true, Bool.not_eq_true'] at hinert
  exact isHeld_eq_false hkind hinert.1.1.1 hinert.1.1.2

end Node

/-! ### Reading apart -/

namespace Grammar

variable {s s' : State} {b : ℕ} {ns : List Node}

/-- Only names are bound. -/
lemma Binds.isWritten {t : Token} {name : String} (h : Binds t name) : t.kind.isWritten = true := by
  cases h with
  | identifier hkind => rw [hkind]; rfl
  | label hkind => rw [hkind]; rfl

/-- Behind what was read, the tokens are in order by their bytes. -/
lemma Passes.rises (h : Passes s s') (hs : s.tape.Rises b) : s'.tape.Rises s.start.byte :=
  h.onward (Tape.onward_rises _) hs.here

/-- A token that covers some text is left behind. -/
lemma State.start_lt_advanced (hmore : s.tape.Consumable) (hs : s.tape.Rises b)
    (hwritten : s.tape.kind.isWritten = true) : s.start.byte < s.advanced.start.byte := by
  obtain ⟨consumed, t, u, us, htape, -, hadvance⟩ := hmore.exists_advance
  rw [State.start, State.start, State.advanced, hadvance, htape]
  rw [htape] at hs hwritten
  have ht := (hs.each t List.mem_cons_self).2 hwritten
  exact Nat.lt_of_lt_of_le ht (List.isChain_cons_cons.mp hs.chain).1

/-- Consuming a token leads no further back. -/
lemma State.start_le_byte_advanced (hmore : s.tape.Consumable) (hs : s.tape.Rises b) :
    s.start.byte ≤ s.advanced.start.byte :=
  ((Passes.steps hmore.steps).rises hs).le

/-- Behind a token that is consumed the next one begins where it ends or later. -/
lemma State.stop_le_advanced (hmore : s.tape.Consumable) (hs : s.tape.Rises b) :
    s.tape.current.span.stop.byte ≤ s.advanced.start.byte := by
  obtain ⟨consumed, t, u, us, htape, -, hadvance⟩ := hmore.exists_advance
  rw [State.start, State.advanced, hadvance, htape]
  rw [htape] at hs
  exact (List.isChain_cons_cons.mp hs.chain).1

/-- Something that was consumed ends in front of what follows. -/
lemma State.stop_spanFrom {start : Position} (hs : s.tape.Rises b)
    (hstart : start.byte ≤ s.start.byte) (hconsumed : s.tape.consumed.isSome = true) :
    (s.spanFrom start).stop.byte ≤ s.start.byte := by
  obtain ⟨t, ht⟩ := Option.isSome_iff_exists.mp hconsumed
  have hprevious : s.tape.previous = t := by simp [Tape.previous, ht]
  have hbehind := hs.behind t ht
  rw [State.spanFrom, hprevious, Position.byte_later]
  exact Nat.max_le.mpr ⟨hbehind, hstart⟩

/-- A region that was given up ends where the current token begins or earlier. -/
lemma State.stop_errorNode {first : Token} (hs : s.tape.Rises b)
    (hfirst : first.span.start.byte ≤ s.start.byte)
    (hconsumed : first.isEof = true ∨ s.tape.consumed.isSome = true) :
    (s.errorNode first).span.stop.byte ≤ s.start.byte := by
  unfold State.errorNode
  split
  · exact hfirst
  · rename_i hmore
    exact State.stop_spanFrom hs hfirst (hconsumed.resolve_left hmore)

/-- What is read is apart from what is given up meanwhile. -/
theorem Reads.apart (h : Reads s ns s') (hs : s.tape.Rises b) :
    Node.Apart s.start.byte ns s'.start.byte := by
  induction h generalizing b with
  | steps hsteps => exact .nil ((Passes.steps hsteps).rises hs).le
  | report s f => exact .nil ((Passes.report s f).rises hs).le
  | abandon f hpasses => exact .nil ((hpasses.trans (.report _ f)).rises hs).le
  | append h _ ih ih' => exact (ih hs).append (ih' (h.passes.rises hs))
  | @within s s' _ c _ ih =>
    have hinside := ih (b := b) (by rwa [c.tape_enter])
    rwa [State.start, State.start, c.tape_enter, ← c.tape_leave s s'] at hinside
  | @error s s' h hconsumed ih =>
    have hbehind := h.passes.rises hs
    refine .error rfl rfl hbehind.le ?_ (State.stop_errorNode hbehind hbehind.le hconsumed)
    exact (congrArg Position.byte (s'.span_errorNode s.tape.current).1).ge
  | @leaf s k text hmore hfits hinert hmarks =>
    by_cases herror : k = .error
    · exact .error rfl herror (State.start_le_byte_advanced hmore hs) (Nat.le_refl _)
        (State.stop_le_advanced hmore hs)
    · by_cases hmarked : k.isMarked = true
      · have hwritten := (hmarks hmarked).2
        exact .leaf rfl herror (Nat.le_refl _) (State.start_lt_advanced hmore hs hwritten)
      · refine .unheld (.nil (State.start_le_byte_advanced hmore hs)) herror ?_
        exact Node.isHeld_of_isInert hinert (Bool.eq_false_iff.mpr hmarked)
  | @use s hmore hkind _ =>
    exact .leaf rfl (by simp [Node.leaf]) (Nat.le_refl _)
      (State.start_lt_advanced hmore hs (congrArg TokenKind.isWritten hkind))
  | @bareCall s hmore hkind _ =>
    exact .leaf rfl (by simp [Node.inner, Node.withText]) (Nat.le_refl _)
      (State.start_lt_advanced hmore hs (congrArg TokenKind.isWritten hkind))
  | @shorthand s name hmore hkind _ =>
    have hlt := State.start_lt_advanced hmore hs (congrArg TokenKind.isWritten hkind)
    refine .leaves (Nat.le_of_lt hlt) (List.forall_mem_cons.mpr ⟨?_, ?_⟩)
    · exact ⟨rfl, by simp [Node.leaf], Nat.le_refl _, hlt⟩
    · refine List.forall_mem_singleton.mpr ⟨rfl, ?_, Nat.le_refl _, hlt⟩
      rw [Node.leaf]
      split
      · simp
      · simp
  | @parameter s s₁ s₂ name ns hbefore hmore hbinds _ _ ih ih' =>
    have hat := hbefore.passes.rises hs
    have hbehind : Tape.Rises s.start.byte (s₁.advanced.declare name).tape := by
      rw [State.tape_declare]
      exact (Passes.steps hmore.steps).onward (Tape.onward_rises _) hat
    have hlt : s₁.start.byte < s₁.advanced.start.byte :=
      State.start_lt_advanced hmore hat hbinds.isWritten
    have hdefault := ih' hbehind
    rw [State.start_declare] at hdefault
    have hstart : s.start.byte < s₁.advanced.start.byte := Nat.lt_of_le_of_lt hat.le hlt
    refine .around hdefault (Nat.le_of_lt hstart) (by simp [Node.inner, Node.withText]) ?_
    exact fun _ => ⟨Nat.le_refl _, hstart⟩
  | @blockLocal s hmore hkind =>
    rw [State.start_declare]
    exact .leaf rfl (by simp [Node.leaf]) (Nat.le_refl _)
      (State.start_lt_advanced hmore hs (congrArg TokenKind.isWritten hkind))
  | retarget _ hkind ih =>
    exact (ih hs).retarget (by simp [Node.isHeld, Node.isPointedAt, hkind]) rfl rfl (by simp)
  | target _ hkind hleaf ih =>
    rw [State.start_declare]
    exact (ih hs).retarget (by simp [Node.isHeld, Node.isBareName, hkind, hleaf]) rfl rfl (by simp)
  | attach h _ hcall _ ih ih' =>
    have hall := (ih hs).children.append (ih' (h.passes.rises hs))
    rcases kind_of_takesBlock hcall with hkind | hkind
    · refine .unheld hall (by simp [withBlock, hkind]) (Node.isHeld_eq_false ?_ ?_ ?_)
      · simp [withBlock, hkind, NodeKind.isMarked]
      · simp [withBlock, hkind, Node.isBareName]
      · simp [withBlock, hkind, Node.declares]
    · refine .unheld hall (by simp [withBlock, hkind]) (Node.isHeld_eq_false ?_ ?_ ?_)
      · simp [withBlock, hkind, NodeKind.isMarked]
      · simp [withBlock, hkind, Node.isBareName]
      · simp [withBlock, hkind, Node.declares]
  | close h hmore hkind ih =>
    have hall := (ih hs).children.le_to (State.start_le_byte_advanced hmore (h.passes.rises hs))
    refine .unheld hall (by simp [hkind]) (Node.isHeld_eq_false ?_ ?_ ?_)
    · simp [hkind, NodeKind.isMarked]
    · simp [hkind, Node.isBareName]
    · simp [hkind, Node.declares]
  | statements _ _ ih => exact .unheld (ih hs) (by simp [Node.inner]) rfl
  | @node s s' k text ns h hfits hinert hmarks hbehind ih ih' =>
    by_cases hmarked : k.isMarked = true
    · obtain ⟨hmore, hwritten⟩ := hmarks hmarked
      have hnext := (Passes.steps hmore.steps).rises hs
      have hlt := State.start_lt_advanced hmore hs hwritten
      by_cases herror : k = .error
      · obtain rfl : ns = [] := by
          rw [herror] at hfits
          exact hfits.eq_nil
        have hlast := h.passes.rises hs
        refine .error rfl herror hlast.le (Nat.le_refl _) (State.stop_spanFrom hlast hlast.le ?_)
        exact (hbehind hmarked).passes.onward Tape.onward_isSome hmore.isSome_advance
      · exact .around (ih' hmarked hnext) (Nat.le_of_lt hlt) herror fun _ => ⟨Nat.le_refl _, hlt⟩
    · have hunmarked : k.isMarked = false := Bool.eq_false_iff.mpr hmarked
      refine .unheld (ih hs) ?_ (Node.isHeld_of_isInert hinert hunmarked)
      rintro rfl
      exact hmarked rfl
  | @scope s s₁ s₂ s₃ k text outer inner closed houter hinner hlast _ hopens hmarks hbehind
      ihOuter ihInner ihLast ihBehind =>
    have hinside : (s₁.enterScope closed).tape.Rises s.start.byte := houter.passes.rises hs
    have hlater := hinner.passes.rises hinside
    have herror : k ≠ .error := by
      rintro rfl
      simp [Node.opens] at hopens
    by_cases hmarked : k.isMarked = true
    · obtain ⟨hmore, hwritten⟩ := hmarks hmarked
      have hnext := (Passes.steps hmore.steps).rises hs
      have hlt := State.start_lt_advanced hmore hs hwritten
      have hchildren := ((ihBehind hmarked hnext).append (ihInner hinside)).le_to (ihLast hlater).le
      exact .around hchildren (Nat.le_of_lt hlt) herror fun _ => ⟨Nat.le_refl _, hlt⟩
    · have hchildren := ((ihOuter hs).append (ihInner hinside)).le_to (ihLast hlater).le
      refine .unheld hchildren herror (Node.isHeld_eq_false ?_ ?_ ?_)
      · exact Bool.eq_false_iff.mpr hmarked
      · unfold Node.opens at hopens
        split at hopens
        all_goals simp_all [Node.isBareName]
      · unfold Node.opens at hopens
        split at hopens
        all_goals simp_all [Node.declares]

end Grammar

end RubyCheck
