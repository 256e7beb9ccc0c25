import Mathlib.Data.List.Forall2
import Mathlib.Data.List.Infix
import RubyCheck.Proofs.Scope.Names

/-!
# Frames are isolated

A frame is told by the number of frames around it, which stays the same as long as it is open
(`frameAt?`).  It is seen from the innermost frame if all frames inside of it belong to blocks
(`SeenAt`).  Whatever is done with the open frames, of those around the innermost one nothing is
changed but how often their variables were read and written, and that only where they are seen
(`follows_after`).

So a frame is left behind without a trace in the frames around it if it belongs to no block, and with
nothing but counts raised in those that are seen if it belongs to one (`run_push_isolated`).
-/

namespace RubyCheck

variable {v v' v'' : Variable} {f f' f'' : Frame} {fs fs' : List Frame} {s s' t : ScopeStack}
  {name : String} {g : Variable → Variable} {kind : FrameKind} {i : ℕ}

/-! ### Counts are raised -/

/-- The same variable after some more readings and writings. -/
structure Variable.Counted (v v' : Variable) : Prop where
  declaredAt : v'.declaredAt = v.declaredAt
  parameter : v'.parameter = v.parameter
  reads : v.reads ≤ v'.reads
  writes : v.writes ≤ v'.writes

/-- The same frame after some more readings and writings of its variables. -/
structure Frame.Counted (f f' : Frame) : Prop where
  kind : f'.kind = f.kind
  entries : List.Forall₂ (fun p p' => p'.1 = p.1 ∧ p.2.Counted p'.2) f.entries f'.entries

namespace Variable.Counted

/-- A variable that is not touched counts the same. -/
lemma refl (v : Variable) : v.Counted v := ⟨rfl, rfl, le_rfl, le_rfl⟩

/-- Counts that are raised twice are raised. -/
lemma trans (h : v.Counted v') (h' : v'.Counted v'') : v.Counted v'' where
  declaredAt := h'.declaredAt.trans h.declaredAt
  parameter := h'.parameter.trans h.parameter
  reads := h.reads.trans h'.reads
  writes := h.writes.trans h'.writes

/-- Reading a variable raises its counts. -/
lemma read (v : Variable) : v.Counted v.read := { refl v with reads := Nat.le_succ v.reads }

/-- Writing a variable raises its counts. -/
lemma write (v : Variable) : v.Counted v.write := { refl v with writes := Nat.le_succ v.writes }

end Variable.Counted

namespace Frame.Counted

/-- A frame that is not touched counts the same. -/
lemma refl (f : Frame) : f.Counted f where
  kind := rfl
  entries := List.forall₂_same.mpr fun p _ => ⟨rfl, .refl p.2⟩

/-- Counts of a frame that are raised twice are raised. -/
lemma trans (h : f.Counted f') (h' : f'.Counted f'') : f.Counted f'' where
  kind := h'.kind.trans h.kind
  entries := by
    have hentries := h.entries
    have hentries' := h'.entries
    generalize f.entries = ps at hentries
    generalize f'.entries = ps' at hentries hentries'
    generalize f''.entries = ps'' at hentries'
    induction hentries generalizing ps'' with
    | nil => exact hentries'
    | cons hp _ ih =>
      cases hentries' with
      | cons hp' hps' => exact .cons ⟨hp'.1.trans hp.1, hp.2.trans hp'.2⟩ (ih _ hps')

/-- Changing one variable of a frame raises the counts, if the change does. -/
lemma change (hg : ∀ v : Variable, v.Counted (g v)) : f.Counted (f.change name g) where
  kind := rfl
  entries := by
    refine List.forall₂_map_right_iff.mpr (List.forall₂_same.mpr fun p _ => ?_)
    split
    · exact ⟨rfl, hg p.2⟩
    · exact ⟨rfl, .refl p.2⟩

end Frame.Counted

namespace ScopeStack

/-! ### Where frames are -/

/-- The frame that has a number of frames around it. -/
def frameAt? (fs : List Frame) (i : ℕ) : Option Frame := fs.reverse[i]?

/-- The frame that has a number of frames around it is seen from the innermost one: all frames inside
of it belong to blocks. -/
def SeenAt (fs : List Frame) (i : ℕ) : Prop :=
  ∀ j f, i < j → frameAt? fs j = some f → f.kind = .block

/-- A frame has fewer frames around it than there are. -/
lemma lt_of_frameAt? (h : frameAt? fs i = some f) : i < fs.length := by
  have hlt := (List.getElem?_eq_some_iff.mp h).1
  rwa [List.length_reverse] at hlt

/-- Below that number there is a frame. -/
lemma exists_frameAt? (h : i < fs.length) : ∃ f, frameAt? fs i = some f :=
  ⟨_, List.getElem?_eq_getElem (by rwa [List.length_reverse])⟩

/-- The innermost frame has all others around it, and these stay where they are. -/
lemma frameAt?_cons_eq_some_iff :
    frameAt? (f :: fs) i = some f' ↔ frameAt? fs i = some f' ∨ i = fs.length ∧ f = f' := by
  rw [frameAt?, List.reverse_cons, List.getElem?_append, List.length_reverse]
  split
  · rename_i hlt
    exact (or_iff_left fun h => hlt.ne h.1).symm
  · rename_i hge
    rw [List.getElem?_singleton]
    have hnone : frameAt? fs i = none :=
      List.getElem?_eq_none (by rw [List.length_reverse]; exact not_lt.mp hge)
    rw [hnone]
    have hzero : i - fs.length = 0 ↔ i = fs.length := by omega
    simp [hzero]

/-- The innermost frame has all others around it. -/
lemma frameAt?_length (f : Frame) (fs : List Frame) : frameAt? (f :: fs) fs.length = some f :=
  frameAt?_cons_eq_some_iff.mpr (.inr ⟨rfl, rfl⟩)

/-- A frame that is entered leaves the others at their places. -/
lemma frameAt?_cons (f : Frame) (h : frameAt? fs i = some f') : frameAt? (f :: fs) i = some f' :=
  frameAt?_cons_eq_some_iff.mpr (.inl h)

/-- A frame is seen from inside another one only through a block. -/
lemma seenAt_cons (h : i < fs.length) :
    SeenAt (f :: fs) i ↔ f.kind = .block ∧ SeenAt fs i := by
  constructor
  · intro hseen
    exact ⟨hseen fs.length f h (frameAt?_length f fs),
      fun j f' hj hf' => hseen j f' hj (frameAt?_cons f hf')⟩
  · rintro ⟨hkind, hseen⟩ j f' hj hf'
    rcases frameAt?_cons_eq_some_iff.mp hf' with hf' | ⟨rfl, rfl⟩
    · exact hseen j f' hj hf'
    · exact hkind

/-- Frames at the same places are the same frames. -/
lemma eq_of_frameAt? (hdepth : s'.depth = s.depth)
    (h : ∀ i f, frameAt? s.frames i = some f → frameAt? s'.frames i = some f) : s' = s := by
  have hframes : s'.frames = s.frames := by
    refine List.reverse_injective (List.ext_getElem? fun i => ?_)
    change frameAt? s'.frames i = frameAt? s.frames i
    cases hf : frameAt? s.frames i with
    | some f => exact h i f hf
    | none =>
      rw [frameAt?, List.getElem?_eq_none_iff, List.length_reverse] at hf ⊢
      exact hdepth.trans_le hf
  obtain ⟨htop, hbelow⟩ := List.cons.inj hframes
  cases s
  cases s'
  cases htop
  cases hbelow
  rfl

/-! ### What is changed in frames that are seen -/

/-- The same frames after some more readings and writings of variables that are seen from the innermost
one. -/
structure Counted (fs fs' : List Frame) : Prop where
  length : fs'.length = fs.length
  frame ⦃i : ℕ⦄ ⦃f : Frame⦄ : frameAt? fs i = some f →
    ∃ f', frameAt? fs' i = some f' ∧ f.Counted f' ∧ (f' = f ∨ SeenAt fs i)

namespace Counted

/-- Frames that are not touched count the same. -/
lemma refl (fs : List Frame) : Counted fs fs := ⟨rfl, fun _ f hf => ⟨f, hf, .refl f, .inl rfl⟩⟩

/-- The innermost frame is always seen. -/
lemma head (h : f.Counted f') : Counted (f :: fs) (f' :: fs) where
  length := rfl
  frame i f₀ hf₀ := by
    rcases frameAt?_cons_eq_some_iff.mp hf₀ with hf₀ | ⟨rfl, rfl⟩
    · exact ⟨f₀, frameAt?_cons f' hf₀, .refl f₀, .inl rfl⟩
    · refine ⟨f', frameAt?_length f' fs, h, .inr fun j g hj hg => ?_⟩
      exact absurd (lt_of_frameAt? hg) (Nat.not_lt.mpr hj)

/-- From a block the frames around it are seen. -/
lemma cons (hkind : f.kind = .block) (h : Counted fs fs') : Counted (f :: fs) (f :: fs') where
  length := congrArg (· + 1) h.length
  frame i f₀ hf₀ := by
    rcases frameAt?_cons_eq_some_iff.mp hf₀ with hf₀ | ⟨rfl, rfl⟩
    · obtain ⟨f', hf', hcounted, hseen⟩ := h.frame hf₀
      refine ⟨f', frameAt?_cons f hf', hcounted, hseen.imp_right fun hseen => ?_⟩
      exact (seenAt_cons (lt_of_frameAt? hf₀)).mpr ⟨hkind, hseen⟩
    · exact ⟨f, h.length ▸ frameAt?_length f fs', .refl f, .inl rfl⟩

/-- A variable is changed in a frame that is seen. -/
lemma change? (hg : ∀ v : Variable, v.Counted (g v)) (h : change? name g fs = some fs') :
    Counted fs fs' := by
  obtain ⟨inner, f, outer, rfl, rfl, -, hinner⟩ := exists_of_change? h
  clear h
  -- the frame with the variable is innermost behind the blocks, and seen from each of them
  induction inner with
  | nil => exact .head (.change hg)
  | cons f' inner ih =>
    rw [List.forall_mem_cons] at hinner
    exact (ih hinner.2).cons hinner.1.2

/-- What is changed in a frame that is seen raises the counts there, and no others. -/
lemma changeVisible? (hg : ∀ v : Variable, v.Counted (g v)) (h : s.changeVisible? name g = some s') :
    Counted s.frames s'.frames :=
  change? hg (change?_of_changeVisible? h)

/-- Reading a name raises counts in frames that are seen only. -/
lemma read (s : ScopeStack) (name : String) : Counted s.frames (s.read name).frames := by
  unfold ScopeStack.read
  cases hchange : s.changeVisible? name .read with
  | none => exact refl s.frames
  | some s' => exact changeVisible? .read hchange

/-- Using a name of a frame around raises counts in frames that are seen only. -/
lemma touchOuter (s : ScopeStack) (name : String) :
    Counted s.frames (s.touchOuter name).frames := by
  unfold ScopeStack.touchOuter changeOuter? around
  split
  · rename_i hkind
    cases hchange : ScopeStack.change? name .read s.below with
    | none => exact refl s.frames
    | some fs => exact (change? .read hchange).cons hkind
  · exact refl s.frames

end Counted

/-! ### One operation -/

/-- What becomes of the frames that stay open: each keeps its kind, and of those around the innermost
one nothing is changed but counts of variables that are seen. -/
def Follows (s s' : ScopeStack) : Prop :=
  ∀ i f, frameAt? s.frames i = some f → i < s'.depth →
    ∃ f', frameAt? s'.frames i = some f' ∧ f'.kind = f.kind ∧
      (i + 1 < s.depth → f.Counted f' ∧ (f' = f ∨ SeenAt s.frames i))

namespace Follows

/-- A stack follows itself. -/
lemma refl (s : ScopeStack) : s.Follows s :=
  fun _ f hf _ => ⟨f, hf, rfl, fun _ => ⟨.refl f, .inl rfl⟩⟩

/-- Where counts are raised, the stack follows. -/
lemma of_counted (h : Counted s.frames s'.frames) : s.Follows s' := by
  intro i f hf _
  obtain ⟨f', hf', hcounted, hseen⟩ := h.frame hf
  exact ⟨f', hf', hcounted.kind, fun _ => ⟨hcounted, hseen⟩⟩

/-- A stack with one more frame follows. -/
lemma push (s : ScopeStack) (kind : FrameKind) : s.Follows (s.push kind) :=
  fun _ f hf _ => ⟨f, frameAt?_cons _ hf, rfl, fun _ => ⟨.refl f, .inl rfl⟩⟩

/-- A stack whose innermost frame is left follows. -/
lemma pop (s : ScopeStack) : s.Follows (s.after .pop) := by
  obtain ⟨top, below⟩ := s
  cases below with
  | nil => exact refl ⟨top, []⟩
  | cons f fs =>
    intro i f' hf' hi
    rcases frameAt?_cons_eq_some_iff.mp hf' with hf' | ⟨rfl, -⟩
    · exact ⟨f', hf', rfl, fun _ => ⟨.refl f', .inl rfl⟩⟩
    · exact absurd hi (lt_irrefl _)

/-- Variables are added to the innermost frame only. -/
lemma add (s : ScopeStack) (name : String) (v : Variable) : s.Follows (s.add name v) := by
  obtain ⟨top, below⟩ := s
  intro i f hf _
  rcases frameAt?_cons_eq_some_iff.mp hf with hf | ⟨rfl, rfl⟩
  · exact ⟨f, frameAt?_cons _ hf, rfl, fun _ => ⟨.refl f, .inl rfl⟩⟩
  · exact ⟨top.add name v, frameAt?_length _ below, Frame.kind_add,
      fun hi => absurd hi (lt_irrefl _)⟩

/-- A stack in which a name is written follows. -/
lemma write (s : ScopeStack) (name : String) (at_ : Position) : s.Follows (s.write name at_) := by
  unfold ScopeStack.write
  cases hchange : s.changeVisible? name .write with
  | none => exact add s name _
  | some s' => exact of_counted (.changeVisible? .write hchange)

end Follows

/-- No operation does more to the frames that stay open. -/
lemma follows_after (s : ScopeStack) (op : Operation) : s.Follows (s.after op) := by
  cases op with
  | push kind => exact .push s kind
  | pop => exact .pop s
  | write name at_ => exact .write s name at_
  | read name => exact .of_counted (.read s name)
  | bindParameter name at_ => exact .add s name _
  | bindBlockLocal name at_ => exact .add s name _
  | outer name => exact .refl s
  | touchOuter name => exact .of_counted (.touchOuter s name)

/-! ### Operations inside of a frame -/

/-- All along more frames are open than a number says, so the frame with that many around it is never
left. -/
def StaysAbove (depth : ℕ) (s : ScopeStack) (ops : List Operation) : Prop :=
  ∀ before, before <+: ops → depth < (s.run before).depth

/-- Whether a stack stays above a depth is decided along the operations. -/
instance (depth : ℕ) (s : ScopeStack) (ops : List Operation) :
    Decidable (s.StaysAbove depth ops) :=
  decidable_of_iff (∀ before ∈ ops.inits, depth < (s.run before).depth) (by simp [StaysAbove])

/-- The stack stands inside of a frame that was pushed on another one. -/
structure Inside (s : ScopeStack) (kind : FrameKind) (t : ScopeStack) : Prop where
  deeper : s.depth < t.depth
  opened ⦃f : Frame⦄ : frameAt? t.frames s.depth = some f → f.kind = kind
  around ⦃i : ℕ⦄ ⦃f : Frame⦄ : frameAt? s.frames i = some f →
    ∃ f', frameAt? t.frames i = some f' ∧ f.Counted f' ∧
      (f' = f ∨ kind = .block ∧ SeenAt s.frames i)

namespace Inside

/-- Just after it was pushed, the stack stands inside of the new frame. -/
lemma push (s : ScopeStack) (kind : FrameKind) : Inside s kind (s.push kind) where
  deeper := Nat.lt_succ_self s.depth
  opened f hf := by
    rcases frameAt?_cons_eq_some_iff.mp hf with hf | ⟨-, rfl⟩
    · exact absurd (lt_of_frameAt? hf) (lt_irrefl _)
    · rfl
  around i f hf := ⟨f, frameAt?_cons _ hf, .refl f, .inl rfl⟩

/-- From inside of a block the frames are seen that are seen around it, and from inside of anything
else none of them. -/
lemma seenAt (h : Inside s kind t) (hi : i < s.depth) (hseen : SeenAt t.frames i) :
    kind = .block ∧ SeenAt s.frames i := by
  constructor
  · obtain ⟨f, hf⟩ := exists_frameAt? h.deeper
    rw [← h.opened hf]
    exact hseen s.depth f hi hf
  · intro j f hj hf
    obtain ⟨f', hf', hcounted, -⟩ := h.around hf
    rw [← hcounted.kind]
    exact hseen j f' hj hf'

/-- A stack inside of a frame is so after each operation that does not leave the frame. -/
lemma after (h : Inside s kind t) (op : Operation) (hdeeper : s.depth < (t.after op).depth) :
    Inside s kind (t.after op) where
  deeper := hdeeper
  opened f' hf' := by
    obtain ⟨f, hf⟩ := exists_frameAt? h.deeper
    obtain ⟨f'', hf'', hkind, -⟩ := follows_after t op s.depth f hf hdeeper
    obtain rfl := Option.some.inj (hf'.symm.trans hf'')
    rw [hkind, h.opened hf]
  around i f hf := by
    have hi : i < s.depth := lt_of_frameAt? hf
    obtain ⟨f', hf', hcounted, hsame⟩ := h.around hf
    obtain ⟨f'', hf'', -, hfollows⟩ := follows_after t op i f' hf' (hi.trans hdeeper)
    obtain ⟨hcounted', hsame'⟩ := hfollows (Nat.lt_of_le_of_lt hi h.deeper)
    refine ⟨f'', hf'', hcounted.trans hcounted', ?_⟩
    rcases hsame' with rfl | hseen
    · exact hsame
    · -- it is seen through the frame that was pushed
      exact .inr (h.seenAt hi hseen)

/-- A stack inside of a frame is so after any number of operations that do not leave it. -/
lemma run {ops : List Operation} (h : Inside s kind t) (hstays : t.StaysAbove s.depth ops) :
    Inside s kind (t.run ops) := by
  induction ops generalizing t with
  | nil => exact h
  | cons op ops ih =>
    have hafter : Inside s kind (t.after op) :=
      h.after op (hstays [op] (List.prefix_append [op] ops))
    exact ih hafter fun before hbefore =>
      hstays (op :: before) (List.cons_prefix_cons.mpr ⟨rfl, hbefore⟩)

end Inside

/-! ### Frames are left -/

/-- Operations are run one after another. -/
lemma run_append (s : ScopeStack) (ops ops' : List Operation) :
    s.run (ops ++ ops') = (s.run ops).run ops' := List.foldl_append

/-- Leaving a frame makes the stack one lower, but never empty. -/
lemma depth_after_pop (s : ScopeStack) : (s.after .pop).depth = max 1 (s.depth - 1) := by
  obtain ⟨top, below⟩ := s
  cases below with
  | nil => rfl
  | cons f fs => simp [after, pop?, depth, frames]

/-- Leaving several frames makes the stack so much lower, but never empty. -/
lemma depth_run_pops (s : ScopeStack) (n : ℕ) :
    (s.run (List.replicate n .pop)).depth = max 1 (s.depth - n) := by
  induction n generalizing s with
  | zero => simp [run, depth, frames]
  | succ n ih =>
    change ((s.after .pop).run (List.replicate n .pop)).depth = _
    rw [ih, depth_after_pop]
    omega

/-- The frames that are not left stay as they are. -/
lemma frameAt?_run_pops {n : ℕ} (hf : frameAt? s.frames i = some f)
    (hi : i < (s.run (List.replicate n .pop)).depth) :
    frameAt? (s.run (List.replicate n .pop)).frames i = some f := by
  induction n generalizing s with
  | zero => exact hf
  | succ n ih =>
    obtain ⟨top, below⟩ := s
    cases below with
    | nil => exact ih hf hi
    | cons f' fs =>
      change i < (ScopeStack.run ⟨f', fs⟩ (List.replicate n .pop)).depth at hi
      rcases frameAt?_cons_eq_some_iff.mp hf with hf | ⟨rfl, -⟩
      · exact ih hf hi
      · rw [depth_run_pops] at hi
        have hle : max 1 (depth ⟨f', fs⟩ - n) ≤ (f' :: fs).length :=
          max_le (Nat.succ_le_succ (Nat.zero_le _)) (Nat.sub_le _ _)
        exact absurd hi (Nat.not_lt.mpr hle)

/-- What is left behind of a frame in the frames around it. -/
lemma Inside.left {n : ℕ} (h : Inside s kind t)
    (hdepth : (t.run (List.replicate n .pop)).depth = s.depth) :
    (kind ≠ .block → t.run (List.replicate n .pop) = s) ∧
      (kind = .block → Counted s.frames (t.run (List.replicate n .pop)).frames) := by
  have hat ⦃i : ℕ⦄ ⦃f f' : Frame⦄ (hf : frameAt? s.frames i = some f)
      (hf' : frameAt? t.frames i = some f') :
      frameAt? (t.run (List.replicate n .pop)).frames i = some f' :=
    frameAt?_run_pops hf' ((lt_of_frameAt? hf).trans_eq hdepth.symm)
  constructor
  · refine fun hkind => eq_of_frameAt? hdepth fun i f hf => ?_
    obtain ⟨f', hf', -, rfl | ⟨hblock, -⟩⟩ := h.around hf
    · exact hat hf hf'
    · exact absurd hblock hkind
  · refine fun _ => ⟨hdepth, fun i f hf => ?_⟩
    obtain ⟨f', hf', hcounted, hsame⟩ := h.around hf
    exact ⟨f', hat hf hf', hcounted, hsame.imp_right And.right⟩

/-- A frame is pushed, anything is done with the open frames that does not leave it, and then frames
are left until it is left as well.  If it belongs to no block, the stack is what it was before.  If it
belongs to a block, the frames are those from before, with the same variables declared at the same
places, and nothing is changed but that variables were read and written more often, in frames that are
seen from the one that was innermost before. -/
theorem run_push_isolated (s : ScopeStack) (kind : FrameKind) (ops : List Operation)
    (hstays : (s.push kind).StaysAbove s.depth ops) :
    (∃ n, ((s.push kind).run (ops ++ .replicate n .pop)).depth = s.depth) ∧
      ∀ n, ((s.push kind).run (ops ++ .replicate n .pop)).depth = s.depth →
        (kind ≠ .block → (s.push kind).run (ops ++ .replicate n .pop) = s) ∧
        (kind = .block →
          Counted s.frames ((s.push kind).run (ops ++ .replicate n .pop)).frames) := by
  have hinside : Inside s kind ((s.push kind).run ops) := (Inside.push s kind).run hstays
  simp only [run_append]
  refine ⟨⟨((s.push kind).run ops).depth - s.depth, ?_⟩, fun n hdepth => hinside.left hdepth⟩
  have hopen : 1 ≤ s.depth := Nat.succ_le_succ (Nat.zero_le s.below.length)
  have hdeeper := hinside.deeper
  rw [depth_run_pops]
  omega

/-- A method that writes a name of its own leaves the frames as they were; a block in its place counts
the use and the writing of the method around. -/
theorem run_push_isolated_nested :
    let s := ((initial.write "x" .origin).push .method).write "x" .origin
    let ops : List Operation := [.bindParameter "y" .origin, .push .method, .write "x" .origin,
      .push .block, .touchOuter "x", .pop, .pop, .write "x" .origin, .outer "x", .touchOuter "x"]
    let left (kind : FrameKind) := (s.push kind).run (ops ++ .replicate 1 .pop)
    (∀ kind ∈ [FrameKind.method, .block],
      (s.push kind).StaysAbove s.depth ops ∧ (left kind).depth = s.depth) ∧
      left .method = s ∧ Counted s.frames (left .block).frames ∧
      (left .block).frames.map Frame.entries =
        [[("x", ⟨.origin, 1, 2, false⟩)], [("x", ⟨.origin, 0, 1, false⟩)]] := by
  intro s ops left
  have hleft : ∀ kind ∈ [FrameKind.method, .block],
      (s.push kind).StaysAbove s.depth ops ∧ (left kind).depth = s.depth := by decide +kernel
  have hmethod := hleft .method (by decide)
  have hblock := hleft .block (by decide)
  refine ⟨hleft, ?_, ?_, by decide +kernel⟩
  · exact ((run_push_isolated s .method ops hmethod.1).2 1 hmethod.2).1 (by decide)
  · exact ((run_push_isolated s .block ops hblock.1).2 1 hblock.2).2 rfl

end ScopeStack

end RubyCheck
