import Mathlib.Data.List.Sort
import RubyCheck.Proofs.Likeness.Finding
import RubyCheck.Scope.Stack

/-!
# Frames that are alike

Of a variable only its declaration has a place.  Nothing that happens to frames looks at it, but for the
order in which unused variables are listed, and that is the same in both texts.
-/

namespace RubyCheck

variable (L : Likeness)

/-! ### Variables -/

/-- The same variable in both texts. -/
structure Variable.Like (v v' : Variable) : Prop where
  declaredAt : L.start v.declaredAt v'.declaredAt
  reads : v'.reads = v.reads
  writes : v'.writes = v.writes
  parameter : v'.parameter = v.parameter

/-- The same variable of the same name in both texts. -/
structure Variable.Named (p p' : String × Variable) : Prop where
  name : p'.1 = p.1
  spells : L.Spells p.1
  same : p.2.Like L p'.2

/-- The same frame in both texts. -/
structure Frame.Like (f f' : Frame) : Prop where
  kind : f'.kind = f.kind
  entries : List.Forall₂ (Variable.Named L) f.entries f'.entries

/-- The same frames in both texts. -/
structure ScopeStack.Like (s s' : ScopeStack) : Prop where
  top : s.top.Like L s'.top
  below : List.Forall₂ (Frame.Like L) s.below s'.below

variable {L}

namespace Variable

/-- What changes like variables alike. -/
def Keeping (L : Likeness) (g : Variable → Variable) : Prop :=
  ∀ v v', v.Like L v' → (g v).Like L (g v')

/-- Reading a variable keeps two variables alike. -/
lemma keeping_read : Keeping L read := fun _ _ h => { h with reads := congrArg (· + 1) h.reads }

/-- Writing a variable keeps two variables alike. -/
lemma keeping_write : Keeping L write := fun _ _ h => { h with writes := congrArg (· + 1) h.writes }

/-- Of two variables that are alike, both are unused or neither is. -/
lemma Like.isUnused {v v' : Variable} (h : v.Like L v') : v'.isUnused = v.isUnused := by
  rw [Variable.isUnused, Variable.isUnused, h.parameter, h.writes, h.reads]

variable {p p' : Position}

/-- Variables assigned at places that are alike are alike. -/
lemma like_assigned (h : L.start p p') : (assigned p).Like L (assigned p') := ⟨h, rfl, rfl, rfl⟩

/-- Variables of a block at places that are alike are alike. -/
lemma like_blockLocal (h : L.start p p') : (blockLocal p).Like L (blockLocal p') :=
  ⟨h, rfl, rfl, rfl⟩

/-- Parameters at places that are alike are alike. -/
lemma like_bound (h : L.start p p') : (bound p).Like L (bound p') := ⟨h, rfl, rfl, rfl⟩

end Variable

/-! ### Frames -/

namespace Frame

/-- Variables are listed in the same order in both texts. -/
lemma listedBefore_eq {p p' q q' : String × Variable} (hp : Variable.Named L p p')
    (hq : Variable.Named L q q') : listedBefore p' q' = listedBefore p q := by
  have hless := L.byte_lt hp.same.declaredAt (L.place_of_start hq.same.declaredAt)
  have hmore := L.byte_lt hq.same.declaredAt (L.place_of_start hp.same.declaredAt)
  have hsame : p'.2.declaredAt.byte = q'.2.declaredAt.byte ↔
      p.2.declaredAt.byte = q.2.declaredAt.byte := by omega
  unfold listedBefore
  rw [hp.name, hq.name, Bool.eq_iff_iff]
  simp only [Bool.or_eq_true, Bool.and_eq_true, decide_eq_true_eq, beq_iff_eq, hless, hsame]

namespace Like

variable {f f' : Frame} {name : String} {g : Variable → Variable}

/-- Frames that are alike know the same names, for variables that are alike. -/
lemma get? (h : f.Like L f') (name : String) :
    Option.Rel (Variable.Like L) (f.get? name) (f'.get? name) := by
  obtain ⟨kind, entries⟩ := f
  obtain ⟨kind', entries'⟩ := f'
  have hentries : List.Forall₂ (Variable.Named L) entries entries' := h.entries
  change Option.Rel _ (entries.lookup name) (entries'.lookup name)
  clear h
  induction hentries with
  | nil => exact .none
  | @cons p p' _ _ hp _ ih =>
    obtain ⟨a, v⟩ := p
    obtain ⟨a', v'⟩ := p'
    obtain rfl : a' = a := hp.name
    rw [List.lookup_cons, List.lookup_cons]
    cases name == a' with
    | true => exact .some hp.same
    | false => exact ih

/-- Frames that are alike have the same names. -/
lemma has (h : f.Like L f') (name : String) : f'.has name = f.has name := by
  have hget := h.get? name
  unfold Frame.has
  generalize f.get? name = x at hget ⊢
  generalize f'.get? name = x' at hget ⊢
  cases hget with
  | none => rfl
  | some _ => rfl

/-- Empty frames of one kind are alike. -/
lemma empty (kind : FrameKind) : (Frame.empty kind).Like L (.empty kind) := ⟨rfl, .nil⟩

/-- What keeps variables alike keeps frames alike. -/
lemma change (h : f.Like L f') (name : String) (hg : Variable.Keeping L g) :
    (f.change name g).Like L (f'.change name g) := by
  refine { h with entries := List.rel_map (R := Variable.Named L) (fun p p' hp => ?_) h.entries }
  rw [hp.name]
  split
  · exact ⟨hp.name.symm ▸ rfl, hp.spells, hg _ _ hp.same⟩
  · exact hp

/-- Adding a variable to both keeps frames alike. -/
lemma add (h : f.Like L f') (hname : L.Spells name) {v v' : Variable} (hv : v.Like L v') :
    (f.add name v).Like L (f'.add name v') := by
  unfold Frame.add
  rw [h.has]
  split
  · exact h
  · exact { h with entries := .cons ⟨rfl, hname, hv⟩ h.entries }

/-- The unused variables are found in the same order. -/
lemma unused (h : f.Like L f') : List.Forall₂ (Finding.Like L) f.unused f'.unused := by
  unfold Frame.unused
  rw [h.kind]
  split
  · exact .nil
  · have hlisted : List.Forall₂ (Variable.Named L) f.listed f'.listed :=
      h.entries.mergeSort fun _ _ hp _ _ hq => listedBefore_eq hp hq
    refine List.rel_map (R := Variable.Named L) (fun p p' hp => ?_)
      (List.rel_filter (fun p p' hp => ?_) hlisted)
    · refine ⟨by rw [hp.name]; rfl, hp.same.declaredAt, ?_⟩
      exact Finding.Cause.spells_unusedVariable hp.spells
    · simp only [hp.name, hp.same.isUnused]

end Like

end Frame

/-! ### Stacks of frames -/

namespace ScopeStack

variable {fs fs' : List Frame} {name : String} {p p' : Position} {g : Variable → Variable}

/-- The frames that are seen are alike. -/
lemma visible_like (h : List.Forall₂ (Frame.Like L) fs fs') :
    List.Forall₂ (Frame.Like L) (visible fs) (visible fs') := by
  induction h with
  | nil => exact .nil
  | cons hf _ ih =>
    rw [visible, visible, hf.kind]
    split
    · exact .cons hf ih
    · exact .cons hf .nil

/-- A name is found in both stacks or in neither, for variables that are alike. -/
lemma find?_like (h : List.Forall₂ (Frame.Like L) fs fs') (name : String) :
    Option.Rel (Variable.Like L) (find? name fs) (find? name fs') := by
  have hvisible := visible_like h
  unfold find?
  generalize visible fs = us at hvisible ⊢
  generalize visible fs' = us' at hvisible ⊢
  induction hvisible with
  | nil => exact .none
  | @cons f f' _ _ hf _ ih =>
    have hget := hf.get? name
    rw [List.findSome?_cons, List.findSome?_cons]
    generalize f.get? name = x at hget ⊢
    generalize f'.get? name = x' at hget ⊢
    cases hget with
    | none => exact ih
    | some hv => exact .some hv

/-- A name is changed in both stacks or in neither. -/
lemma change?_like (h : List.Forall₂ (Frame.Like L) fs fs') (name : String)
    (hg : Variable.Keeping L g) :
    Option.Rel (List.Forall₂ (Frame.Like L)) (change? name g fs) (change? name g fs') := by
  induction h with
  | nil => exact .none
  | @cons f f' fs fs' hf hfs ih =>
    rw [change?, change?, hf.has, hf.kind]
    split
    · exact .some (.cons (hf.change name hg) hfs)
    split
    · generalize change? name g fs = x at ih ⊢
      generalize change? name g fs' = x' at ih ⊢
      cases ih with
      | none => exact .none
      | some hchanged => exact .some (.cons hf hchanged)
    · exact .none

namespace Like

/-- Stacks are alike at the beginning. -/
lemma initial : ScopeStack.initial.Like L .initial := ⟨.empty _, .nil⟩

variable {s s' : ScopeStack} (h : s.Like L s')

include h

/-- Stacks that are alike have frames that are. -/
lemma frames : List.Forall₂ (Frame.Like L) s.frames s'.frames := .cons h.top h.below

/-- Stacks stay alike when both enter a frame of one kind. -/
lemma push (kind : FrameKind) : (s.push kind).Like L (s'.push kind) := ⟨.empty kind, h.frames⟩

/-- Of stacks that are alike, both can leave a frame or neither can. -/
lemma pop? : Option.Rel (fun q q' => q.1.Like L q'.1 ∧ q.2.Like L q'.2) s.pop? s'.pop? := by
  have hbelow := h.below
  unfold ScopeStack.pop?
  generalize s.below = fs at hbelow ⊢
  generalize s'.below = fs' at hbelow ⊢
  cases hbelow with
  | nil => exact .none
  | cons hf hfs => exact .some ⟨h.top, hf, hfs⟩

/-- They stand in the same definition. -/
lemma enclosingDefinition : s'.enclosingDefinition = s.enclosingDefinition := by
  have hframes := h.frames
  unfold ScopeStack.enclosingDefinition
  generalize s.frames = fs at hframes ⊢
  generalize s'.frames = fs' at hframes ⊢
  induction hframes with
  | nil => rfl
  | @cons f f' _ _ hf _ ih =>
    rw [List.find?_cons, List.find?_cons, hf.kind]
    split
    · simp [hf.kind]
    · exact ih

/-- The frames around the innermost one are alike. -/
lemma around : List.Forall₂ (Frame.Like L) s.around s'.around := by
  unfold ScopeStack.around
  rw [h.top.kind]
  split
  · exact h.below
  · exact .nil

/-- A name is found around in both or in neither. -/
lemma outer? (name : String) : Option.Rel (Variable.Like L) (s.outer? name) (s'.outer? name) :=
  find?_like h.around name

/-- What keeps variables alike keeps stacks alike when it is done in the frames around. -/
lemma changeOuter? (name : String) (hg : Variable.Keeping L g) :
    Option.Rel (ScopeStack.Like L) (s.changeOuter? name g) (s'.changeOuter? name g) := by
  have hchanged := change?_like h.around name hg
  unfold ScopeStack.changeOuter?
  generalize change? name g s.around = x at hchanged ⊢
  generalize change? name g s'.around = x' at hchanged ⊢
  cases hchanged with
  | none => exact .none
  | some hfs => exact .some { h with below := hfs }

/-- What keeps variables alike keeps stacks alike when it is done to a variable that is seen. -/
lemma changeVisible? (name : String) (hg : Variable.Keeping L g) :
    Option.Rel (ScopeStack.Like L) (s.changeVisible? name g) (s'.changeVisible? name g) := by
  unfold ScopeStack.changeVisible?
  rw [h.top.has]
  split
  · exact .some { h with top := h.top.change name hg }
  · exact h.changeOuter? name hg

/-- Stacks stay alike when both add a variable. -/
lemma add (hname : L.Spells name) {v v' : Variable} (hv : v.Like L v') :
    (s.add name v).Like L (s'.add name v') := { h with top := h.top.add hname hv }

/-- Stacks stay alike when both write a name. -/
lemma write (hname : L.Spells name) (hp : L.start p p') :
    (s.write name p).Like L (s'.write name p') := by
  have hchanged := h.changeVisible? name Variable.keeping_write
  unfold ScopeStack.write
  generalize s.changeVisible? name .write = x at hchanged ⊢
  generalize s'.changeVisible? name .write = x' at hchanged ⊢
  cases hchanged with
  | none => exact h.add hname (Variable.like_assigned hp)
  | some hs => exact hs

/-- Stacks stay alike when both read a name. -/
lemma read (name : String) : (s.read name).Like L (s'.read name) := by
  have hchanged := h.changeVisible? name Variable.keeping_read
  unfold ScopeStack.read
  generalize s.changeVisible? name .read = x at hchanged ⊢
  generalize s'.changeVisible? name .read = x' at hchanged ⊢
  cases hchanged with
  | none => exact h
  | some hs => exact hs

/-- Stacks stay alike when both use a name of a frame around. -/
lemma touchOuter (name : String) : (s.touchOuter name).Like L (s'.touchOuter name) := by
  have hchanged := h.changeOuter? name Variable.keeping_read
  unfold ScopeStack.touchOuter
  generalize s.changeOuter? name .read = x at hchanged ⊢
  generalize s'.changeOuter? name .read = x' at hchanged ⊢
  cases hchanged with
  | none => exact h
  | some hs => exact hs

end Like

end ScopeStack

end RubyCheck
