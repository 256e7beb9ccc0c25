import Mathlib.Data.List.Forall2
import Mathlib.Logic.Function.Basic
import RubyCheck.Proofs.Scope.Names
import RubyCheck.Proofs.Tree.Resolution

/-!
# Frames and what names resolve to

What a walk has told so far about the variables of all scopes is a ledger: where each variable was
bound first, and how often it was read and assigned to (`ledger`).  The open frames keep the part of
the ledger that belongs to the scopes around (`ScopeStack.Keeps`), and whatever happens to the
frames, happens to the ledger: a name is looked up in the frames as it is resolved in the scopes.
-/

namespace RubyCheck

/-- What is known of the variables of all scopes. -/
abbrev Ledger := ℕ × String → Option Variable

namespace Ledger

/-- The ledger with what is known of a variable changed. -/
def change (L : Ledger) (v : ℕ × String) (g : Variable → Variable) : Ledger :=
  Function.update L v ((L v).map g)

/-- The ledger with a variable added, unless it is known. -/
def add (L : Ledger) (v : ℕ × String) (x : Variable) : Ledger :=
  Function.update L v (some ((L v).getD x))

variable {L : Ledger} {v w : ℕ × String} {g : Variable → Variable} {x : Variable}

lemma change_same : L.change v g v = (L v).map g := Function.update_self _ _ _

lemma change_of_ne (h : w ≠ v) : L.change v g w = L w := Function.update_of_ne h _ _

lemma add_same : L.add v x v = some ((L v).getD x) := Function.update_self _ _ _

lemma add_of_ne (h : w ≠ v) : L.add v x w = L w := Function.update_of_ne h _ _

/-- The ledger in which one more variable was read, if any. -/
def read (L : Ledger) (r : Option (ℕ × String)) : Ledger := r.elim L fun v => L.change v .read

lemma read_apply (r : Option (ℕ × String)) :
    L.read r v = (L v).map fun x => { x with reads := x.reads + r.toList.count v } := by
  cases r with
  | none => simp [read]
  | some w =>
    change L.change w .read v = _
    by_cases hv : v = w
    · subst hv
      rw [change_same, Option.toList_some, List.count_singleton_self]
      rfl
    · rw [change_of_ne hv]
      simp [Ne.symm hv]

end Ledger

/-! ### What a walk tells -/

/-- What the nodes of a walk tell about variables. -/
def ledger (ps : List (Scopes × Node)) : Ledger := fun v =>
  (binder? v [] ps).map fun n =>
    ⟨n.span.start, (readings ps).count v, (assignments ps).count v, n.kind == .parameter⟩

section

variable {ps : List (Scopes × Node)} {p : Scopes × Node} {v w : ℕ × String}

lemma isSome_ledger : (ledger ps v).isSome = true ↔ v ∈ bindings ps := by
  rw [ledger, Option.isSome_map, isSome_binder?]
  rfl

/-- One more node may bind a variable, read one and assign to one. -/
lemma ledger_concat :
    ledger (ps ++ [p]) v =
      ((ledger ps v).or (if binding? (bindings ps) p = some v
        then some ⟨p.2.span.start, 0, 0, p.2.kind == .parameter⟩ else none)).map fun x =>
          { x with
            reads := x.reads + (reading? (bindings ps) p).toList.count v
            writes := x.writes + (assignment? (bindings ps) p).toList.count v } := by
  have hreadings : readings (ps ++ [p]) = readings ps ++ (reading? (bindings ps) p).toList :=
    along_concat p ps
  have hassignments :
      assignments (ps ++ [p]) = assignments ps ++ (assignment? (bindings ps) p).toList :=
    along_concat p ps
  simp only [ledger, binder?_concat, hreadings, hassignments, List.count_append]
  cases hbinder : binder? v [] ps with
  | some n => rfl
  | none =>
    have hunbound : v ∉ bindings ps := by
      intro hv
      rw [bindings, ← isSome_binder?, hbinder] at hv
      exact Bool.false_ne_true hv
    have hunread : (readings ps).count v = 0 :=
      List.count_eq_zero.mpr fun hv => hunbound (mem_bindings_of_mem_readings hv)
    have hunassigned : (assignments ps).count v = 0 :=
      List.count_eq_zero.mpr fun hv => hunbound (mem_bindings_of_mem_assignments hv)
    rw [hunread, hunassigned]
    split
    · rfl
    · rfl

/-- A node that binds nothing and assigns to nothing. -/
lemma ledger_read (hbinding : binding? (bindings ps) p = none)
    (hassignment : assignment? (bindings ps) p = none) :
    ledger (ps ++ [p]) = (ledger ps).read (reading? (bindings ps) p) := by
  funext v
  rw [ledger_concat, hbinding, hassignment, if_neg (by simp), Option.or_none, Ledger.read_apply]
  simp

/-- A node that assigns to a variable that is bound. -/
lemma ledger_write (hbinding : binding? (bindings ps) p = none)
    (hassignment : assignment? (bindings ps) p = some w)
    (hreading : reading? (bindings ps) p = none) :
    ledger (ps ++ [p]) = (ledger ps).change w .write := by
  funext v
  rw [ledger_concat, hbinding, hassignment, hreading, if_neg (by simp), Option.or_none]
  by_cases hv : v = w
  · subst hv
    rw [Ledger.change_same, Option.toList_some, List.count_singleton_self]
    rfl
  · rw [Ledger.change_of_ne hv]
    simp [Ne.symm hv]

/-- A node that binds a variable and assigns to it. -/
lemma ledger_assign (hkind : p.2.kind ≠ .parameter) (hunbound : w ∉ bindings ps)
    (hbinding : binding? (bindings ps) p = some w)
    (hassignment : assignment? (bindings ps) p = some w)
    (hreading : reading? (bindings ps) p = none) :
    ledger (ps ++ [p]) = (ledger ps).add w (.assigned p.2.span.start) := by
  funext v
  rw [ledger_concat, hbinding, hassignment, hreading]
  by_cases hv : v = w
  · subst hv
    have hnone : ledger ps v = none := by
      rwa [← isSome_ledger, Option.not_isSome_iff_eq_none] at hunbound
    rw [Ledger.add_same, hnone]
    simp [Variable.assigned, hkind]
  · rw [Ledger.add_of_ne hv, if_neg (by simpa using Ne.symm hv)]
    simp [Ne.symm hv]

/-- A node that binds a variable and assigns to none. -/
lemma ledger_bind (hbinding : binding? (bindings ps) p = some w)
    (hassignment : assignment? (bindings ps) p = none) :
    ledger (ps ++ [p]) = ((ledger ps).read (reading? (bindings ps) p)).add w
      ⟨p.2.span.start, 0, 0, p.2.kind == .parameter⟩ := by
  funext v
  rw [ledger_concat, hbinding, hassignment]
  by_cases hv : v = w
  · subst hv
    rw [if_pos rfl, Ledger.add_same, Ledger.read_apply]
    cases hknown : ledger ps v with
    | none =>
      have hunread : v ∉ (reading? (bindings ps) p).toList := by
        intro hread
        have hbound := isSome_ledger.mpr (mem_of_reading? (Option.mem_toList.mp hread))
        rw [hknown] at hbound
        exact Bool.false_ne_true hbound
      simp [List.count_eq_zero.mpr hunread]
    | some x => simp
  · rw [Ledger.add_of_ne hv, Ledger.read_apply, if_neg (by simpa using Ne.symm hv), Option.or_none]
    simp

end

/-! ### Frames -/

/-- A frame keeps what is known of the variables of a scope. -/
structure Frame.Keeps (L : Ledger) (f : Frame) (scope : ℕ × Bool) : Prop where
  block : f.kind = .block ↔ scope.2 = false
  program : f.kind = .program ↔ scope.1 = 0
  nodup : (f.entries.map Prod.fst).Nodup
  get (name : String) : f.get? name = L (scope.1, name)

/-- Frames keep what is known of the variables of the scopes around. -/
def KeepAll (L : Ledger) (fs : List Frame) (around : Scopes) : Prop :=
  List.Forall₂ (Frame.Keeps L) fs around

/-- The open frames keep what is known of the variables of the scopes around. -/
def ScopeStack.Keeps (L : Ledger) (s : ScopeStack) (around : Scopes) : Prop :=
  KeepAll L s.frames around

variable {L L' : Ledger} {f : Frame} {fs : List Frame} {s : ScopeStack} {scope : ℕ × Bool}
  {around : Scopes} {name name' : String} {g : Variable → Variable} {x : Variable}
  {ds : List (ℕ × String)}

namespace Frame

lemma get?_change :
    (f.change name g).get? name' =
      if name' = name then (f.get? name').map g else f.get? name' := by
  rw [get?, get?, change]
  dsimp only
  induction f.entries with
  | nil => simp
  | cons p entries ih =>
    rw [List.map_cons, List.lookup_cons, List.lookup_cons, ih]
    by_cases hname : p.1 = name
    · by_cases hname' : name' = name
      · simp [hname, hname']
      · have hother : (name' == name) = false := beq_eq_false_iff_ne.mpr hname'
        simp [hname, hname', hother]
    · by_cases hname' : name' = p.1
      · simp [hname, hname']
      · have hother : (name' == p.1) = false := beq_eq_false_iff_ne.mpr hname'
        simp [hname, hother]

lemma get?_add :
    (f.add name x).get? name' =
      if name' = name then some ((f.get? name).getD x) else f.get? name' := by
  unfold add
  split
  · rename_i hhas
    obtain ⟨y, hy⟩ := Option.isSome_iff_exists.mp hhas
    split
    · rename_i hname
      rw [hname, hy]
      rfl
    · rfl
  · rename_i hhas
    have hnone : f.get? name = none := by simpa [has] using hhas
    rw [hnone]
    simp only [get?, List.lookup_cons]
    by_cases hname : name' = name
    · simp [hname]
    · have hother : (name' == name) = false := beq_eq_false_iff_ne.mpr hname
      simp [hname, hother]

namespace Keeps

lemma has_iff (h : f.Keeps L scope) : f.has name = true ↔ (L (scope.1, name)).isSome = true := by
  rw [has, h.get]

/-- Only what is known of the variables of the scope matters. -/
lemma congr (h : f.Keeps L scope) (hL : ∀ name, L' (scope.1, name) = L (scope.1, name)) :
    f.Keeps L' scope where
  block := h.block
  program := h.program
  nodup := h.nodup
  get name := by rw [h.get, hL]

lemma change (h : f.Keeps L scope) :
    (f.change name g).Keeps (L.change (scope.1, name) g) scope where
  block := h.block
  program := h.program
  nodup := by
    have hnames : (f.change name g).localScope.names = f.localScope.names := by
      rw [localScope_change]
    change (f.change name g).localScope.names.Nodup
    rw [hnames]
    exact h.nodup
  get name' := by
    rw [get?_change]
    by_cases hname : name' = name
    · rw [if_pos hname, hname, Ledger.change_same, h.get]
    · rw [if_neg hname, Ledger.change_of_ne (by simpa using hname), h.get]

lemma add (h : f.Keeps L scope) : (f.add name x).Keeps (L.add (scope.1, name) x) scope where
  block := by rw [kind_add, h.block]
  program := by rw [kind_add, h.program]
  nodup := by
    unfold Frame.add
    split
    · exact h.nodup
    · rename_i hhas
      refine List.nodup_cons.mpr ⟨fun hname => hhas ?_, h.nodup⟩
      rw [has_eq]
      exact List.contains_iff_mem.mpr hname
  get name' := by
    rw [get?_add]
    by_cases hname : name' = name
    · rw [if_pos hname, hname, Ledger.add_same, h.get]
    · rw [if_neg hname, Ledger.add_of_ne (by simpa using hname), h.get]

end Keeps

end Frame

/-! ### Stacks -/

lemma KeepAll.congr (h : KeepAll L fs around)
    (hL : ∀ scope ∈ around, ∀ name, L' (scope.1, name) = L (scope.1, name)) :
    KeepAll L' fs around := by
  induction h with
  | nil => exact .nil
  | cons hf _ ih =>
    rw [List.forall_mem_cons] at hL
    exact .cons (hf.congr hL.1) (ih hL.2)

namespace ScopeStack

/-- A name is looked up in frames as it is resolved in scopes. -/
lemma change?_keeps (name : String) (g : Variable → Variable) (h : KeepAll L fs around)
    (hds : ∀ v, (L v).isSome = true ↔ v ∈ ds) (hnested : (around.map Prod.fst).Nodup) :
    match resolve? ds around name with
    | none => change? name g fs = none
    | some v => ∃ fs', change? name g fs = some fs' ∧ KeepAll (L.change v g) fs' around := by
  induction h with
  | nil => rfl
  | @cons f scope fs around hf hfs ih =>
    obtain ⟨opener, closed⟩ := scope
    rw [List.map_cons, List.nodup_cons] at hnested
    have hother (w : ℕ × String) (hw : w.1 ≠ opener) :
        f.Keeps (L.change w g) (opener, closed) :=
      hf.congr fun name' => Ledger.change_of_ne fun heq => hw (heq ▸ rfl)
    rw [resolve?_cons, change?]
    by_cases hhas : (opener, name) ∈ ds
    · rw [if_pos hhas, if_pos (hf.has_iff.mpr ((hds _).mpr hhas))]
      refine ⟨_, rfl, .cons hf.change (KeepAll.congr hfs fun scope hscope name' => ?_)⟩
      refine Ledger.change_of_ne fun heq => hnested.1 ?_
      exact List.mem_map.mpr ⟨scope, hscope, (Prod.mk.inj heq).1⟩
    · rw [if_neg hhas, if_neg (fun hname => hhas ((hds _).mp (hf.has_iff.mp hname)))]
      cases closed with
      | true => simp [hf.block]
      | false =>
        have hblock : f.kind = .block := hf.block.mpr rfl
        simp only [hblock, Bool.false_eq_true, if_false, if_true]
        have hrest := ih hnested.2
        cases hresolve : resolve? ds around name with
        | none =>
          rw [hresolve] at hrest
          simp [hrest]
        | some v =>
          rw [hresolve] at hrest
          obtain ⟨fs', hchange, hkeeps⟩ := hrest
          refine ⟨f :: fs', by simp [hchange], .cons (hother v fun hv => hnested.1 ?_) hkeeps⟩
          rw [← hv]
          exact mem_map_of_mem_visible (mem_of_resolve? hresolve).2.2

namespace Keeps

/-- A name that is read. -/
lemma read (h : s.Keeps L around) (hds : ∀ v, (L v).isSome = true ↔ v ∈ ds)
    (hnested : (around.map Prod.fst).Nodup) :
    (s.read name).Keeps (L.read (resolve? ds around name)) around := by
  have hchange := change?_keeps name .read h hds hnested
  rw [← frames_changeVisible?] at hchange
  unfold ScopeStack.read
  cases hresolve : resolve? ds around name with
  | none =>
    rw [hresolve] at hchange
    rw [Option.map_eq_none_iff.mp hchange]
    exact h
  | some v =>
    rw [hresolve] at hchange
    obtain ⟨fs', hfs, hkeeps⟩ := hchange
    obtain ⟨s', hs', rfl⟩ := Option.map_eq_some_iff.mp hfs
    rw [hs']
    exact hkeeps

/-- An assignment to a name that resolves. -/
lemma write {v : ℕ × String} {at_ : Position} (h : s.Keeps L around)
    (hds : ∀ v, (L v).isSome = true ↔ v ∈ ds) (hnested : (around.map Prod.fst).Nodup)
    (hresolve : resolve? ds around name = some v) :
    (s.write name at_).Keeps (L.change v .write) around := by
  have hchange := change?_keeps name .write h hds hnested
  rw [← frames_changeVisible?, hresolve] at hchange
  obtain ⟨fs', hfs, hkeeps⟩ := hchange
  obtain ⟨s', hs', rfl⟩ := Option.map_eq_some_iff.mp hfs
  rw [ScopeStack.write, hs']
  exact hkeeps

/-- A variable that is added to the innermost frame. -/
lemma add {opener : ℕ} {closed : Bool} (name : String) (x : Variable)
    (h : s.Keeps L ((opener, closed) :: around)) (hnested : opener ∉ around.map Prod.fst) :
    (s.add name x).Keeps (L.add (opener, name) x) ((opener, closed) :: around) := by
  cases h with
  | cons htop hbelow =>
    refine .cons htop.add (KeepAll.congr hbelow fun scope hscope name' => ?_)
    refine Ledger.add_of_ne fun heq => hnested ?_
    exact List.mem_map.mpr ⟨scope, hscope, (Prod.mk.inj heq).1⟩

/-- An assignment to a name that does not resolve. -/
lemma assign {opener : ℕ} {closed : Bool} {at_ : Position}
    (h : s.Keeps L ((opener, closed) :: around)) (hds : ∀ v, (L v).isSome = true ↔ v ∈ ds)
    (hnested : (((opener, closed) :: around).map Prod.fst).Nodup)
    (hresolve : resolve? ds ((opener, closed) :: around) name = none) :
    (s.write name at_).Keeps (L.add (opener, name) (.assigned at_)) ((opener, closed) :: around) := by
  have hchange := change?_keeps name .write h hds hnested
  rw [← frames_changeVisible?, hresolve] at hchange
  rw [ScopeStack.write, Option.map_eq_none_iff.mp hchange]
  exact h.add name _ (List.nodup_cons.mp hnested).1

/-- A name that a block hides. -/
lemma touchOuter (h : s.Keeps L around) (hds : ∀ v, (L v).isSome = true ↔ v ∈ ds)
    (hnested : (around.map Prod.fst).Nodup) :
    (s.touchOuter name).Keeps (L.read (resolve? ds (beyond around) name)) around := by
  obtain ⟨top, below⟩ := s
  cases h with
  | @cons _ scope _ rest htop hbelow =>
    obtain ⟨opener, closed⟩ := scope
    rw [List.map_cons, List.nodup_cons] at hnested
    unfold ScopeStack.touchOuter changeOuter? ScopeStack.around
    cases closed with
    | true =>
      rw [if_neg (by simp [htop.block])]
      exact .cons htop hbelow
    | false =>
      rw [if_pos (htop.block.mpr rfl)]
      have hchange := change?_keeps name .read hbelow hds hnested.2
      cases hresolve : resolve? ds rest name with
      | none =>
        rw [hresolve] at hchange
        rw [beyond, hresolve, hchange]
        exact .cons htop hbelow
      | some v =>
        rw [hresolve] at hchange
        obtain ⟨fs', hfs, hkeeps⟩ := hchange
        rw [beyond, hresolve, hfs]
        refine .cons (htop.congr fun name' => Ledger.change_of_ne fun heq => hnested.1 ?_) hkeeps
        change opener ∈ rest.map Prod.fst
        rw [show opener = v.1 from congrArg Prod.fst heq]
        exact mem_map_of_mem_visible (mem_of_resolve? hresolve).2.2

end Keeps

end ScopeStack

end RubyCheck
