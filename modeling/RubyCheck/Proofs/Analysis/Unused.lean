import RubyCheck.Check
import RubyCheck.Proofs.Analysis.Finding
import RubyCheck.Proofs.Analysis.Variable
import RubyCheck.Proofs.Scope.Ledger

/-!
# Unused variables

The walk over a tree finds exactly the variables that are left unused: those that some node assigns
to and none reads, unless they belong to the program, are bound first by a parameter, or have a name
that may stay unused (`LeftUnused`).

While a tree is walked the open frames keep what the nodes visited so far tell about the variables
of the scopes around, and what was found are the unused variables of the scopes that were left
(`Booked`).  A variable of such a scope is never spoken of again, so what was found about it stays
right.
-/

namespace RubyCheck

/-- Whether a variable is found to be unused. -/
def Finding.isUnusedVariable (f : Finding) : Bool :=
  match f.cause with
  | .unusedVariable _ => true
  | _ => false

/-- A variable that is assigned to and never read by the nodes of a walk, and the place of the node
that binds it first, which is no parameter.  Variables of the program do not count, nor do those
whose names say that they may stay unused. -/
structure LeftUnused (ps : List (Scopes × Node)) (v : ℕ × String) (at_ : Position) : Prop where
  inner : v.1 ≠ 0
  named : Frame.mayStayUnused v.2 = false
  first : ∃ n, binder? v [] ps = some n ∧ n.kind ≠ .parameter ∧ n.span.start = at_
  assigned : v ∈ assignments ps
  unread : v ∉ readings ps

variable {ps : List (Scopes × Node)} {p : Scopes × Node} {v : ℕ × String} {at_ : Position}

/-- The ledger tells which variables are left unused. -/
lemma leftUnused_iff : LeftUnused ps v at_ ↔ v.1 ≠ 0 ∧ Frame.mayStayUnused v.2 = false ∧
    ∃ x, ledger ps v = some x ∧ x.isUnused = true ∧ x.declaredAt = at_ := by
  constructor
  · rintro ⟨hinner, hnamed, ⟨n, hbinder, hkind, hat⟩, hassigned, hunread⟩
    refine ⟨hinner, hnamed, _, by rw [ledger, hbinder]; rfl, ?_, hat⟩
    simp [Variable.isUnused, hkind, List.count_pos_iff.mpr hassigned,
      List.count_eq_zero.mpr hunread]
  · rintro ⟨hinner, hnamed, x, hx, hunused, hat⟩
    obtain ⟨n, hbinder, rfl⟩ := Option.map_eq_some_iff.mp hx
    simp only [Variable.isUnused, Bool.and_eq_true, Bool.not_eq_true', beq_eq_false_iff_ne,
      decide_eq_true_eq, beq_iff_eq, List.count_pos_iff, List.count_eq_zero] at hunused
    exact ⟨hinner, hnamed, ⟨n, hbinder, hunused.1.1, hat⟩, hunused.1.2, hunused.2⟩

/-- A variable that is left unused is bound. -/
lemma LeftUnused.bound (h : LeftUnused ps v at_) : v ∈ bindings ps :=
  mem_bindings_of_mem_assignments h.assigned

/-- One more node tells nothing about the variables of scopes that are not around it. -/
lemma ledger_of_not_around (hv : v.1 ∉ p.1.map Prod.fst) : ledger (ps ++ [p]) v = ledger ps v := by
  have hbinding : binding? (bindings ps) p ≠ some v := fun h => hv (mem_of_binding? h)
  have hreading : v ∉ (reading? (bindings ps) p).toList :=
    fun h => hv (opener_of_reading? (Option.mem_toList.mp h))
  have hassignment : v ∉ (assignment? (bindings ps) p).toList :=
    fun h => hv (opener_of_assignment? (Option.mem_toList.mp h))
  rw [ledger_concat, if_neg hbinding, Option.or_none, List.count_eq_zero.mpr hreading,
    List.count_eq_zero.mpr hassignment]
  simp

/-- A node that stands in other scopes has nothing to do with it. -/
lemma leftUnused_of_not_around (hv : v.1 ∉ p.1.map Prod.fst) :
    LeftUnused (ps ++ [p]) v at_ ↔ LeftUnused ps v at_ := by
  rw [leftUnused_iff, leftUnused_iff, ledger_of_not_around hv]

namespace Analysis

open Node

variable {around : Scopes} {place : ℕ} {n : Node} {ns : List Node} {s s' : State}
  {fs fs' : List Finding}

/-! ### What was found -/

/-- What was found are the variables left unused of the scopes that are not around any more. -/
def Reported (ps : List (Scopes × Node)) (around : Scopes) (fs : List Finding) : Prop :=
  ∃ unused : List ((ℕ × String) × Position), (unused.map Prod.fst).Nodup ∧
    (∀ x, x ∈ unused ↔ LeftUnused ps x.1 x.2 ∧ x.1.1 ∉ around.map Prod.fst) ∧
    (fs.filter (·.isUnusedVariable)).Perm
      (unused.map fun x => ⟨.unusedVariable x.1.2, x.2⟩)

/-- One more node is passed, and no unused variable is found. -/
lemma Reported.pass (h : Reported ps around fs)
    (hfound : fs'.filter (·.isUnusedVariable) = fs.filter (·.isUnusedVariable)) :
    Reported (ps ++ [(around, n)]) around fs' := by
  obtain ⟨unused, hnodup, hmem, hperm⟩ := h
  refine ⟨unused, hnodup, fun x => ?_, by rwa [hfound]⟩
  rw [hmem]
  exact and_congr_left fun hx => (leftUnused_of_not_around hx).symm

/-- A scope is entered of which nothing was told so far. -/
lemma Reported.enter (h : Reported ps around fs) (closed : Bool)
    (hfresh : ∀ v ∈ bindings ps, v.1 ≠ place) : Reported ps ((place, closed) :: around) fs := by
  obtain ⟨unused, hnodup, hmem, hperm⟩ := h
  refine ⟨unused, hnodup, fun x => ?_, hperm⟩
  rw [hmem, List.map_cons, List.mem_cons]
  refine and_congr_right fun hx => ?_
  rw [or_iff_right (hfresh _ hx.bound)]

/-- The unused variables of a frame, and the places where they were declared. -/
def unusedIn (opener : ℕ) (f : Frame) : List ((ℕ × String) × Position) :=
  (f.entries.filter fun p => p.2.isUnused && !Frame.mayStayUnused p.1).map fun p =>
    ((opener, p.1), p.2.declaredAt)

/-- Where names are listed once, a name is looked up to what is listed with it. -/
lemma lookup_eq_some_iff_mem {entries : List (String × Variable)} {name : String} {x : Variable}
    (h : (entries.map Prod.fst).Nodup) : entries.lookup name = some x ↔ (name, x) ∈ entries := by
  constructor
  · intro hx
    obtain ⟨before, after, rfl, -⟩ := List.lookup_eq_some_iff.mp hx
    exact List.mem_append_right _ List.mem_cons_self
  · intro hx
    obtain ⟨before, after, rfl⟩ := List.append_of_mem hx
    refine List.lookup_eq_some_iff.mpr ⟨before, after, rfl, fun p hp => bne_iff_ne.mpr ?_⟩
    rintro rfl
    rw [List.map_append, List.map_cons, List.nodup_append] at h
    exact h.2.2 _ (List.mem_map_of_mem hp) _ List.mem_cons_self rfl

/-- The unused variables of a frame are those left unused of its scope. -/
lemma mem_unusedIn {scope : ℕ × Bool} {f : Frame} {x : (ℕ × String) × Position}
    (hf : f.Keeps (ledger ps) scope) (hinner : scope.1 ≠ 0) :
    x ∈ unusedIn scope.1 f ↔ LeftUnused ps x.1 x.2 ∧ x.1.1 = scope.1 := by
  obtain ⟨⟨opener, name⟩, at_⟩ := x
  rw [leftUnused_iff, unusedIn, List.mem_map]
  constructor
  · rintro ⟨p, hp, heq⟩
    obtain ⟨⟨rfl, rfl⟩, rfl⟩ : (scope.1 = opener ∧ p.1 = name) ∧ p.2.declaredAt = at_ := by
      simpa only [Prod.mk.injEq] using heq
    obtain ⟨hmem, hunused⟩ := List.mem_filter.mp hp
    rw [Bool.and_eq_true, Bool.not_eq_true'] at hunused
    refine ⟨⟨hinner, hunused.2, p.2, ?_, hunused.1, rfl⟩, rfl⟩
    rw [← hf.get]
    exact (lookup_eq_some_iff_mem hf.nodup).mpr hmem
  · rintro ⟨⟨-, hnamed, y, hy, hunused, hat⟩, hopener⟩
    obtain rfl : opener = scope.1 := hopener
    rw [← hf.get] at hy
    obtain rfl : y.declaredAt = at_ := hat
    refine ⟨(name, y), List.mem_filter.mpr ⟨(lookup_eq_some_iff_mem hf.nodup).mp hy, ?_⟩, rfl⟩
    simpa [hunused] using hnamed

/-- The unused variables of a frame are listed once each. -/
lemma nodup_unusedIn {opener : ℕ} {f : Frame} (hf : (f.entries.map Prod.fst).Nodup) :
    ((unusedIn opener f).map Prod.fst).Nodup := by
  have hnames := (List.filter_sublist (l := f.entries)
    (p := fun p => p.2.isUnused && !Frame.mayStayUnused p.1)).map Prod.fst |>.nodup hf
  have hpairs := hnames.map (f := fun name => (opener, name)) fun _ _ h => (Prod.mk.inj h).2
  rw [List.map_map] at hpairs
  rw [unusedIn, List.map_map]
  exact hpairs

/-- A frame that is left reports its unused variables. -/
lemma unused_perm (opener : ℕ) {f : Frame} (hf : f.kind ≠ .program) :
    f.unused.Perm ((unusedIn opener f).map fun x => ⟨.unusedVariable x.1.2, x.2⟩) := by
  rw [Frame.unused, if_neg hf, unusedIn, List.map_map]
  exact ((List.mergeSort_perm f.entries _).filter _).map _

/-- What a frame finds when it is left is unused variables. -/
lemma isUnusedVariable_of_mem_unused {f : Frame} :
    ∀ g ∈ f.unused, g.isUnusedVariable = true := by
  unfold Frame.unused
  split
  · simp
  · exact List.forall_mem_map.mpr fun _ _ => rfl

/-- A scope that is left reports its unused variables. -/
lemma Reported.leave {scope : ℕ × Bool} {f : Frame} (h : Reported ps (scope :: around) fs)
    (hf : f.Keeps (ledger ps) scope) (hinner : scope.1 ≠ 0) (hscope : scope.1 ∉ around.map Prod.fst) :
    Reported ps around (f.unused.reverse ++ fs) := by
  obtain ⟨unused, hnodup, hmem, hperm⟩ := h
  refine ⟨unusedIn scope.1 f ++ unused, ?_, fun x => ?_, ?_⟩
  · rw [List.map_append]
    refine (nodup_unusedIn hf.nodup).append hnodup fun v hv hv' => ?_
    obtain ⟨x, hx, rfl⟩ := List.mem_map.mp hv
    obtain ⟨y, hy, heq⟩ := List.mem_map.mp hv'
    refine ((hmem y).mp hy).2 ?_
    rw [heq, ((mem_unusedIn hf hinner).mp hx).2]
    exact List.mem_cons_self
  · rw [List.mem_append, mem_unusedIn hf hinner, hmem, List.map_cons, List.mem_cons]
    constructor
    · rintro (⟨hx, hopener⟩ | ⟨hx, hother⟩)
      · exact ⟨hx, by rwa [hopener]⟩
      · exact ⟨hx, fun hin => hother (.inr hin)⟩
    · rintro ⟨hx, houtside⟩
      by_cases hopener : x.1.1 = scope.1
      · exact .inl ⟨hx, hopener⟩
      · exact .inr ⟨hx, fun hin => hin.elim hopener houtside⟩
  · have hkind : f.kind ≠ .program := fun hkind => hinner (hf.program.mp hkind)
    have hall : f.unused.reverse.filter (·.isUnusedVariable) = f.unused.reverse :=
      List.filter_eq_self.mpr fun g hg =>
        isUnusedVariable_of_mem_unused g (List.mem_reverse.mp hg)
    rw [List.filter_append, hall, List.map_append]
    exact ((List.reverse_perm _).trans (unused_perm scope.1 hkind)).append hperm

/-! ### Frames and findings together -/

/-- Behind some nodes of a walk, the frames keep what these tell about the scopes around, and the
unused variables of all other scopes were found. -/
structure Booked (ps : List (Scopes × Node)) (around : Scopes) (place : ℕ) (s : State) : Prop where
  scopes : s.scopes.Keeps (ledger ps) around
  /-- Scopes further in were opened later. -/
  nested : around.Pairwise fun inner outer => outer.1 < inner.1
  opened : ∀ scope ∈ around, scope.1 < place
  bound : ∀ v ∈ bindings ps, v.1 < place
  found : Reported ps around s.found

namespace Event

/-- Whether nothing happens to variables, and no unused one is found. -/
def isAside : Event → Bool
  | exitHook _ => true
  | found f => !f.isUnusedVariable
  | _ => false

end Event

namespace Booked

variable {place' : ℕ} {e : Event} {es : List Event}

/-- The books stand at every later place as well. -/
lemma later (h : Booked ps around place s) (hplace : place ≤ place') :
    Booked ps around place' s where
  scopes := h.scopes
  nested := h.nested
  opened scope hscope := Nat.lt_of_lt_of_le (h.opened scope hscope) hplace
  bound v hv := Nat.lt_of_lt_of_le (h.bound v hv) hplace
  found := h.found

/-- No scope is around twice. -/
lemma nodup (h : Booked ps around place s) : (around.map Prod.fst).Nodup :=
  List.Pairwise.map _ (fun _ _ hlt => Nat.ne_of_gt hlt) h.nested

/-- Some scope is always around. -/
lemma exists_around (h : Booked ps around place s) : ∃ scope rest, around = scope :: rest := by
  cases h.scopes with
  | cons _ _ => exact ⟨_, _, rfl⟩

/-- Inside a program nothing is known in the beginning. -/
lemma outermost (n : Node) : Booked [([], n)] [(0, true)] 1 .initial := by
  have hnone : bindings [([], n)] = [] := by
    simp [bindings, along, binding?, declaration]
  have hunknown : ∀ v, ledger [([], n)] v = none := by
    intro v
    rw [← Option.not_isSome_iff_eq_none, isSome_ledger, hnone]
    simp
  have hkind : State.initial.scopes.top.kind = .program := rfl
  refine ⟨.cons ⟨by simp [hkind], by simp [hkind], List.nodup_nil, fun name => ?_⟩ .nil,
    List.pairwise_singleton _ _, by simp, by simp [hnone], [], List.nodup_nil, fun x => ?_, .nil⟩
  · rw [hunknown]
    rfl
  · refine iff_of_false (by simp) fun hx => ?_
    have hbound := hx.1.bound
    simp [hnone] at hbound

/-- An event that has nothing to do with variables leaves the books alone. -/
lemma aside (h : Booked ps around place s) (he : e.isAside = true) :
    Booked ps around place (s.step e) := by
  obtain ⟨unused, hnodup, hmem, hperm⟩ := h.found
  cases e with
  | exitHook at_ =>
    change Booked ps around place
      (((exitHookFinding? s.scopes.enclosingDefinition at_).map s.find).getD s)
    unfold exitHookFinding?
    split
    · exact ⟨h.scopes, h.nested, h.opened, h.bound, unused, hnodup, hmem, hperm⟩
    · exact h
  | found f =>
    have hother : f.isUnusedVariable = false := by simpa [Event.isAside] using he
    refine ⟨h.scopes, h.nested, h.opened, h.bound, unused, hnodup, hmem, ?_⟩
    change (List.filter _ (f :: s.found)).Perm _
    rwa [List.filter_cons_of_neg (by simp [hother])]
  | enter _ | leave | use _ | useForUpdate _ | write _ _ | parameter _ _ _ | blockLocal _ _ =>
    simp [Event.isAside] at he

/-- Any number of events that have nothing to do with variables leave the books alone. -/
lemma asides (h : Booked ps around place s) (hes : ∀ e ∈ es, e.isAside = true) :
    Booked ps around place (s.run es) := by
  induction es generalizing s with
  | nil => exact h
  | cons e es ih =>
    rw [List.forall_mem_cons] at hes
    exact ih (h.aside hes.1) hes.2

/-- A node was passed. -/
lemma pass (h : Booked ps around place s)
    (hscopes : s'.scopes.Keeps (ledger (ps ++ [(around, n)])) around)
    (hfound : s'.found.filter (·.isUnusedVariable) = s.found.filter (·.isUnusedVariable)) :
    Booked (ps ++ [(around, n)]) around place s' where
  scopes := hscopes
  nested := h.nested
  opened := h.opened
  bound v hv := by
    rw [bindings, along_concat, List.mem_append, Option.mem_toList] at hv
    rcases hv with hv | hv
    · exact h.bound v hv
    · obtain ⟨scope, hscope, hopener⟩ := opener_of_binding? hv
      rw [← hopener]
      exact h.opened scope (List.mem_of_mem_head? hscope)
  found := h.found.pass hfound

/-- A node that binds nothing and assigns to nothing reads a name, if any. -/
lemma read (h : Booked ps around place s) (hdeclares : n.declares = false)
    (hscopes : s'.scopes.Keeps ((ledger ps).read (reading? (bindings ps) (around, n))) around)
    (hfound : s'.found = s.found) : Booked (ps ++ [(around, n)]) around place s' := by
  have hnone : declaration (around, n) = none := by simp [declaration, hdeclares]
  have hkind : n.kind ≠ .localTarget := by
    intro hkind
    simp [declares, hkind] at hdeclares
  refine h.pass ?_ (by rw [hfound])
  rwa [ledger_read (by simp [binding?, hnone]) (by simp [assignment?, hkind])]

/-- A node that has nothing to do with variables. -/
lemma skip (h : Booked ps around place s) (hdeclares : n.declares = false)
    (hmention : mention? (around, n) = none) : Booked (ps ++ [(around, n)]) around place s := by
  refine h.read hdeclares ?_ rfl
  rw [reading?, hmention]
  exact h.scopes

/-- The books are kept over a variable that is read. -/
lemma use (h : Booked ps around place s) (hkind : n.kind = .localVariable) :
    Booked (ps ++ [(around, n)]) around place (s.step (.use n.name)) := by
  refine h.read (by simp [declares, hkind]) ?_ rfl
  have hmention : mention? (around, n) = some (around, n.name) := by simp [mention?, hkind]
  rw [reading?, hmention]
  exact h.scopes.read (fun _ => isSome_ledger) h.nodup

/-- The books are kept over a variable that is updated. -/
lemma update (h : Booked ps around place s) (hkind : n.kind = .opAssignment) :
    Booked (ps ++ [(around, n)]) around place (s.run (updatedVariable n.children)) := by
  have hdeclares : n.declares = false := by simp [declares, hkind]
  cases hchildren : n.children with
  | nil => exact h.skip hdeclares (by simp [mention?, hkind, hchildren])
  | cons target rest =>
    rw [updatedVariable]
    split
    · rename_i htarget
      have hmention : mention? (around, n) = some (around, target.name) := by
        simp [mention?, hkind, hchildren, htarget]
      refine h.read hdeclares ?_ rfl
      rw [reading?, hmention]
      exact h.scopes.read (fun _ => isSome_ledger) h.nodup
    · rename_i htarget
      exact h.skip hdeclares (by simp [mention?, hkind, hchildren, htarget])

/-- The books are kept over a variable that is assigned to. -/
lemma write (h : Booked ps around place s) (hkind : n.kind = .localTarget) :
    Booked (ps ++ [(around, n)]) around place (s.step (.write n.name n.span.start)) := by
  obtain ⟨⟨opener, closed⟩, rest, rfl⟩ := h.exists_around
  have hreading : reading? (bindings ps) ((opener, closed) :: rest, n) = none := by
    simp [reading?, mention?, hkind]
  have hdeclaration : declaration ((opener, closed) :: rest, n) = some (opener, n.name) := by
    simp [declaration, declares, hkind]
  refine h.pass ?_ rfl
  cases hresolve : resolve? (bindings ps) ((opener, closed) :: rest) n.name with
  | some v =>
    rw [ledger_write (w := v) (by simp [binding?, hkind, hresolve])
      (by simp [assignment?, hkind, hresolve]) hreading]
    exact h.scopes.write (fun _ => isSome_ledger) h.nodup hresolve
  | none =>
    have hunbound : (opener, n.name) ∉ bindings ps := by
      intro hbound
      rw [resolve?_cons, if_pos hbound] at hresolve
      simp at hresolve
    rw [ledger_assign (by simp [hkind]) hunbound (by simp [binding?, hresolve, hdeclaration])
      (by simp [assignment?, hkind, hresolve, hdeclaration]) hreading]
    exact h.scopes.assign (fun _ => isSome_ledger) h.nodup hresolve

/-- The books are kept over a variable of a block. -/
lemma blockLocal (h : Booked ps around place s) (hkind : n.kind = .blockLocal) :
    Booked (ps ++ [(around, n)]) around place (s.step (.blockLocal n.name n.span.start)) := by
  obtain ⟨⟨opener, closed⟩, rest, rfl⟩ := h.exists_around
  have hbinding : binding? (bindings ps) ((opener, closed) :: rest, n) = some (opener, n.name) := by
    simp [binding?, declaration, declares, hkind]
  refine h.pass ?_ rfl
  have hreading : reading? (bindings ps) ((opener, closed) :: rest, n) = none := by
    simp [reading?, mention?, hkind]
  have hother : (n.kind == .parameter) = false := by simp [hkind]
  rw [ledger_bind hbinding (by simp [assignment?, hkind]), hreading]
  dsimp only
  rw [hother]
  exact h.scopes.add n.name (.blockLocal n.span.start) (List.nodup_cons.mp h.nodup).1

/-- Hiding a name is a use of the one around. -/
lemma hide_scopes (s : State) (name : String) :
    (s.hide name at_).scopes = s.scopes.touchOuter name := by
  unfold State.hide
  split
  · rfl
  · rename_i hnone
    have hchange : ScopeStack.change? name .read s.scopes.around = none := by
      have hsees := ScopeStack.isSome_find? name s.scopes.around
      rw [← ScopeStack.isSome_change? (g := .read)] at hsees
      rw [← Option.not_isSome_iff_eq_none, ← hsees]
      change ¬ (s.scopes.outer? name).isSome = true
      rw [hnone]
      simp
    rw [ScopeStack.touchOuter, ScopeStack.changeOuter?, hchange]
    rfl

/-- Hiding a name finds no unused variable. -/
lemma hide_found (s : State) (name : String) :
    (s.hide name at_).found.filter (·.isUnusedVariable) =
      s.found.filter (·.isUnusedVariable) := by
  unfold State.hide
  split
  · exact List.filter_cons_of_neg (by simp [Finding.isUnusedVariable])
  · rfl

/-- A parameter hides a variable around its block, unless it is one of a method. -/
lemma parameter {inBlock : Bool} (h : Booked ps around place s) (hkind : n.kind = .parameter)
    (hclosed : inBlock = false → beyond around = []) :
    Booked (ps ++ [(around, n)]) around place
      (s.run (namedParameter n.name n.span.start inBlock)) := by
  unfold namedParameter
  split
  · rename_i hname
    have hdeclares : n.declares = false := by
      simp only [Bool.or_eq_true, beq_iff_eq] at hname
      rcases hname with hname | hname
      · simp [declares, hkind, hname]
      · simp [declares, hkind, hname]
    exact h.skip hdeclares (by simp [mention?, hkind, hdeclares])
  · rename_i hname
    have hdeclares : n.declares = true := by
      simp only [Bool.or_eq_true, beq_iff_eq, not_or] at hname
      simp [declares, hkind, hname]
    obtain ⟨⟨opener, closed⟩, rest, rfl⟩ := h.exists_around
    have hbinding : binding? (bindings ps) ((opener, closed) :: rest, n) = some (opener, n.name) := by
      simp [binding?, declaration, hdeclares, hkind]
    have hmention : mention? ((opener, closed) :: rest, n) =
        some (beyond ((opener, closed) :: rest), n.name) := by
      simp [mention?, hkind, hdeclares]
    have hread : ((s.hide n.name n.span.start).scopes).Keeps
        ((ledger ps).read (resolve? (bindings ps) (beyond ((opener, closed) :: rest)) n.name))
        ((opener, closed) :: rest) := by
      rw [hide_scopes]
      exact h.scopes.touchOuter (fun _ => isSome_ledger) h.nodup
    have hfresh := (List.nodup_cons.mp h.nodup).1
    have hparameter : (n.kind == .parameter) = true := by simp [hkind]
    cases inBlock with
    | true =>
      refine h.pass ?_ (hide_found s n.name)
      rw [ledger_bind hbinding (by simp [assignment?, hkind]), reading?, hmention]
      dsimp only [Option.bind_some]
      rw [hparameter]
      exact hread.add n.name (.bound n.span.start) hfresh
    | false =>
      refine h.pass ?_ rfl
      rw [ledger_bind hbinding (by simp [assignment?, hkind]), reading?, hmention, hclosed rfl]
      dsimp only [Option.bind_some]
      rw [resolve?_nil, hparameter]
      exact h.scopes.add n.name (.bound n.span.start) hfresh

/-- A frame is entered behind the trees that stand outside of it. -/
lemma enter {closed : Bool} {kind : FrameKind} (hs : Booked ps around place s)
    (h : Booked (ps ++ walkAll around (place + 1) ns) around (place + 1 + sizeEach ns) s')
    (hkind : kind = .block ↔ closed = false) (hprogram : kind ≠ .program) :
    Booked (ps ++ walkAll around (place + 1) ns) ((place, closed) :: around)
      (place + 1 + sizeEach ns) (s'.step (.enter kind)) := by
  have hfresh : ∀ v ∈ bindings (ps ++ walkAll around (place + 1) ns), v.1 ≠ place := by
    intro v hv
    rcases opener_of_mem_bindings hv with hv | ⟨scope, hscope, hopener⟩ | hle
    · exact Nat.ne_of_lt (hs.bound v hv)
    · rw [← hopener]
      exact Nat.ne_of_lt (hs.opened scope (List.mem_of_mem_head? hscope))
    · omega
  refine ⟨?_, List.pairwise_cons.mpr ⟨hs.opened, h.nested⟩,
    List.forall_mem_cons.mpr ⟨by omega, h.opened⟩, h.bound, h.found.enter closed hfresh⟩
  obtain ⟨scope, rest, rfl⟩ := hs.exists_around
  have hinner : place ≠ 0 := Nat.ne_of_gt (Nat.zero_lt_of_lt (hs.opened _ List.mem_cons_self))
  refine .cons ⟨hkind, iff_of_false hprogram hinner, List.nodup_nil, fun name => ?_⟩ h.scopes
  have hunknown : ledger (ps ++ walkAll (scope :: rest) (place + 1) ns) (place, name) = none := by
    rw [← Option.not_isSome_iff_eq_none, isSome_ledger]
    exact fun hbound => hfresh _ hbound rfl
  rw [hunknown]
  rfl

/-- Leaving a scope closes its books: its unused variables are found. -/
lemma leave {scope outer : ℕ × Bool} (h : Booked ps (scope :: outer :: around) place s) :
    Booked ps (outer :: around) place (s.step .leave) := by
  obtain ⟨⟨top, below⟩, found⟩ := s
  have hnested := List.pairwise_cons.mp h.nested
  have hinner : scope.1 ≠ 0 := Nat.ne_of_gt (Nat.zero_lt_of_lt (hnested.1 _ List.mem_cons_self))
  have hfresh := (List.nodup_cons.mp h.nodup).1
  cases h.scopes with
  | @cons _ _ _ _ htop hbelow =>
    cases below with
    | nil => cases hbelow
    | cons f fs =>
      exact ⟨hbelow, hnested.2, (List.forall_mem_cons.mp h.opened).2, h.bound,
        h.found.leave htop hinner hfresh⟩

end Booked

/-! ### Trees -/

/-- Behind the events of some trees the books are kept, if they were in front. -/
def Books (around : Scopes) (ns : List Node) (es : List Event) : Prop :=
  ∀ ⦃ps : List (Scopes × Node)⦄ ⦃place : ℕ⦄ ⦃s : State⦄, Booked ps around place s →
    Booked (ps ++ walkAll around place ns) around (place + sizeEach ns) (s.run es)

/-- Behind some events the books are kept of a node by itself. -/
def Passed (around : Scopes) (n : Node) (es : List Event) : Prop :=
  ∀ ⦃ps : List (Scopes × Node)⦄ ⦃place : ℕ⦄ ⦃s : State⦄, Booked ps around place s →
    Booked (ps ++ [(around, n)]) around place (s.run es)

namespace Books

variable {ms : List Node} {es es' : List Event}

/-- No trees, no events. -/
lemma nil (around : Scopes) : Books around [] [] := by
  intro ps place s hs
  simpa [sizeEach, State.run] using hs

/-- One tree behind another. -/
lemma append (h : Books around ns es) (h' : Books around ms es') :
    Books around (ns ++ ms) (es ++ es') := by
  intro ps place s hs
  rw [walkAll_append, sizeEach_append, State.run_append, ← List.append_assoc, ← Nat.add_assoc]
  exact h' (h hs)

/-- Something beside the point in front of trees. -/
lemma behind (hes : ∀ e ∈ es, e.isAside = true) (h : Books around ns es') :
    Books around ns (es ++ es') := by
  intro ps place s hs
  rw [State.run_append]
  exact h (hs.asides hes)

/-- A node that opens no scope, with its children. -/
lemma node (hopens : n.opens = none) (hkind : n.kind ≠ .parameter) (hn : Passed around n es)
    (h : Books around n.children es') : Books around [n] (es ++ es') := by
  intro ps place s hs
  rw [walkAll_one, walk_of_opens_none hopens hkind, State.run_append, List.append_cons,
    sizeEach_one, ← Nat.add_assoc]
  exact h ((hn hs).later (Nat.le_succ place))

/-- The books are kept over a leaf that opens no scope and is no parameter. -/
lemma leaf (hopens : n.opens = none) (hkind : n.kind ≠ .parameter) (hleaf : n.children = [])
    (hn : Passed around n es) : Books around [n] es := by
  have hnone : Books around n.children [] := by
    rw [hleaf]
    exact .nil around
  have h := node hopens hkind hn hnone
  rwa [List.append_nil] at h

/-- A parameter comes behind its default value. -/
lemma parameter (hkind : n.kind = .parameter) (h : Books around n.children es)
    (hn : Passed around n es') : Books around [n] (es ++ es') := by
  intro ps place s hs
  rw [walkAll_one, walk_of_parameter hkind, State.run_append, ← List.append_assoc, sizeEach_one,
    ← Nat.add_assoc]
  exact hn (h (hs.later (Nat.le_succ place)))

/-- A node that opens a frame for the last of its children. -/
lemma scope (outer inner : List Node) {closed : Bool} {kind : FrameKind}
    (hopens : n.opens = some (closed, outer.length)) (hchildren : n.children = outer ++ inner)
    (hkind : kind = .block ↔ closed = false) (hprogram : kind ≠ .program)
    (hn : Passed around n []) (houter : Books around outer es)
    (hinner : ∀ place, Books ((place, closed) :: around) inner es') :
    Books around [n] (es ++ (.enter kind :: es' ++ [.leave])) := by
  intro ps place s hs
  have hfront := hn hs
  have hentered := hfront.enter (houter (hfront.later (Nat.le_succ place))) hkind hprogram
  have hbody := hinner place hentered
  obtain ⟨scope, rest, rfl⟩ := hs.exists_around
  have hsize : place + sizeEach [n] = place + 1 + sizeEach outer + sizeEach inner := by
    rw [sizeEach_one, hchildren, sizeEach_append, ← Nat.add_assoc, ← Nat.add_assoc]
  rw [walkAll_one, walk_of_opens_some hopens hchildren, hsize, List.append_cons,
    ← List.append_assoc, State.run_append, List.cons_append, State.run_cons, State.run_append]
  exact hbody.leave

/-- Trees whose books are kept one by one. -/
lemma each {role : Role} (h : ∀ c ∈ ns, Books around [c] (events role c [])) :
    Books around ns (eventsOfEach role ns []) := by
  induction ns with
  | nil => exact .nil around
  | cons c ns ih =>
    rw [List.forall_mem_cons] at h
    rw [eventsOfEach, events_eq_append]
    exact h.1.append (ih h.2)

/-- The books are kept over statements if they are over each. -/
lemma statements (h : ∀ c ∈ ns, Books around [c] (events .plain c [])) :
    Books around ns (eventsOfStatements ns []) := by
  induction ns with
  | nil => exact .nil around
  | cons c ns ih =>
    rw [List.forall_mem_cons] at h
    cases ns with
    | nil => exact h.1
    | cons c' ns =>
      have haside : ∀ e ∈ voidStatement c, e.isAside = true := by
        unfold voidStatement
        split
        · exact List.forall_mem_singleton.mpr rfl
        · simp
      rw [eventsOfStatements, events_eq_append, ← List.append_assoc]
      exact (behind haside h.1).append (ih h.2)

/-- A node that opens a frame for all of its children. -/
lemma frame (es : List Event) {closed : Bool} {kind : FrameKind} (hopens : n.opens = some (closed, 0))
    (hkind : kind = .block ↔ closed = false) (hprogram : kind ≠ .program)
    (hes : ∀ e ∈ es, e.isAside) (hn : Passed around n [])
    (h : ∀ place, Books ((place, closed) :: around) n.children
      (eventsOfEach .plain n.children [])) :
    Books around [n] (es ++ .enter kind :: eventsOfEach .plain n.children [.leave]) := by
  rw [eventsOfEach_eq_append]
  exact behind hes (.scope [] n.children hopens rfl hkind hprogram hn (.nil around) h)

/-- A class, whose frame is entered behind what it inherits from, or whose class it is. -/
lemma class_ (outer inner : List Node) (hopens : n.opens = some (true, outer.length))
    (hchildren : n.children = outer ++ inner)
    (houter : outer = [] ∨ ∃ m, outer = [m] ∧ m.kind ≠ .statements)
    (hinner : Fits NodeKind.bodyLayout inner) (hn : Passed around n [])
    (h : ∀ c ∈ n.children, ∀ around, Books around [c] (events .plain c [])) :
    Books around [n] (eventsOfClass n.children []) := by
  rw [hchildren, List.forall_mem_append] at h
  rw [hchildren, eventsOfClass_eq houter (exists_body hinner)]
  exact .scope outer inner hopens hchildren (by simp) (by simp) hn (.each fun c hc => h.1 c hc _)
    fun place => .each fun c hc => h.2 c hc _

end Books

/-- The parameters of a method stand right inside a closed scope. -/
def Role.Encloses (around : Scopes) (n : Node) (role : Role) : Prop :=
  n.kind = .parameters ∨ role = .parameter false → beyond around = []

/-- Only methods hold parameters that are not those of a block. -/
lemma Sound.encloses {role : Role} (h : Sound n) (hkind : n.kind ≠ .methodDef)
    (hrole : role = .parameter false → beyond around = []) :
    ∀ c ∈ n.children, role.Encloses around c := by
  rintro c hc (hparameters | hfalse)
  · have hholds := h.1.holds hc
    rw [hparameters] at hholds
    exact absurd (NodeKind.of_holds_parameters hholds) hkind
  · exact hrole hfalse

/-- What a `case` repeats is no unused variable. -/
lemma isAside_repeatedValues (n : Node) :
    ∀ e ∈ (repeatedValues n).map Event.found, e.isAside = true := by
  refine List.forall_mem_map.mpr fun f hf => ?_
  obtain ⟨⟨spelling, line, hcause⟩, -⟩ := mem_repeatedAmong hf
  simp [Event.isAside, Finding.isUnusedVariable, hcause]

/-- The books of every tree are kept. -/
theorem books (h : n.Everywhere Sound) {role : Role} (hrole : role.Admits n)
    (haround : role.Encloses around n) : Books around [n] (events role n []) := by
  induction h generalizing role around with
  | @intro n hn hchildren ih =>
    obtain ⟨kind, span, text, children⟩ := n
    have hskip (hdeclares : declares ⟨kind, span, text, children⟩ = false)
        (hmention : mention? (around, ⟨kind, span, text, children⟩) = none) :
        Passed around ⟨kind, span, text, children⟩ [] :=
      fun _ _ _ hs => hs.skip hdeclares hmention
    have heach {role' : Role} {around : Scopes} (hrole' : ∀ c ∈ children, role'.Admits c)
        (haround' : ∀ c ∈ children, role'.Encloses around c) :
        Books around children (eventsOfEach role' children []) :=
      .each fun c hc => ih c hc (hrole' c hc) (haround' c hc)
    have hplain (hkind : kind ≠ .methodDef) (around : Scopes) :
        ∀ c ∈ children, Role.plain.Encloses around c := hn.encloses hkind nofun
    unfold events
    split
    case h_1 inBlock =>
      exact .node rfl (by simp) (hskip rfl rfl) (heach (hn.admits_parameter inBlock)
        (hn.encloses (by simp) fun hrole => haround (.inr hrole)))
    case h_2 inBlock =>
      rw [List.append_nil, eventsOfEach_eq_append]
      exact .parameter rfl (heach (hn.admits_plain (by simp) (by simp) (by simp))
        (hplain (by simp) around)) fun _ _ _ hs =>
          hs.parameter rfl fun hfalse => haround (.inr (by rw [hfalse]))
    case h_3 inBlock =>
      exact .leaf rfl (by simp) (hn.1.children_eq_nil rfl) fun _ _ _ hs => hs.blockLocal rfl
    case h_4 => exact .leaf rfl (by simp) (hn.1.children_eq_nil rfl) (hskip rfl rfl)
    case h_5 =>
      have hadmits := hn.admits_plain (by simp) (by simp) (by simp)
      exact .node rfl (by simp) (hskip rfl rfl) (.statements fun c hc =>
        ih c hc (hadmits c hc) (hplain (by simp) around c hc))
    case h_6 =>
      exact .leaf rfl (by simp) (hn.1.children_eq_nil rfl) fun _ _ _ hs => hs.use rfl
    case h_7 =>
      exact .leaf rfl (by simp) (hn.1.children_eq_nil rfl) fun _ _ _ hs => hs.write rfl
    case h_8 =>
      exact .node rfl (by simp) (fun _ _ _ hs => hs.update rfl)
        (heach (hn.admits_plain (by simp) (by simp) (by simp)) (hplain (by simp) around))
    case h_9 =>
      exact .behind (isAside_repeatedValues _) (.node rfl (by simp) (hskip rfl rfl)
        (heach (hn.admits_plain (by simp) (by simp) (by simp)) (hplain (by simp) around)))
    case h_10 =>
      exact Books.frame [] rfl (by simp) (by simp) (by simp) (hskip rfl rfl) fun place =>
        heach (hn.admits_plain (by simp) (by simp) (by simp)) fun _ _ _ => rfl
    case h_11 =>
      exact Books.frame [] rfl (by simp) (by simp) (by simp) (hskip rfl rfl) fun place =>
        heach (hn.admits_plain (by simp) (by simp) (by simp)) (hplain (by simp) _)
    case h_12 =>
      have hadmits := hn.admits_plain (by simp) (by simp) (by simp)
      have hchild (c : Node) (hc : c ∈ children) (around : Scopes) :=
        ih c hc (hadmits c hc) (hplain (by simp) around c hc)
      cases hn.1 with
      | absent hbody =>
        obtain ⟨body, rest, rfl, hkind⟩ := exists_body hbody
        exact .class_ [] (body :: rest) (by simp [opens, hkind]) rfl (.inl rfl) hbody
          (hskip rfl rfl) hchild
      | @present _ m _ inner hm hbody =>
        obtain ⟨body, rest, rfl, hkind⟩ := exists_body hbody
        have hvalue := ne_statements hm
        exact .class_ [m] (body :: rest) (by simp [opens, hkind, hvalue]) rfl
          (.inr ⟨m, rfl, hvalue⟩) hbody (hskip rfl rfl) hchild
    case h_13 =>
      have hadmits := hn.admits_plain (by simp) (by simp) (by simp)
      have hchild (c : Node) (hc : c ∈ children) (around : Scopes) :=
        ih c hc (hadmits c hc) (hplain (by simp) around c hc)
      cases hn.1 with
      | @one _ m _ inner hm hbody =>
        exact .class_ [m] inner rfl rfl (.inr ⟨m, rfl, ne_statements hm⟩) hbody
          (hskip rfl rfl) hchild
    case h_14 | h_15 | h_16 =>
      exact Books.frame [] rfl (by simp) (by simp) (by simp) (hskip rfl rfl) fun place =>
        heach (hn.admits_plain (by simp) (by simp) (by simp)) (hplain (by simp) _)
    case h_17 =>
      exact Books.frame [.exitHook span.start] rfl (by simp) (by simp)
        (by simp [Event.isAside]) (hskip rfl rfl) fun place =>
          heach (hn.admits_plain (by simp) (by simp) (by simp)) (hplain (by simp) _)
    case h_18 =>
      exact .node rfl (by simp) (hskip rfl rfl) (heach (hn.admits_parameter false)
        (hn.encloses (by simp) fun _ => haround (.inl rfl)))
    case h_19 =>
      exact .node rfl (by simp) (hskip rfl rfl) (heach (hn.admits_parameter true)
        (hn.encloses (by simp) nofun))
    case h_20 hmulti hparameter hblockLocal =>
      -- Whatever is left opens no frame, and has nothing to do with variables.
      obtain ⟨hprogram, hlocal, hbound, htargets⟩ := hrole.of_not hmulti hparameter hblockLocal
      have hopens : opens ⟨kind, span, text, children⟩ = none := by
        unfold opens
        split
        all_goals simp_all
      have hdeclares : declares ⟨kind, span, text, children⟩ = false := by
        unfold declares
        split
        all_goals simp_all
      have hmention : mention? (around, ⟨kind, span, text, children⟩) = none := by
        unfold mention?
        split
        all_goals simp_all
      exact .node hopens hbound (hskip hdeclares hmention)
        (heach (hn.admits_plain ‹_› ‹_› htargets) (hplain ‹_› around))

/-- Behind the events of a program its books are kept. -/
lemma booked_ofText (limits : Limits) (source : List Char) :
    Booked (SyntaxTree.ofText limits source).root.walked [(0, true)]
      (SyntaxTree.ofText limits source).root.size
      (State.initial.run (eventsOfProgram (SyntaxTree.ofText limits source))) := by
  obtain ⟨span, ns, hroot⟩ := root_ofText limits source
  have hsound := sound_ofText limits source
  rw [hroot] at hsound
  have hplain := hsound.root.admits_plain (by simp [Node.inner]) (by simp [Node.inner])
    (by simp [Node.inner])
  have hencloses : ∀ c ∈ ns, Role.plain.Encloses [(0, true)] c :=
    hsound.root.encloses (by simp [Node.inner]) (by simp)
  have hbooks : Books [(0, true)] ns (eventsOfStatements ns []) := .statements fun c hc =>
    books (hsound.children c hc) (hplain c hc) (hencloses c hc)
  have hchildren : (Node.inner .program span ns).children = [] ++ ns := rfl
  have hbooked := hbooks (.outermost (.inner .program span ns))
  rw [eventsOfProgram, hroot, Node.walked, Node.walk_of_opens_some rfl hchildren, size_eq]
  rwa [Nat.add_comm] at hbooked

end Analysis

namespace Reading

open Analysis

/-- In every text, the unused variables that are found are the variables that its walk leaves
unused, each once, where they are bound first. -/
theorem unused_perm_leftUnused (limits : Limits) (source : List Char) :
    ∃ unused : List ((ℕ × String) × Position), (unused.map Prod.fst).Nodup ∧
      (∀ x, x ∈ unused ↔ LeftUnused (ofText limits source).tree.root.walked x.1 x.2) ∧
      ((ofText limits source).findings.filter (·.isUnusedVariable)).Perm
        (unused.map fun x => ⟨.unusedVariable x.1.2, x.2⟩) := by
  obtain ⟨unused, hnodup, hmem, hperm⟩ := (booked_ofText limits source).found
  have htokens : (tokenFindings (ofText limits source).tree.errorSpans
      (ofText limits source).stream.tokens).filter (·.isUnusedVariable) = [] := by
    refine List.filter_eq_nil_iff.mpr fun f hf hunused => ?_
    have hcause := isOfToken_of_mem_tokenFindings f hf
    unfold Finding.isUnusedVariable at hunused
    split at hunused
    · rename_i hkind
      simp [hkind, Finding.Cause.isOfToken] at hcause
    · simp at hunused
  refine ⟨unused, hnodup, fun x => ?_, ?_⟩
  · rw [hmem]
    -- The program is the only scope left, and its variables do not count.
    refine and_iff_left_of_imp fun hx => ?_
    simpa using hx.inner
  · rw [findings, Analysis.findings, List.filter_append, htokens, List.append_nil, treeFindings,
      List.filter_reverse]
    exact (List.reverse_perm _).trans hperm

end Reading

end RubyCheck
