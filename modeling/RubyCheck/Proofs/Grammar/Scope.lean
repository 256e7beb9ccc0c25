import RubyCheck.Proofs.Grammar.Reads

/-!
# Which names are variables

While reading goes on, the names in the scopes around agree with what the tree says so far
(`Agrees`): a name is a local variable exactly if a node that makes a variable of that name was read
before and can be seen.  Every rule of reading keeps that as long as no fault is found, and says of
each bare name that it is a variable exactly then.
-/

namespace RubyCheck.Grammar

open Node

variable {ds ds' : List (ℕ × String)} {scopes scopes' : List LocalScope} {around : Scopes}
  {place place' : ℕ} {name : String} {n : Node} {ns ms : List Node} {closed : Bool}
  {s s' : State}

/-! ### Scopes of the reader and scopes of the tree -/

/-- From inside every scope the same names can be seen in the scopes of the reader and among the
variables of the tree. -/
inductive Tracks (ds : List (ℕ × String)) : List LocalScope → Scopes → Prop
  | nil : Tracks ds [] []
  | cons {scope : LocalScope} {scopes : List LocalScope} {place : ℕ} {around : Scopes} :
      (∀ name, State.visibleIn name (scope :: scopes) = true ↔
        Declared ds ((place, scope.closed) :: around) name) →
      Tracks ds scopes around → Tracks ds (scope :: scopes) ((place, scope.closed) :: around)

namespace Tracks

lemma visibleIn (h : Tracks ds scopes around) (name : String) :
    State.visibleIn name scopes = true ↔ Declared ds around name := by
  cases h with
  | nil => simp [State.visibleIn, Declared, visible]
  | cons hnames _ => exact hnames name

/-- Variables of other scopes do not matter. -/
lemma congr (h : Tracks ds scopes around)
    (hds : ∀ scope ∈ around, ∀ name, (scope.1, name) ∈ ds' ↔ (scope.1, name) ∈ ds) :
    Tracks ds' scopes around := by
  induction h with
  | nil => exact .nil
  | cons hnames h ih =>
    refine .cons (fun name => (hnames name).trans ?_) (ih (List.forall_mem_cons.mp hds).2)
    refine exists_congr fun opener => and_congr_right fun hvisible => ?_
    obtain ⟨scope, hscope, rfl⟩ := visible_subset hvisible
    exact (hds scope hscope name).symm

/-- A variable of the innermost scope makes its name one that can be seen there, and changes nothing
for the scopes around. -/
lemma declared {scope scope' : LocalScope} {opener : ℕ}
    (h : Tracks ds (scope :: scopes) ((opener, scope.closed) :: around))
    (hopener : ∀ outer ∈ around, outer.1 ≠ opener) (hclosed : scope'.closed = scope.closed)
    (hnames : ∀ name', State.visibleIn name' (scope' :: scopes) = true ↔
      State.visibleIn name' (scope :: scopes) = true ∨ name' = name) :
    Tracks (ds ++ [(opener, name)]) (scope' :: scopes) ((opener, scope.closed) :: around) := by
  have hnew : ∀ name', Declared [(opener, name)] ((opener, scope.closed) :: around) name' ↔
      name' = name := by
    intro name'
    constructor
    · rintro ⟨opener', -, hname⟩
      exact (Prod.ext_iff.mp (List.mem_singleton.mp hname)).2
    · rintro rfl
      exact declared_cons.mpr (.inl (List.mem_singleton_self _))
  cases h with
  | cons hold h =>
    rw [← hclosed]
    refine .cons (fun name' => ?_) (h.congr fun outer houter name' => ?_)
    · rw [hclosed, hnames, hold, declared_append, hnew]
    · rw [List.mem_append, List.mem_singleton, Prod.ext_iff]
      exact or_iff_left fun hname => hopener outer houter hname.1

end Tracks

/-- The scopes of the reader agree with the scopes around the place of the tree where the next node
will stand, and with the variables made before it. -/
structure Agrees (ds : List (ℕ × String)) (scopes : List LocalScope) (around : Scopes)
    (place : ℕ) : Prop where
  tracks : Tracks ds scopes around
  /-- Scopes further in were opened later. -/
  nested : around.Pairwise fun inner outer => outer.1 < inner.1
  opened : ∀ scope ∈ around, scope.1 < place
  declared : ∀ d ∈ ds, d.1 < place

/-- What was read agrees with the tree: its bare names are resolved, and so will be what is read
next. -/
structure Told (ds : List (ℕ × String)) (around : Scopes) (place : ℕ) (ns : List Node)
    (scopes : List LocalScope) : Prop where
  resolved : Resolved ds (situateAll around place ns)
  agrees : Agrees (ds ++ declarations (situateAll around place ns)) scopes around
    (place + sizeEach ns)

namespace Agrees

lemma isLocal (h : Agrees ds s.scopes around place) (name : String) :
    s.isLocal name = true ↔ Declared ds around name := h.tracks.visibleIn name

lemma later (h : Agrees ds scopes around place) (hplace : place ≤ place') :
    Agrees ds scopes around place' where
  tracks := h.tracks
  nested := h.nested
  opened scope hscope := Nat.lt_of_lt_of_le (h.opened scope hscope) hplace
  declared d hd := Nat.lt_of_lt_of_le (h.declared d hd) hplace

/-- Inside a program nothing was read so far. -/
lemma outermost : Agrees [] [⟨[], true⟩] [(0, true)] 1 := by
  refine ⟨.cons (fun name => ?_) .nil, ?_, ?_, ?_⟩
  · simp [State.visibleIn, Declared]
  · simp
  · simp
  · simp

/-- No node was read. -/
lemma nothing (h : Agrees ds scopes around place) : Told ds around place [] scopes where
  resolved := .nil
  agrees := by simpa [declarations, sizeEach] using h

/-- A new scope, opened by a node that stands in front of what was read last. -/
lemma enter (h : Agrees ds scopes around place)
    (h' : Agrees (ds ++ declarations (situateAll around (place + 1) ns)) scopes' around
      (place + 1 + sizeEach ns)) (closed : Bool) :
    Agrees (ds ++ declarations (situateAll around (place + 1) ns)) (⟨[], closed⟩ :: scopes')
      ((place, closed) :: around) (place + 1 + sizeEach ns) where
  tracks := by
    refine .cons (fun name => ?_) h'.tracks
    have hnone : (place, name) ∉ ds ++ declarations (situateAll around (place + 1) ns) := by
      intro hname
      rcases List.mem_append.mp hname with hname | hname
      · exact Nat.lt_irrefl _ (h.declared _ hname)
      · obtain ⟨p, hp, -, -, scope, hscope, hplace⟩ := mem_declarations.mp hname
        have hbelow (hhead : scope ∈ around.head?) : scope.1 < place :=
          h.opened scope (List.mem_of_mem_head? hhead)
        rcases head?_of_mem_situateEach ns p hp scope hscope with hhead | hhead | hin
        · exact Nat.ne_of_lt (hbelow hhead) hplace
        · exact Nat.ne_of_lt (hbelow hhead) hplace
        · omega
    rw [declared_cons, or_iff_right hnone, ← h'.tracks.visibleIn name]
    simp [State.visibleIn]
  nested := List.pairwise_cons.mpr ⟨h.opened, h'.nested⟩
  opened := List.forall_mem_cons.mpr ⟨by omega, h'.opened⟩
  declared := h'.declared

lemma leave {scope : ℕ × Bool} (h : Agrees ds scopes (scope :: around) place) :
    Agrees ds scopes.tail around place where
  tracks := by
    cases h.tracks with
    | cons _ h => exact h
  nested := (List.pairwise_cons.mp h.nested).2
  opened := (List.forall_mem_cons.mp h.opened).2
  declared := h.declared

/-- A node that makes no variable was passed. -/
lemma skip (h : Agrees ds scopes around place) (hn : n.declares = false) :
    Agrees (ds ++ declarations [(around, n)]) scopes around place := by
  rwa [declarations_of_not hn, List.append_nil]

/-- A node that makes a variable was passed, and the innermost scope knows its name now. -/
lemma made {scope scope' : LocalScope} (h : Agrees ds (scope :: scopes) around place)
    (hn : n.declares = true) (hclosed : scope'.closed = scope.closed)
    (hnames : ∀ name, State.visibleIn name (scope' :: scopes) = true ↔
      State.visibleIn name (scope :: scopes) = true ∨ name = n.name) :
    Agrees (ds ++ declarations [(around, n)]) (scope' :: scopes) around place := by
  obtain ⟨htracks, hnested, hopened, hdeclared⟩ := h
  cases htracks with
  | @cons _ _ opener around hold hrest =>
    have hnew : declarations [((opener, scope.closed) :: around, n)] = [(opener, n.name)] := by
      simp [declarations, declaration, hn]
    have houter := (List.pairwise_cons.mp hnested).1
    have hopener := (List.forall_mem_cons.mp hopened).1
    rw [hnew]
    refine ⟨?_, hnested, hopened, ?_⟩
    · exact (Tracks.cons hold hrest).declared (fun outer ho => Nat.ne_of_lt (houter outer ho))
        hclosed hnames
    · exact List.forall_mem_append.mpr ⟨hdeclared, List.forall_mem_singleton.mpr hopener⟩

/-- Outside all scopes nothing is made a variable. -/
lemma outside (h : Agrees ds [] around place) (n : Node) :
    Agrees (ds ++ declarations [(around, n)]) [] around place := by
  have hnone : declarations [(around, n)] = [] := by
    cases h.tracks with
    | nil => simp [declarations, declaration]
  rwa [hnone, List.append_nil]

/-- A node was passed whose name was made a variable. -/
lemma declare (h : Agrees ds s.scopes around place) (hn : n.declares = true) :
    Agrees (ds ++ declarations [(around, n)]) (s.declare n.name).scopes around place := by
  unfold State.declare
  cases hscopes : s.scopes with
  | nil =>
    rw [hscopes] at h
    dsimp only
    rw [hscopes]
    exact h.outside n
  | cons scope scopes =>
    rw [hscopes] at h
    dsimp only
    split
    · rename_i hcontains
      rw [hscopes]
      refine h.made hn rfl fun name => (or_iff_left_of_imp ?_).symm
      rintro rfl
      rw [State.visibleIn, hcontains, Bool.true_or]
    · refine h.made hn rfl fun name => ?_
      simp only [State.visibleIn, List.contains_cons, Bool.or_eq_true, beq_iff_eq]
      tauto

/-- A node was passed whose name was a variable before. -/
lemma known (h : Agrees ds scopes around place) (hn : n.declares = true)
    (hknown : Declared ds around n.name) :
    Agrees (ds ++ declarations [(around, n)]) scopes around place := by
  cases scopes with
  | nil => exact h.outside n
  | cons scope scopes =>
    refine h.made hn rfl fun name => (or_iff_left_of_imp ?_).symm
    rintro rfl
    exact (h.tracks.visibleIn _).mpr hknown

end Agrees

namespace Told

/-- What is read next, behind what was read before. -/
lemma append (h : Told ds around place ns scopes)
    (h' : Told (ds ++ declarations (situateAll around place ns)) around (place + sizeEach ns) ms
      scopes') : Told ds around place (ns ++ ms) scopes' where
  resolved := by
    rw [situateAll_append]
    exact h.resolved.append h'.resolved
  agrees := by
    rw [situateAll_append, declarations_append, sizeEach_append, ← List.append_assoc,
      ← Nat.add_assoc]
    exact h'.agrees

/-- A node that opens no scope, with its children. -/
lemma node (hopens : n.opens = none)
    (hname : n.isBareName = true → (n.kind = .localVariable ↔ Declared ds around n.name))
    (h : Told (ds ++ declarations [(around, n)]) around (place + 1) n.children scopes) :
    Told ds around place [n] scopes where
  resolved := by
    rw [situateAll_one, situate_of_opens_none hopens]
    exact .cons hname h.resolved
  agrees := by
    rw [situateAll_one, situate_of_opens_none hopens, declarations_cons, ← List.append_assoc,
      sizeEach_one, ← Nat.add_assoc]
    exact h.agrees

/-- A node that has nothing to do with variables by itself. -/
lemma inert (hn : n.isInert = true) (h : Told ds around (place + 1) n.children scopes) :
    Told ds around place [n] scopes := by
  obtain ⟨⟨⟨hname, hdeclares⟩, hopens⟩, -⟩ : ((n.isBareName = false ∧ n.declares = false) ∧
      n.opens = none) ∧ n.assignsNoParameter = true := by
    simpa [isInert] using hn
  refine .node hopens (fun h => by simp [hname] at h) ?_
  rwa [declarations_of_not hdeclares, List.append_nil]

/-- A node without children. -/
lemma leaf (hopens : n.opens = none) (hleaf : n.children = [])
    (hname : n.isBareName = true → (n.kind = .localVariable ↔ Declared ds around n.name))
    (h : Agrees (ds ++ declarations [(around, n)]) scopes around (place + 1)) :
    Told ds around place [n] scopes := by
  refine .node hopens hname ?_
  rw [hleaf]
  exact h.nothing

/-- A node without children that has nothing to do with variables. -/
lemma inertLeaf (hn : n.isInert = true) (hleaf : n.children = [])
    (h : Agrees ds scopes around place) : Told ds around place [n] scopes := by
  refine .inert hn ?_
  rw [hleaf]
  exact (h.later (Nat.le_succ place)).nothing

/-- No node was read. -/
lemma of_nil (h : Told ds around place [] scopes) : Agrees ds scopes around place := by
  simpa [declarations, sizeEach] using h.agrees

/-- A bare name is a variable exactly if the reader takes it for one. -/
lemma bareName (h : Agrees ds s.scopes around place)
    (hkind : n.kind = if s.isLocal n.name = true then .localVariable else .call)
    (hleaf : n.children = []) : Told ds around place [n] s.scopes := by
  have hnames := h.isLocal n.name
  cases hlocal : s.isLocal n.name with
  | true =>
    rw [hlocal, if_pos rfl] at hkind
    refine .leaf (by simp [opens, hkind]) hleaf (fun _ => iff_of_true hkind (hnames.mp hlocal)) ?_
    exact (h.skip (by simp [declares, hkind])).later (Nat.le_succ place)
  | false =>
    rw [hlocal, if_neg (by simp)] at hkind
    refine .leaf (by simp [opens, hkind]) hleaf (fun _ => ?_) ?_
    · refine iff_of_false (by simp [hkind]) fun hname => ?_
      simp [hlocal] at hnames
      exact hnames hname
    · exact (h.skip (by simp [declares, hkind])).later (Nat.le_succ place)

/-- What is told of one node that neither opens a scope nor makes a variable. -/
lemma of_node (hopens : n.opens = none) (hdeclares : n.declares = false)
    (h : Told ds around place [n] scopes) :
    (n.isBareName = true → (n.kind = .localVariable ↔ Declared ds around n.name)) ∧
      Told ds around (place + 1) n.children scopes := by
  obtain ⟨hresolved, hagrees⟩ := h
  rw [situateAll_one, situate_of_opens_none hopens] at hresolved hagrees
  rw [declarations_cons, declarations_of_not hdeclares, List.nil_append, sizeEach_one,
    ← Nat.add_assoc] at hagrees
  cases hresolved with
  | cons hname hresolved =>
    rw [declarations_of_not hdeclares, List.append_nil] at hresolved
    exact ⟨hname, hresolved, hagrees⟩

/-- A node that opens a scope for the last of its children. -/
lemma scope {outer inner : List Node} (hopens : n.opens = some (closed, outer.length))
    (hchildren : n.children = outer ++ inner)
    (houter : Told ds around (place + 1) outer scopes)
    (hinner : Told (ds ++ declarations (situateAll around (place + 1) outer))
      ((place, closed) :: around) (place + 1 + sizeEach outer) inner scopes') :
    Told ds around place [n] scopes'.tail := by
  have hkind : n.declares = false ∧ n.isBareName = false := by
    unfold opens at hopens
    split at hopens
    all_goals simp_all [declares, isBareName]
  have hnode : declarations [(around, n)] = [] := declarations_of_not hkind.1
  have hsize : place + sizeEach [n] = place + 1 + sizeEach outer + sizeEach inner := by
    rw [sizeEach_one, hchildren, sizeEach_append, ← Nat.add_assoc, ← Nat.add_assoc]
  constructor
  · rw [situateAll_one, situate_of_opens_some hopens hchildren]
    refine .cons (fun hname => by simp [hkind.2] at hname) ?_
    rw [hnode, List.append_nil]
    exact houter.resolved.append hinner.resolved
  · rw [situateAll_one, situate_of_opens_some hopens hchildren, declarations_cons, hnode,
      List.nil_append, declarations_append, ← List.append_assoc, hsize]
    exact hinner.agrees.leave

end Told

/-! ### Reading -/

namespace State

/-- A report leaves a fault behind. -/
lemma faults_report_ne (s : State) (f : Fault) : (s.report f).faults ≠ #[] := by
  unfold State.report
  split
  · rename_i hgaveUp
    intro hfaults
    have hmax : s.limits.maxFaults ≤ s.faults.size := of_decide_eq_true hgaveUp
    rw [hfaults] at hmax
    exact absurd s.limits.faults_pos (Nat.not_lt_of_le hmax)
  · simp only
    split
    · simp
    · simp

end State

/-- While no fault is found, none was found before. -/
lemma Passes.faults_eq (h : Passes s s') (hok : s'.faults = #[]) : s.faults = #[] := by
  induction h with
  | steps _ => exact hok
  | report s f => exact absurd hok (s.faults_report_ne f)
  | declare s name => rwa [s.faults_declare] at hok
  | within c _ ih =>
    rw [c.faults_leave] at hok
    simpa using ih hok
  | inScope _ _ ih => exact ih hok
  | trans _ _ ih ih' => exact ih (ih' hok)

/-- A token whose name, if it has one, can be that of a variable. -/
def Named (t : Token) : Prop := ∀ name, Binds t name → name ≠ "" ∧ name ≠ "..."

/-- The tokens ahead can name variables. -/
abbrev State.Named (s : State) : Prop := ∀ t ∈ s.tape.current :: s.tape.ahead, Grammar.Named t

lemma Passes.named (h : Passes s s') (hs : s.Named) : s'.Named :=
  h.onward (Tape.onward_all Grammar.Named) hs

/-- What is read without a fault agrees with the tree. -/
theorem Reads.told (h : Reads s ns s') (hok : s'.faults = #[]) (hnamed : s.Named)
    (hs : Agrees ds s.scopes around place) : Told ds around place ns s'.scopes := by
  induction h generalizing ds around place with
  | steps _ => exact hs.nothing
  | report s f => exact absurd hok (s.faults_report_ne f)
  | abandon f _ => exact absurd hok (State.faults_report_ne _ f)
  | append h h' ih ih' =>
    have htold := ih (h'.passes.faults_eq hok) hnamed hs
    exact htold.append (ih' hok (h.passes.named hnamed) htold.agrees)
  | within c _ ih =>
    rw [c.faults_leave] at hok
    rw [c.scopes_leave]
    exact ih hok (by rwa [State.Named, c.tape_enter]) (by rwa [c.scopes_enter])
  | error _ _ ih => exact .inertLeaf rfl rfl (ih hok hnamed hs).of_nil
  | leaf k text _ _ hinert _ => exact .inertLeaf hinert rfl hs
  | @use s _ _ hlocal => exact .bareName (s := s) hs (if_pos hlocal).symm rfl
  | @bareCall s _ _ hlocal =>
    exact .bareName (s := s) hs (if_neg (Bool.eq_false_iff.mp hlocal)).symm rfl
  | @shorthand s name _ _ _ =>
    have hsymbol : Told ds around place [.leaf .symbol s.tape.current.span name] s.scopes :=
      .inertLeaf rfl rfl hs
    exact hsymbol.append (.bareName hsymbol.agrees rfl rfl)
  | @parameter s s₁ s₂ name ns hbefore hmore hbinds hdefault _ ih ih' =>
    have hbehind : (s₁.advanced.declare name).Named :=
      (hbefore.passes.trans (.trans (.steps hmore.steps) (.declare _ _))).named hnamed
    have hok₁ : s₁.faults = #[] := by
      have hfaults := hdefault.passes.faults_eq hok
      rwa [State.faults_declare] at hfaults
    have hat : Agrees ds s₁.advanced.scopes around place := (ih hok₁ hnamed hs).of_nil
    obtain ⟨hempty, hrest⟩ := hbefore.passes.named hnamed _ List.mem_cons_self name hbinds
    have hdeclares :
        ((Node.inner .parameter (s₂.spanFrom s.start) ns).withText name).declares = true := by
      simp [declares, withText, Node.inner, Node.name, hempty, hrest]
    refine .node rfl (fun h => by simp [isBareName, withText, Node.inner] at h) ?_
    exact ih' hok hbehind ((hat.declare hdeclares).later (Nat.le_succ place))
  | @blockLocal s _ _ =>
    refine .leaf rfl rfl (fun h => by simp [isBareName, Node.leaf] at h) ?_
    exact (Agrees.declare (s := s.advanced) hs rfl).later (Nat.le_succ place)
  | @retarget s s' n h hkind ih =>
    have hleaf : n.children = [] :=
      (h.laidOut n (List.mem_singleton_self n)).root.children_eq_nil (by rw [hkind]; rfl)
    obtain ⟨hname, htold⟩ :=
      (ih hok hnamed hs).of_node (by simp [opens, hkind]) (by simp [declares, hkind])
    have hknown := (hname (by simp [isBareName, hkind])).mp hkind
    rw [hleaf] at htold
    refine .leaf rfl hleaf (fun h => by simp [isBareName] at h) ?_
    exact htold.of_nil.known rfl hknown
  | @target s s' n h hkind hleaf ih =>
    rw [s'.faults_declare] at hok
    obtain ⟨-, htold⟩ :=
      (ih hok hnamed hs).of_node (by simp [opens, hkind]) (by simp [declares, hkind])
    rw [hleaf] at htold
    refine .leaf rfl hleaf (fun h => by simp [isBareName] at h) ?_
    exact htold.of_nil.declare rfl
  | @attach s s' s'' call block h h' hcall _ ih ih' =>
    obtain ⟨hopens, hdeclares, hinert⟩ : call.opens = none ∧ call.declares = false ∧
        (withBlock call block).isInert = true := by
      rcases kind_of_takesBlock hcall with hkind | hkind <;>
        simp [isInert, isBareName, declares, opens, Node.assignsNoParameter, withBlock, hkind]
    obtain ⟨-, htold⟩ := (ih (h'.passes.faults_eq hok) hnamed hs).of_node hopens hdeclares
    exact .inert hinert (htold.append (ih' hok (h.passes.named hnamed) htold.agrees))
  | @close s s' n h _ hkind ih =>
    obtain ⟨-, htold⟩ :=
      (ih hok hnamed hs).of_node (by simp [opens, hkind]) (by simp [declares, hkind])
    refine .inert ?_ htold
    simp [isInert, isBareName, declares, opens, Node.assignsNoParameter, hkind]
  | statements _ _ ih => exact .inert rfl (ih hok hnamed (hs.later (Nat.le_succ place)))
  | node _ _ hinert _ _ ih _ => exact .inert hinert (ih hok hnamed (hs.later (Nat.le_succ place)))
  | @scope s s₁ s₂ s₃ k text outer inner closed houter hinner hbehind _ hopens _ _ ih ih' ih'' _ =>
    have hinside : (s₁.enterScope closed).Named := houter.passes.named hnamed
    have hok₂ : s₂.faults = #[] := hbehind.passes.faults_eq hok
    have hbefore := ih (hinner.passes.faults_eq hok₂) hnamed (hs.later (Nat.le_succ place))
    have hscope := ih' hok₂ hinside (hs.enter hbefore.agrees closed)
    have htold : Told ds around place [⟨k, s₃.spanFrom s.start, text, outer ++ inner⟩]
        s₂.leaveScope.scopes :=
      .scope hopens rfl hbefore hscope
    have houtside : s₂.leaveScope.Named := hinner.passes.named hinside
    exact ⟨htold.resolved, (ih'' hok houtside htold.agrees).of_nil⟩

end RubyCheck.Grammar
