import RubyCheck.Proofs.Analysis.Event
import RubyCheck.Proofs.Grammar.Scope

/-!
# A walk and the scopes of the tree

While a tree is walked, the names of the open frames agree with the variables that the nodes
visited so far make in the scopes of the tree (`Agrees`), just as the names did while the tree was
read.  One thing is different: a parameter is bound behind its default value, although it stands in
front of it.  So in front of a node only the settled nodes have made their variables.

`Heard` says of the events of some nodes that the uses among them are the visits of the nodes that
use variables, one after another, and which names are seen then.  `Followed` adds that the names
agree again behind the events; there is one rule for each thing a node does, and every tree that is
read without faults is followed so.
-/

namespace RubyCheck.Grammar

open Node

variable {ds ds' : List (ℕ × String)} {around : Scopes} {place : ℕ} {n : Node}
  {scopes : List LocalScope} {stack : ScopeStack}

/-! ### Names while a tree is walked -/

lemma Tracks.length_eq (h : Tracks ds scopes around) : scopes.length = around.length := by
  induction h with
  | nil => rfl
  | cons _ _ ih => rw [List.length_cons, List.length_cons, ih]

namespace Agrees

/-- Whatever variables agree, they do so in any order. -/
lemma congr (h : Agrees ds scopes around place) (hds : ∀ d, d ∈ ds' ↔ d ∈ ds) :
    Agrees ds' scopes around place where
  tracks := h.tracks.congr fun scope _ name => hds (scope.1, name)
  nested := h.nested
  opened := h.opened
  declared d hd := h.declared d ((hds d).mp hd)

/-- A variable is added to the innermost frame. -/
lemma add (stack : ScopeStack) {v : Variable} (h : Agrees ds stack.localScopes around place)
    (hn : n.declares = true) :
    Agrees (ds ++ declarations [(around, n)]) (stack.add n.name v).localScopes around place :=
  h.made hn Frame.closed_add fun _ => Frame.visibleIn_add

/-- A variable is assigned. -/
lemma write (stack : ScopeStack) {at_ : Position}
    (h : Agrees ds stack.localScopes around place) (hn : n.declares = true) :
    Agrees (ds ++ declarations [(around, n)]) (stack.write n.name at_).localScopes around
      place := by
  cases hsees : stack.sees n.name with
  | true =>
    rw [ScopeStack.localScopes_write hsees]
    rw [ScopeStack.sees_eq] at hsees
    exact h.known hn ((h.tracks.visibleIn _).mp hsees)
  | false =>
    rw [ScopeStack.write_of_not_sees hsees]
    exact h.add stack hn

/-- Some frame is always open. -/
lemma length_pos (h : Agrees ds stack.localScopes around place) : 0 < around.length := by
  rw [← h.tracks.length_eq]
  exact Nat.succ_pos _

end Agrees

end RubyCheck.Grammar

namespace RubyCheck.Analysis

open Node Grammar

variable {ds : List (ℕ × String)} {around : Scopes} {place : ℕ} {n c : Node} {ns ms : List Node}
  {p : Scopes × Node} {ps qs : List (Scopes × Node)} {s : State} {es es' : List Event}
  {name : String}

/-! ### Uses -/

/-- Whether a node is a use of a variable. -/
def isVariable (p : Scopes × Node) : Bool := p.2.kind == .localVariable

/-- A use of a name, behind some events that begin in some state, is the visit of one of some nodes,
and the name is seen if the nodes in front of that one made it a variable there. -/
def Visits (ds : List (ℕ × String)) (ps : List (Scopes × Node)) (s : State) (es : List Event)
    (name : String) : Prop :=
  ∃ before around n after, ps = before ++ (around, n) :: after ∧ n.kind = .localVariable ∧
    n.name = name ∧ es.countP Event.isUse = before.countP isVariable ∧
    ((s.run es).scopes.sees name = true ↔
      Declared (ds ++ declarations (settled before)) around name)

/-- The uses among some events are the visits of the nodes that use variables, in order. -/
structure Heard (ds : List (ℕ × String)) (ps : List (Scopes × Node)) (s : State)
    (es : List Event) : Prop where
  count : es.countP Event.isUse = ps.countP isVariable
  each {es₁ es₂ : List Event} {name : String} : es = es₁ ++ .use name :: es₂ →
    Visits ds ps s es₁ name

namespace Heard

/-- No node is visited. -/
lemma of_no_use (h : ∀ e ∈ es, e.isUse = false) : Heard ds [] s es where
  count := by simpa using h
  each := by
    rintro es₁ es₂ name rfl
    simpa [Event.isUse] using h (.use name)

/-- One thing behind another. -/
lemma append (hcomplete : ∀ qs, settled (ps ++ qs) = ps ++ settled qs) (h : Heard ds ps s es)
    (h' : Heard (ds ++ declarations ps) qs (s.run es) es') : Heard ds (ps ++ qs) s (es ++ es') where
  count := by rw [List.countP_append, List.countP_append, h.count, h'.count]
  each := by
    intro es₁ es₂ name heq
    -- A use among the later events.
    have hlater (t : List Event) (hes' : es' = t ++ .use name :: es₂) :
        Visits ds (ps ++ qs) s (es ++ t) name := by
      obtain ⟨before, around, n, after, rfl, hkind, hname, hcount, hsees⟩ := h'.each hes'
      refine ⟨ps ++ before, around, n, after, by simp, hkind, hname, ?_, ?_⟩
      · rw [List.countP_append, List.countP_append, h.count, hcount]
      · rw [State.run_append, hsees, hcomplete, declarations_append, List.append_assoc]
    rcases List.append_eq_append_iff.mp heq with ⟨t, rfl, hes'⟩ | ⟨t, rfl, hes'⟩
    · exact hlater t hes'
    · cases t with
      | nil => simpa using hlater [] hes'.symm
      | cons e t =>
        obtain ⟨rfl, -⟩ := List.cons.inj hes'
        obtain ⟨before, around, n, after, rfl, hrest⟩ := h.each rfl
        exact ⟨before, around, n, after ++ qs, by simp, hrest⟩

/-- Something in front of and behind the events of some nodes. -/
lemma wrap (es₁ es₂ : List Event) (h₁ : ∀ e ∈ es₁, e.isUse = false)
    (h₂ : ∀ e ∈ es₂, e.isUse = false) (hcomplete : ∀ qs, settled (ps ++ qs) = ps ++ settled qs)
    (h : Heard ds ps (s.run es₁) es) : Heard ds ps s (es₁ ++ es ++ es₂) := by
  have hfront : Heard ds ps s (es₁ ++ es) := by
    refine (of_no_use h₁).append (fun _ => rfl) ?_
    rwa [declarations_nil, List.append_nil]
  have hall := hfront.append hcomplete (of_no_use h₂)
  rwa [List.append_nil] at hall

/-- A node that is neither a use of a variable nor a parameter. -/
lemma cons (hvariable : p.2.kind ≠ .localVariable) (hparameter : p.2.kind ≠ .parameter)
    (h : Heard (ds ++ declarations [p]) ps s es) : Heard ds (p :: ps) s es where
  count := by simpa [isVariable, hvariable] using h.count
  each := by
    intro es₁ es₂ name heq
    obtain ⟨before, around, n, after, rfl, hkind, hname, hcount, hsees⟩ := h.each heq
    refine ⟨p :: before, around, n, after, rfl, hkind, hname, ?_, ?_⟩
    · simpa [isVariable, hvariable] using hcount
    · have hfirst : declarations (p :: settled before) =
          declarations [p] ++ declarations (settled before) := declarations_cons
      rw [hsees, settled_cons_of_ne hparameter, hfirst, List.append_assoc]

/-- A parameter is not bound while its default value is visited. -/
lemma parameter (hkind : p.2.kind = .parameter) (hsize : ps.length + 1 = p.2.size)
    (h : Heard ds ps s es) : Heard ds (p :: ps) s es where
  count := by simpa [isVariable, hkind] using h.count
  each := by
    intro es₁ es₂ name heq
    obtain ⟨before, around, n, after, rfl, hvariable, hname, hcount, hsees⟩ := h.each heq
    refine ⟨p :: before, around, n, after, rfl, hvariable, hname, ?_, ?_⟩
    · simpa [isVariable, hkind] using hcount
    · rw [hsees, settled_cons_of_lt hkind]
      rw [← hsize, List.length_append, List.length_cons]
      omega

/-- The visit of a use. -/
lemma use (hkind : n.kind = .localVariable)
    (hsees : s.scopes.sees n.name = true ↔ Declared ds around n.name) :
    Heard ds [(around, n)] s [.use n.name] where
  count := by simp [isVariable, hkind, Event.isUse]
  each := by
    intro es₁ es₂ name heq
    cases es₁ with
    | nil =>
      obtain ⟨hname, -⟩ := List.cons.inj heq
      obtain rfl := Event.use.inj hname
      refine ⟨[], around, n, [], rfl, hkind, rfl, rfl, ?_⟩
      rw [settled, declarations_nil, List.append_nil]
      exact hsees
    | cons e es₁ => simp at heq

end Heard

/-! ### Trees -/

/-- The events of some trees are heard, and behind them the names agree again. -/
structure Followed (ds : List (ℕ × String)) (around : Scopes) (place : ℕ) (ns : List Node)
    (s : State) (es : List Event) : Prop where
  heard : Heard ds (situateAll around place ns) s es
  agrees : Agrees (ds ++ declarations (situateAll around place ns)) (s.run es).names around
    (place + sizeEach ns)

namespace Followed

/-- No node is visited, and nothing happens to the names. -/
lemma silent (hs : Agrees ds s.names around place) (h : ∀ e ∈ es, e.isSilent = true) :
    Followed ds around place [] s es where
  heard := .of_no_use fun e he => Event.isUse_of_isSilent (h e he)
  agrees := by
    rw [State.names_run_of_isSilent h]
    simpa [declarations, sizeEach] using hs

lemma nothing (hs : Agrees ds s.names around place) : Followed ds around place [] s [] :=
  silent hs (by simp)

/-- One tree behind another. -/
lemma append (h : Followed ds around place ns s es)
    (h' : Followed (ds ++ declarations (situateAll around place ns)) around (place + sizeEach ns) ms
      (s.run es) es') : Followed ds around place (ns ++ ms) s (es ++ es') where
  heard := by
    rw [situateAll_append]
    exact h.heard.append (fun qs => settled_situateEach qs ns) h'.heard
  agrees := by
    rw [situateAll_append, declarations_append, sizeEach_append, State.run_append,
      ← List.append_assoc, ← Nat.add_assoc]
    exact h'.agrees

/-- Something silent in front of trees. -/
lemma behind (hs : Agrees ds s.names around place) (hsilent : ∀ e ∈ es, e.isSilent = true)
    (h : Followed ds around place ns (s.run es) es') :
    Followed ds around place ns s (es ++ es') := by
  refine (silent hs hsilent).append ?_
  simpa [declarations, sizeEach] using h

/-- A node that opens no scope, with its children. -/
lemma node (hopens : n.opens = none) (hvariable : n.kind ≠ .localVariable)
    (hparameter : n.kind ≠ .parameter)
    (h : Followed (ds ++ declarations [(around, n)]) around (place + 1) n.children s es) :
    Followed ds around place [n] s es where
  heard := by
    rw [situateAll_one, situate_of_opens_none hopens]
    exact .cons hvariable hparameter h.heard
  agrees := by
    rw [situateAll_one, situate_of_opens_none hopens, declarations_cons, ← List.append_assoc,
      sizeEach_one, ← Nat.add_assoc]
    exact h.agrees

/-- A node that opens no scope and makes no variable is followed as its children are. -/
lemma inert (hopens : n.opens = none) (hdeclares : n.declares = false)
    (hvariable : n.kind ≠ .localVariable) (hparameter : n.kind ≠ .parameter)
    (h : Followed ds around (place + 1) n.children s es) : Followed ds around place [n] s es := by
  refine .node hopens hvariable hparameter ?_
  rwa [declarations_of_not hdeclares, List.append_nil]

/-- A use of a variable. -/
lemma use (hs : Agrees ds s.names around place) (hkind : n.kind = .localVariable)
    (hleaf : n.children = []) : Followed ds around place [n] s [.use n.name] := by
  have hsituate : situateAll around place [n] = [(around, n)] := by
    rw [situateAll_one, situate_of_opens_none (by simp [opens, hkind]), hleaf, situateAll_nil]
  have hnone : declarations [(around, n)] = [] := declarations_of_not (by simp [declares, hkind])
  constructor
  · rw [hsituate]
    refine .use hkind ?_
    rw [ScopeStack.sees_eq]
    exact hs.tracks.visibleIn n.name
  · rw [hsituate, hnone, List.append_nil]
    change Agrees ds (s.step (.use n.name)).names around _
    rw [State.names_use]
    exact hs.later (Nat.le_add_right _ _)

/-- A node without children that makes a variable. -/
lemma leaf {e : Event} (hopens : n.opens = none) (hvariable : n.kind ≠ .localVariable)
    (hparameter : n.kind ≠ .parameter) (hleaf : n.children = []) (huse : e.isUse = false)
    (h : Agrees (ds ++ declarations [(around, n)]) (s.step e).names around place) :
    Followed ds around place [n] s [e] := by
  refine .node hopens hvariable hparameter ⟨?_, ?_⟩
  · rw [hleaf]
    exact .of_no_use (by simpa using huse)
  · rw [hleaf, situateAll_nil, declarations_nil, List.append_nil]
    exact h.later (Nat.le_succ place)

/-- A parameter, which is bound behind its default value. -/
lemma parameter (hkind : n.kind = .parameter) (huse : ∀ e ∈ es', e.isUse = false)
    (h : Followed ds around (place + 1) n.children s es)
    (hbound : Agrees (ds ++ declarations (situateAll around (place + 1) n.children) ++
        declarations [(around, n)]) ((s.run es).run es').names around
      (place + 1 + sizeEach n.children)) :
    Followed ds around place [n] s (es ++ es') := by
  have hsituate : situateAll around place [n] =
      (around, n) :: situateAll around (place + 1) n.children := by
    rw [situateAll_one, situate_of_opens_none (by simp [opens, hkind])]
  constructor
  · have hsize : (situateAll around (place + 1) n.children).length + 1 = n.size := by
      rw [situateAll, length_situateEach, size_eq]
    have hbehind := h.heard.append (fun qs => settled_situateEach qs n.children)
      (Heard.of_no_use huse)
    rw [List.append_nil] at hbehind
    rw [hsituate]
    exact .parameter hkind hsize hbehind
  · rw [hsituate, State.run_append, sizeEach_one, ← Nat.add_assoc]
    refine hbound.congr fun d => ?_
    rw [declarations_cons]
    simp only [List.mem_append]
    tauto

/-- A node that opens a frame for the last of its children. -/
lemma scope (outer inner : List Node) {closed : Bool} {kind : FrameKind}
    (hs : Agrees ds s.names around place) (hopens : n.opens = some (closed, outer.length))
    (hchildren : n.children = outer ++ inner) (hkind : (kind != .block) = closed)
    (houter : Followed ds around (place + 1) outer s es)
    (hinner : ∀ s', Agrees (ds ++ declarations (situateAll around (place + 1) outer)) s'.names
        ((place, closed) :: around) (place + 1 + sizeEach outer) →
      Followed (ds ++ declarations (situateAll around (place + 1) outer))
        ((place, closed) :: around) (place + 1 + sizeEach outer) inner s' es') :
    Followed ds around place [n] s (es ++ (.enter kind :: es' ++ [.leave])) := by
  obtain ⟨hvariable, hparameter, hdeclares⟩ : n.kind ≠ .localVariable ∧ n.kind ≠ .parameter ∧
      n.declares = false := by
    unfold opens at hopens
    split at hopens
    all_goals simp_all [declares]
  have hnode : declarations [(around, n)] = [] := declarations_of_not hdeclares
  have hopened := hs.enter houter.agrees closed
  rw [← hkind, ← State.names_enter, hkind] at hopened
  set s₁ := (s.run es).step (.enter kind)
  have hin := hinner s₁ hopened
  have hsituate : situateAll around place [n] = (around, n) ::
      (situateAll around (place + 1) outer ++
        situateAll ((place, closed) :: around) (place + 1 + sizeEach outer) inner) := by
    rw [situateAll_one, situate_of_opens_some hopens hchildren]
  constructor
  · rw [hsituate]
    refine .cons hvariable hparameter ?_
    rw [hnode, List.append_nil]
    refine houter.heard.append (fun qs => settled_situateEach qs outer) ?_
    exact .wrap [.enter kind] [.leave] (by simp [Event.isUse]) (by simp [Event.isUse])
      (fun qs => settled_situateEach qs inner) hin.heard
  · have hsize : place + sizeEach [n] = place + 1 + sizeEach outer + sizeEach inner := by
      rw [sizeEach_one, hchildren, sizeEach_append, ← Nat.add_assoc, ← Nat.add_assoc]
    have hrun : s.run (es ++ (.enter kind :: es' ++ [.leave])) = (s₁.run es').step .leave := by
      rw [State.run_append, List.cons_append, State.run_cons, State.run_append]
      rfl
    have hlength : 1 < (s₁.run es').names.length := by
      rw [hin.agrees.tracks.length_eq, List.length_cons]
      exact Nat.succ_lt_succ hs.length_pos
    rw [hsituate, hsize, hrun, State.names_leave hlength, declarations_cons, hnode,
      List.nil_append, declarations_append, ← List.append_assoc]
    exact hin.agrees.leave

end Followed

/-! ### Whole trees -/

/-- What a node can be that is come upon in a role. -/
def Role.Admits : Role → Node → Prop
  | .plain, n => n.kind ≠ .program ∧ n.kind ≠ .blockLocal ∧ n.holdsParameter = false
  | .parameter _, n => n.kind ≠ .program

/-- What a node is that is not bound in its role. -/
lemma Role.Admits.of_not {role : Role} (h : role.Admits n)
    (hmulti : ∀ inBlock, role = .parameter inBlock → n.kind ≠ .multiTargets)
    (hparameter : ∀ inBlock, role = .parameter inBlock → n.kind ≠ .parameter)
    (hblockLocal : ∀ inBlock, role = .parameter inBlock → n.kind ≠ .blockLocal) :
    n.kind ≠ .program ∧ n.kind ≠ .blockLocal ∧ n.kind ≠ .parameter ∧
      (n.kind = .multiTargets → n.holdsParameter = false) := by
  cases role with
  | plain =>
    obtain ⟨hprogram, hlocal, hnone⟩ := h
    refine ⟨hprogram, hlocal, fun hkind => ?_, fun _ => hnone⟩
    simp [holdsParameter_eq, hkind] at hnone
  | parameter inBlock =>
    exact ⟨h, hblockLocal inBlock rfl, hparameter inBlock rfl,
      fun hkind => absurd hkind (hmulti inBlock rfl)⟩

/-- A node whose children are what its kind has, and that assigns to no parameter. -/
def Sound (n : Node) : Prop := n.LaidOut ∧ n.assignsNoParameter = true

namespace Sound

lemma ne_program (h : Sound n) (hc : c ∈ n.children) : c.kind ≠ .program := by
  intro hkind
  have hholds := h.1.holds hc
  rw [hkind, NodeKind.not_holds_program] at hholds
  exact Bool.false_ne_true hholds

/-- Children that are not come upon as parameters hold none. -/
lemma holdsParameter_child (h : Sound n) (hparameters : n.kind ≠ .parameters)
    (hblock : n.kind ≠ .blockParameters)
    (htargets : n.kind = .multiTargets → n.holdsParameter = false) (hc : c ∈ n.children) :
    c.holdsParameter = false := by
  by_cases hmulti : n.kind = .multiTargets
  · have hnone := htargets hmulti
    rw [holdsParameter_eq, Bool.or_eq_false_iff, hmulti] at hnone
    simpa using List.any_eq_false.mp hnone.2 c hc
  by_cases hassigns : n.kind = .multipleAssignment ∨ n.kind = .for_
  · have hall : n.children.all (!·.holdsParameter) = true := by
      have hnone := h.2
      unfold assignsNoParameter at hnone
      rcases hassigns with hkind | hkind
      · rwa [hkind] at hnone
      · rwa [hkind] at hnone
    simpa using List.all_eq_true.mp hall c hc
  · have hholds := h.1.holds hc
    rw [holdsParameter_eq, Bool.or_eq_false_iff, Bool.and_eq_false_iff, beq_eq_false_iff_ne,
      beq_eq_false_iff_ne]
    refine ⟨fun hkind => ?_, .inl fun hkind => ?_⟩
    · rw [hkind] at hholds
      rcases NodeKind.of_holds_parameter hholds with hn | hn | hn
      · exact hparameters hn
      · exact hblock hn
      · exact hmulti hn
    · rw [hkind] at hholds
      rcases NodeKind.of_holds_multiTargets hholds with (hn | hn | hn) | hn
      · exact hparameters hn
      · exact hblock hn
      · exact hmulti hn
      · exact hassigns hn

lemma admits_parameter (h : Sound n) (inBlock : Bool) :
    ∀ c ∈ n.children, (Role.parameter inBlock).Admits c :=
  fun _ hc => h.ne_program hc

lemma admits_plain (h : Sound n) (hparameters : n.kind ≠ .parameters)
    (hblock : n.kind ≠ .blockParameters)
    (htargets : n.kind = .multiTargets → n.holdsParameter = false) :
    ∀ c ∈ n.children, Role.plain.Admits c := by
  refine fun c hc => ⟨h.ne_program hc, fun hkind => ?_, ?_⟩
  · refine hblock (NodeKind.of_holds_blockLocal ?_)
    rw [← hkind]
    exact h.1.holds hc
  · exact h.holdsParameter_child hparameters hblock htargets hc

end Sound

/-- Trees that are followed one by one are followed one behind another. -/
lemma Followed.each {role : Role}
    (h : ∀ c ∈ ns, ∀ {ds : List (ℕ × String)} {place : ℕ} {s : State},
      Agrees ds s.names around place → Followed ds around place [c] s (events role c []))
    (hs : Agrees ds s.names around place) :
    Followed ds around place ns s (eventsOfEach role ns []) := by
  induction ns generalizing ds place s with
  | nil => exact .nothing hs
  | cons c ns ih =>
    rw [List.forall_mem_cons] at h
    have hfirst := h.1 hs
    rw [eventsOfEach, events_eq_append]
    exact hfirst.append (ih h.2 hfirst.agrees)

lemma Followed.statements
    (h : ∀ c ∈ ns, ∀ {ds : List (ℕ × String)} {place : ℕ} {s : State},
      Agrees ds s.names around place → Followed ds around place [c] s (events .plain c []))
    (hs : Agrees ds s.names around place) :
    Followed ds around place ns s (eventsOfStatements ns []) := by
  induction ns generalizing ds place s with
  | nil => exact .nothing hs
  | cons c ns ih =>
    rw [List.forall_mem_cons] at h
    cases ns with
    | nil => exact h.1 hs
    | cons c' ns =>
      have hsilent := isSilent_voidStatement c
      have hagrees : Agrees ds (s.run (voidStatement c)).names around place := by
        rwa [State.names_run_of_isSilent hsilent]
      have hfirst : Followed ds around place [c] s (voidStatement c ++ events .plain c []) :=
        .behind hs hsilent (h.1 hagrees)
      rw [eventsOfStatements, events_eq_append, ← List.append_assoc]
      exact hfirst.append (ih h.2 hfirst.agrees)

/-- A node that opens a frame for all of its children. -/
lemma Followed.frame (es : List Event) {closed : Bool} {kind : FrameKind}
    (hs : Agrees ds s.names around place)
    (hopens : n.opens = some (closed, 0)) (hkind : (kind != .block) = closed)
    (hsilent : ∀ e ∈ es, e.isSilent = true)
    (h : ∀ {around place} {s : State}, Agrees ds s.names around place →
      Followed ds around place n.children s (eventsOfEach .plain n.children [])) :
    Followed ds around place [n] s
      (es ++ .enter kind :: eventsOfEach .plain n.children [.leave]) := by
  rw [eventsOfEach_eq_append]
  refine .scope [] n.children hs hopens rfl hkind
    (.silent (hs.later (Nat.le_succ place)) hsilent) fun s' hs' => ?_
  simp only [situateAll_nil, declarations_nil, List.append_nil] at hs' ⊢
  exact h hs'

/-- What a class inherits from is visited in front of its frame. -/
lemma eventsOfClass_eq {outer inner : List Node}
    (houter : outer = [] ∨ ∃ m, outer = [m] ∧ m.kind ≠ .statements)
    (hinner : ∃ body rest, inner = body :: rest ∧ body.kind = .statements) :
    eventsOfClass (outer ++ inner) [] = eventsOfEach .plain outer [] ++
      (.enter .class_ :: eventsOfEach .plain inner [] ++ [.leave]) := by
  obtain ⟨body, rest, rfl, hbody⟩ := hinner
  rcases houter with rfl | ⟨m, rfl, hm⟩
  · rw [List.nil_append, eventsOfClass, if_pos hbody, ← eventsOfEach, eventsOfEach_eq_append]
    rfl
  · rw [List.singleton_append, eventsOfClass, if_neg hm, eventsOfEach_eq_append .plain _ [.leave],
      events_eq_append]
    rfl

/-- A body begins with its statements. -/
lemma exists_body (h : Fits NodeKind.bodyLayout ns) :
    ∃ body rest, ns = body :: rest ∧ body.kind = .statements := by
  cases h with
  | one hbody _ => exact ⟨_, _, rfl, eq_of_beq hbody⟩

/-- A class, whose frame is opened for all but what it inherits from, or whose class it is. -/
lemma Followed.class_ (outer inner : List Node) (hs : Agrees ds s.names around place)
    (hopens : n.opens = some (true, outer.length)) (hchildren : n.children = outer ++ inner)
    (houter : outer = [] ∨ ∃ m, outer = [m] ∧ m.kind ≠ .statements)
    (hinner : Fits NodeKind.bodyLayout inner)
    (h : ∀ c ∈ n.children, ∀ {ds around place} {s : State}, Agrees ds s.names around place →
      Followed ds around place [c] s (events .plain c [])) :
    Followed ds around place [n] s (eventsOfClass n.children []) := by
  rw [hchildren] at h ⊢
  rw [List.forall_mem_append] at h
  rw [eventsOfClass_eq houter (exists_body hinner)]
  exact .scope outer inner hs hopens hchildren rfl
    (.each (fun c hc _ _ _ hs => h.1 c hc hs) (hs.later (Nat.le_succ place)))
    fun s' hs' => .each (fun c hc _ _ _ hs => h.2 c hc hs) hs'

/-- What is a value is no list of statements. -/
lemma ne_statements (h : NodeClass.has .expression n = true) : n.kind ≠ .statements := by
  intro hkind
  simp [NodeClass.has, hkind, NodeKind.isExpression] at h

/-- A named parameter is bound. -/
lemma agrees_namedParameter {at_ : Position} {inBlock : Bool} (h : Agrees ds s.names around place)
    (hkind : n.kind = .parameter) :
    Agrees (ds ++ declarations [(around, n)]) (s.run (namedParameter n.name at_ inBlock)).names
      around place := by
  unfold namedParameter
  split
  · rename_i hname
    have hdeclares : n.declares = false := by
      simp only [Bool.or_eq_true, beq_iff_eq] at hname
      rcases hname with hname | hname
      · simp [declares, hkind, hname]
      · simp [declares, hkind, hname]
    exact h.skip hdeclares
  · rename_i hname
    have hdeclares : n.declares = true := by
      simp only [Bool.or_eq_true, beq_iff_eq, not_or] at hname
      simp [declares, hkind, hname]
    cases inBlock with
    | false => exact Agrees.add s.scopes h hdeclares
    | true =>
      rw [← s.names_hide n.name at_] at h
      exact Agrees.add (s.hide n.name at_).scopes h hdeclares

/-- The events of every tree are followed. -/
theorem followed (h : n.Everywhere Sound) {role : Role} (hrole : role.Admits n)
    (hs : Agrees ds s.names around place) :
    Followed ds around place [n] s (events role n []) := by
  induction h generalizing role ds around place s with
  | @intro n hn hchildren ih =>
    obtain ⟨kind, span, text, children⟩ := n
    have hlater := hs.later (Nat.le_succ place)
    have heach {role' : Role} (hrole' : ∀ c ∈ children, role'.Admits c) {ds : List (ℕ × String)}
        {around : Scopes} {place : ℕ} {s : State} (hs : Agrees ds s.names around place) :
        Followed ds around place children s (eventsOfEach role' children []) :=
      .each (fun c hc _ _ _ hs => ih c hc (hrole' c hc) hs) hs
    unfold events
    split
    case h_1 inBlock =>
      exact .inert rfl rfl (by simp) (by simp) (heach (hn.admits_parameter inBlock) hlater)
    case h_2 inBlock =>
      have hdefault := heach (hn.admits_plain (by simp) (by simp) (by simp)) hlater
      have hsilent : ∀ e ∈ namedParameter (text.getD "") span.start inBlock, e.isUse = false := by
        intro e he
        unfold namedParameter at he
        split at he
        · simp at he
        · obtain rfl := List.mem_singleton.mp he
          rfl
      rw [List.append_nil, eventsOfEach_eq_append]
      exact .parameter rfl hsilent hdefault (agrees_namedParameter hdefault.agrees rfl)
    case h_3 inBlock =>
      have hleaf : children = [] := hn.1.children_eq_nil rfl
      exact .leaf rfl (by simp) (by simp) hleaf rfl (Agrees.add s.scopes hs rfl)
    case h_4 =>
      have hleaf : children = [] := hn.1.children_eq_nil rfl
      subst hleaf
      exact .inert rfl rfl (by simp) (by simp) (.nothing hlater)
    case h_5 =>
      have hplain := hn.admits_plain (by simp) (by simp) (by simp)
      exact .inert rfl rfl (by simp) (by simp)
        (.statements (fun c hc _ _ _ hs => ih c hc (hplain c hc) hs) hlater)
    case h_6 => exact .use hs rfl (hn.1.children_eq_nil rfl)
    case h_7 =>
      have hleaf : children = [] := hn.1.children_eq_nil rfl
      exact .leaf rfl (by simp) (by simp) hleaf rfl (Agrees.write s.scopes hs rfl)
    case h_8 =>
      have hplain := hn.admits_plain (by simp) (by simp) (by simp)
      have hsilent := isSilent_updatedVariable children
      refine .inert rfl rfl (by simp) (by simp) (.behind hlater hsilent (heach hplain ?_))
      rwa [State.names_run_of_isSilent hsilent]
    case h_9 =>
      have hplain := hn.admits_plain (by simp) (by simp) (by simp)
      have hsilent : ∀ e ∈ (repeatedValues ⟨.case_, span, text, children⟩).map Event.found,
          e.isSilent = true := by
        intro e he
        obtain ⟨f, -, rfl⟩ := List.mem_map.mp he
        rfl
      refine .inert rfl rfl (by simp) (by simp) (.behind hlater hsilent (heach hplain ?_))
      rwa [State.names_run_of_isSilent hsilent]
    case h_10 | h_11 =>
      have hplain := hn.admits_plain (by simp) (by simp) (by simp)
      exact Followed.frame [] hs rfl rfl (by simp) (heach hplain)
    case h_12 =>
      have hplain := hn.admits_plain (by simp) (by simp) (by simp)
      have hchild (c : Node) (hc : c ∈ children) {ds around place} {s : State}
          (hs : Agrees ds s.names around place) := ih c hc (hplain c hc) hs
      cases hn.1 with
      | absent hbody =>
        obtain ⟨body, rest, rfl, hkind⟩ := exists_body hbody
        exact Followed.class_ [] (body :: rest) hs (by simp [opens, hkind]) rfl (.inl rfl) hbody
          hchild
      | @present _ m _ inner hm hbody =>
        obtain ⟨body, rest, rfl, hkind⟩ := exists_body hbody
        have hvalue := ne_statements hm
        exact Followed.class_ [m] (body :: rest) hs (by simp [opens, hkind, hvalue]) rfl
          (.inr ⟨m, rfl, hvalue⟩) hbody hchild
    case h_13 =>
      have hplain := hn.admits_plain (by simp) (by simp) (by simp)
      have hchild (c : Node) (hc : c ∈ children) {ds around place} {s : State}
          (hs : Agrees ds s.names around place) := ih c hc (hplain c hc) hs
      cases hn.1 with
      | @one _ m _ inner hm hbody =>
        exact Followed.class_ [m] inner hs rfl rfl (.inr ⟨m, rfl, ne_statements hm⟩) hbody
          hchild
    case h_14 | h_15 | h_16 =>
      have hplain := hn.admits_plain (by simp) (by simp) (by simp)
      exact Followed.frame [] hs rfl rfl (by simp) (heach hplain)
    case h_17 =>
      have hplain := hn.admits_plain (by simp) (by simp) (by simp)
      exact Followed.frame [.exitHook span.start] hs rfl rfl (by simp [Event.isSilent])
        (heach hplain)
    case h_18 =>
      exact .inert rfl rfl (by simp) (by simp) (heach (hn.admits_parameter false) hlater)
    case h_19 =>
      exact .inert rfl rfl (by simp) (by simp) (heach (hn.admits_parameter true) hlater)
    case h_20 hmulti hparameter hblockLocal =>
      -- Whatever is left opens no frame, and has nothing to do with variables.
      obtain ⟨hprogram, hlocal, hbound, htargets⟩ := hrole.of_not hmulti hparameter hblockLocal
      have hopens : opens ⟨kind, span, text, children⟩ = none := by
        unfold opens
        split
        all_goals simp_all
      have hdeclares : declares ⟨kind, span, text, children⟩ = false := by
        unfold declares
        split
        all_goals simp_all
      refine .inert hopens hdeclares ‹_› hbound (heach (hn.admits_plain ‹_› ‹_› htargets) hlater)

end RubyCheck.Analysis
