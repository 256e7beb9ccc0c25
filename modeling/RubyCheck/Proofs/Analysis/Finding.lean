import RubyCheck.Proofs.Analysis.Event
import RubyCheck.Proofs.Tree.Scope

/-!
# Where findings point

Whatever a walk finds points at the beginning of a node, and only some kinds of nodes are pointed at
(`Node.isPointedAt`): variables and what makes them, hooks, and literals.  The events of a tree are
at such places, and so is every declaration that the frames keep, as the events put them there.
What single tokens show is never found by a walk.
-/

namespace RubyCheck

namespace Finding

/-- Whether a finding is about a single token. -/
def Cause.isOfToken : Cause → Bool
  | ambiguousRegex | legacyOctal _ => true
  | _ => false

/-- A finding about the tree, at a place with a property. -/
def OfTree (P : Position → Prop) (f : Finding) : Prop :=
  f.cause.isOfToken = false ∧ P f.position

end Finding

namespace Analysis

open Node

variable {P : Position → Prop} {n : Node} {ns : List Node} {s : State} {e : Event}
  {es : List Event} {name : String} {at_ : Position}

/-! ### Places of events -/

namespace Event

/-- Whatever place an event is about has a property. -/
def Points (P : Position → Prop) : Event → Prop
  | write _ at_ | parameter _ at_ _ | blockLocal _ at_ | exitHook at_ => P at_
  | found f => f.OfTree P
  | enter _ | leave | use _ | useForUpdate _ => True

end Event

/-- A node has a property where it begins, if it may be pointed at. -/
def Pointed (P : Position → Prop) (n : Node) : Prop := n.isPointedAt = true → P n.span.start

/-- A statement in void context is pointed at where its variable begins. -/
lemma points_voidStatement (hn : Pointed P n) : ∀ e ∈ voidStatement n, e.Points P := by
  unfold voidStatement
  split
  · rename_i hkind
    exact List.forall_mem_singleton.mpr ⟨rfl, hn (by simp [isPointedAt, hkind])⟩
  · simp

/-- Reading a variable in order to write it points at no place. -/
lemma points_updatedVariable (ns : List Node) : ∀ e ∈ updatedVariable ns, e.Points P := by
  unfold updatedVariable
  split
  · split
    · exact List.forall_mem_singleton.mpr trivial
    · simp
  · simp

/-- A parameter is bound where it has its name. -/
lemma points_namedParameter {inBlock : Bool}
    (h : (name != "" && name != "...") = true → P at_) :
    ∀ e ∈ namedParameter name at_ inBlock, e.Points P := by
  unfold namedParameter
  split
  · simp
  · rename_i hnamed
    refine List.forall_mem_singleton.mpr (h ?_)
    simpa using hnamed

/-- A repeated literal is one of the literals. -/
lemma mem_repeatedAmong {seen : List (LiteralValue × ℕ)} {ps : List (LiteralValue × Node)}
    {f : Finding} (h : f ∈ repeatedAmong seen ps) :
    (∃ spelling line, f.cause = .duplicateValue spelling line) ∧
      ∃ p ∈ ps, f.position = p.2.span.start := by
  induction ps generalizing seen with
  | nil => simp [repeatedAmong] at h
  | cons p ps ih =>
    rw [repeatedAmong] at h
    split at h
    · rcases List.mem_cons.mp h with rfl | h
      · exact ⟨⟨_, _, rfl⟩, p, List.mem_cons_self, rfl⟩
      · obtain ⟨hcause, q, hq, hposition⟩ := ih h
        exact ⟨hcause, q, List.mem_cons_of_mem p hq, hposition⟩
    · obtain ⟨hcause, q, hq, hposition⟩ := ih h
      exact ⟨hcause, q, List.mem_cons_of_mem p hq, hposition⟩

/-- The literals of the clauses are children of what the clauses begin with. -/
lemma everywhere_clauseValues {clause : Node} {Q : Node → Prop} (h : clause.Everywhere Q) :
    ∀ v ∈ clauseValues clause, v.Everywhere Q := by
  intro v hv
  unfold clauseValues at hv
  split at hv
  · cases hhead : clause.children.head? with
    | none => simp [hhead] at hv
    | some values =>
      rw [hhead] at hv
      exact (h.children values (List.mem_of_mem_head? hhead)).children v hv
  · simp at hv

/-- Repeated values are pointed at where one of the values begins. -/
lemma points_repeatedValues (hns : ∀ c ∈ n.children, c.Everywhere (Pointed P)) :
    ∀ f ∈ repeatedValues n, f.OfTree P := by
  intro f hf
  obtain ⟨⟨spelling, line, hcause⟩, ⟨value, v⟩, hmem, hposition⟩ := mem_repeatedAmong hf
  obtain ⟨v', hv, hliteral⟩ := List.mem_filterMap.mp hmem
  obtain ⟨clause, hclause, hv⟩ := List.mem_flatMap.mp hv
  obtain ⟨_, hvalue, heq⟩ := Option.map_eq_some_iff.mp hliteral
  obtain rfl := (Prod.mk.inj heq).2
  refine ⟨by rw [hcause]; rfl, ?_⟩
  rw [hposition]
  refine (everywhere_clauseValues (hns clause hclause) _ hv).root ?_
  simp [isPointedAt, hvalue]

mutual

/-- The events of a tree are at nodes that are pointed at. -/
lemma points_events : (role : Role) → (n : Node) → n.Everywhere (Pointed P) →
    ∀ rest : List Event, (∀ e ∈ rest, e.Points P) → ∀ e ∈ events role n rest, e.Points P
  | role, ⟨kind, span, text, children⟩, h, rest, hrest => by
    have hchildren := h.children
    have heach (role : Role) {rest : List Event} (hrest : ∀ e ∈ rest, e.Points P) :=
      points_eventsOfEach role children hchildren rest hrest
    have hleave : ∀ e ∈ Event.leave :: rest, e.Points P :=
      List.forall_mem_cons.mpr ⟨trivial, hrest⟩
    have henter {kind : FrameKind} {es : List Event} (hes : ∀ e ∈ es, e.Points P) :
        ∀ e ∈ Event.enter kind :: es, e.Points P := List.forall_mem_cons.mpr ⟨trivial, hes⟩
    have hat : isPointedAt ⟨kind, span, text, children⟩ = true → P span.start := h.root
    unfold events
    split
    case h_2 =>
      refine heach _ (List.forall_mem_append.mpr ⟨points_namedParameter fun hnamed => ?_, hrest⟩)
      refine h.root ?_
      simp only [isPointedAt, declares, Node.name, hnamed, Bool.or_true, Bool.true_or]
    case h_3 => exact List.forall_mem_cons.mpr ⟨hat (by simp [isPointedAt, declares]), hrest⟩
    case h_4 => exact hrest
    case h_5 => exact points_eventsOfStatements children hchildren rest hrest
    case h_6 => exact List.forall_mem_cons.mpr ⟨trivial, hrest⟩
    case h_7 => exact List.forall_mem_cons.mpr ⟨hat (by simp [isPointedAt, declares]), hrest⟩
    case h_8 =>
      exact List.forall_mem_append.mpr ⟨points_updatedVariable _, heach _ hrest⟩
    case h_9 =>
      refine List.forall_mem_append.mpr ⟨?_, heach _ hrest⟩
      exact List.forall_mem_map.mpr fun f hf => points_repeatedValues hchildren f hf
    case h_10 | h_11 | h_14 | h_15 | h_16 => exact henter (heach _ hleave)
    case h_12 | h_13 => exact points_eventsOfClass children hchildren rest hrest
    case h_17 =>
      exact List.forall_mem_cons.mpr ⟨hat (by simp [isPointedAt]), henter (heach _ hleave)⟩
    all_goals exact heach _ hrest

/-- The events of several trees are at places of their nodes. -/
lemma points_eventsOfEach : (role : Role) → (ns : List Node) →
    (∀ c ∈ ns, c.Everywhere (Pointed P)) → ∀ rest : List Event, (∀ e ∈ rest, e.Points P) →
      ∀ e ∈ eventsOfEach role ns rest, e.Points P
  | _, [], _, _, hrest => hrest
  | role, n :: ns, h, rest, hrest => by
    rw [List.forall_mem_cons] at h
    exact points_events role n h.1 _ (points_eventsOfEach role ns h.2 rest hrest)

/-- The events of statements are at places of their nodes. -/
lemma points_eventsOfStatements : (ns : List Node) → (∀ c ∈ ns, c.Everywhere (Pointed P)) →
    ∀ rest : List Event, (∀ e ∈ rest, e.Points P) →
      ∀ e ∈ eventsOfStatements ns rest, e.Points P
  | [], _, _, hrest => hrest
  | [n], h, rest, hrest => points_events .plain n (h n (List.mem_singleton_self n)) rest hrest
  | n :: m :: ns, h, rest, hrest => by
    rw [List.forall_mem_cons] at h
    have hlater := points_eventsOfStatements (m :: ns) h.2 rest hrest
    exact List.forall_mem_append.mpr
      ⟨points_voidStatement h.1.root, points_events .plain n h.1 _ hlater⟩

/-- The events of a class are at places of its nodes. -/
lemma points_eventsOfClass : (ns : List Node) → (∀ c ∈ ns, c.Everywhere (Pointed P)) →
    ∀ rest : List Event, (∀ e ∈ rest, e.Points P) → ∀ e ∈ eventsOfClass ns rest, e.Points P
  | [], _, rest, hrest =>
    List.forall_mem_cons.mpr ⟨trivial, List.forall_mem_cons.mpr ⟨trivial, hrest⟩⟩
  | n :: ns, h, rest, hrest => by
    rw [List.forall_mem_cons] at h
    have hleave : ∀ e ∈ Event.leave :: rest, e.Points P :=
      List.forall_mem_cons.mpr ⟨trivial, hrest⟩
    have hbody := points_eventsOfEach .plain ns h.2 _ hleave
    unfold eventsOfClass
    split
    · exact List.forall_mem_cons.mpr ⟨trivial, points_events .plain n h.1 _ hbody⟩
    · exact points_events .plain n h.1 _ (List.forall_mem_cons.mpr ⟨trivial, hbody⟩)

end

/-! ### Places that the frames keep -/

end Analysis

/-- Whatever a frame has was declared at a place with a property. -/
def Frame.DeclaredAt (P : Position → Prop) (f : Frame) : Prop :=
  ∀ p ∈ f.entries, P p.2.declaredAt

/-- Whatever the frames have was declared at a place with a property. -/
def ScopeStack.DeclaredAt (P : Position → Prop) (s : ScopeStack) : Prop :=
  ∀ f ∈ s.frames, f.DeclaredAt P

variable {P : Position → Prop} {f : Frame} {fs fs' : List Frame} {s : ScopeStack} {name : String}
  {v : Variable} {g : Variable → Variable}

namespace Frame

/-- A change that leaves declarations where they are keeps their places. -/
lemma DeclaredAt.change (h : f.DeclaredAt P) (hg : ∀ v, (g v).declaredAt = v.declaredAt) :
    (f.change name g).DeclaredAt P := by
  refine List.forall_mem_map.mpr fun p hp => ?_
  split
  · dsimp only
    rw [hg]
    exact h p hp
  · exact h p hp

/-- A variable that is added to a frame is declared at its place. -/
lemma DeclaredAt.add (h : f.DeclaredAt P) (hv : P v.declaredAt) : (f.add name v).DeclaredAt P := by
  unfold Frame.add
  split
  · exact h
  · exact List.forall_mem_cons.mpr ⟨hv, h⟩

/-- What is unused is reported where it was declared. -/
lemma DeclaredAt.unused (h : f.DeclaredAt P) : ∀ found ∈ f.unused, found.OfTree P := by
  unfold Frame.unused
  split
  · simp
  · refine List.forall_mem_map.mpr fun p hp => ⟨rfl, ?_⟩
    exact h p (List.mem_mergeSort.mp (List.mem_filter.mp hp).1)

end Frame

namespace ScopeStack

/-- A change in one of several frames keeps the places of all declarations. -/
lemma declaredAt_change? (h : ∀ f ∈ fs, f.DeclaredAt P)
    (hg : ∀ v, (g v).declaredAt = v.declaredAt) (hfs : change? name g fs = some fs') :
    ∀ f ∈ fs', f.DeclaredAt P := by
  obtain ⟨inner, f, outer, rfl, rfl, -⟩ := exists_of_change? hfs
  rw [List.forall_mem_append, List.forall_mem_cons] at h ⊢
  exact ⟨h.1, h.2.1.change hg, h.2.2⟩

namespace DeclaredAt

/-- A change in a frame around the innermost one keeps all places. -/
lemma changeOuter? {s' : ScopeStack} (h : s.DeclaredAt P)
    (hg : ∀ v, (g v).declaredAt = v.declaredAt) (hs : s.changeOuter? name g = some s') :
    s'.DeclaredAt P := by
  have hframes := List.forall_mem_cons.mp h
  obtain ⟨fs, hfs, rfl⟩ := Option.map_eq_some_iff.mp hs
  unfold around at hfs
  split at hfs
  · exact List.forall_mem_cons.mpr ⟨hframes.1, declaredAt_change? hframes.2 hg hfs⟩
  · simp [change?] at hfs

/-- A change in a frame that is seen keeps all places. -/
lemma changeVisible? {s' : ScopeStack} (h : s.DeclaredAt P)
    (hg : ∀ v, (g v).declaredAt = v.declaredAt) (hs : s.changeVisible? name g = some s') :
    s'.DeclaredAt P :=
  declaredAt_change? h hg (change?_of_changeVisible? hs)

/-- Reading a name keeps all places. -/
lemma read (h : s.DeclaredAt P) : (s.read name).DeclaredAt P := by
  unfold ScopeStack.read
  cases hchange : s.changeVisible? name .read with
  | none => exact h
  | some s' =>
    have hread (v : Variable) : v.read.declaredAt = v.declaredAt := rfl
    exact h.changeVisible? hread hchange

/-- Using a name of a frame around keeps all places. -/
lemma touchOuter (h : s.DeclaredAt P) : (s.touchOuter name).DeclaredAt P := by
  unfold ScopeStack.touchOuter
  cases hchange : s.changeOuter? name .read with
  | none => exact h
  | some s' =>
    have hread (v : Variable) : v.read.declaredAt = v.declaredAt := rfl
    exact h.changeOuter? hread hchange

/-- Adding a variable at a place with the property keeps it of all places. -/
lemma add (h : s.DeclaredAt P) (hv : P v.declaredAt) : (s.add name v).DeclaredAt P := by
  have hframes := List.forall_mem_cons.mp h
  exact List.forall_mem_cons.mpr ⟨hframes.1.add hv, hframes.2⟩

/-- Writing a name at a place with the property keeps it of all places. -/
lemma write {at_ : Position} (h : s.DeclaredAt P) (hat : P at_) :
    (s.write name at_).DeclaredAt P := by
  unfold ScopeStack.write
  cases hchange : s.changeVisible? name .write with
  | none => exact h.add hat
  | some s' =>
    have hwrite (v : Variable) : v.write.declaredAt = v.declaredAt := rfl
    exact h.changeVisible? hwrite hchange

end DeclaredAt

end ScopeStack

namespace Analysis

namespace State

/-- Whatever a state has found or keeps is at places with a property. -/
structure Points (P : Position → Prop) (s : State) : Prop where
  scopes : s.scopes.DeclaredAt P
  found : ∀ f ∈ s.found, f.OfTree P

variable {s : State} {e : Event} {es : List Event} {f : Finding} {name : String} {at_ : Position}

/-- At the beginning there is nothing to point at. -/
lemma points_initial : initial.Points P where
  scopes := by simp [initial, ScopeStack.DeclaredAt, ScopeStack.initial, ScopeStack.frames,
    Frame.DeclaredAt, Frame.empty]
  found := by simp [initial]

namespace Points

/-- A finding at a place with the property may be added. -/
lemma find (h : s.Points P) (hf : f.OfTree P) : (s.find f).Points P where
  scopes := h.scopes
  found := List.forall_mem_cons.mpr ⟨hf, h.found⟩

/-- What is found when a frame is left points at declarations. -/
lemma leave (h : s.Points P) : s.leave.Points P := by
  obtain ⟨⟨top, below⟩, found⟩ := s
  cases below with
  | nil => exact h
  | cons f fs =>
    have hframes := List.forall_mem_cons.mp h.scopes
    refine ⟨hframes.2, List.forall_mem_append.mpr ⟨fun g hg => ?_, h.found⟩⟩
    exact hframes.1.unused g (List.mem_reverse.mp hg)

/-- That a name hides another one is found at the place where it does. -/
lemma hide (h : s.Points P) (hat : P at_) : (s.hide name at_).Points P := by
  unfold State.hide
  split
  · exact find ⟨h.scopes.touchOuter, h.found⟩ ⟨rfl, hat⟩
  · exact h

/-- A parameter is bound at its place. -/
lemma bind {inBlock : Bool} (h : s.Points P) (hat : P at_) : (s.bind name at_ inBlock).Points P := by
  unfold State.bind
  cases inBlock with
  | true =>
    have hhidden : (s.hide name at_).Points P := h.hide hat
    exact ⟨hhidden.scopes.add hat, hhidden.found⟩
  | false => exact ⟨h.scopes.add hat, h.found⟩

/-- What an event is about is put into a state, and nothing else. -/
lemma step (h : s.Points P) (he : e.Points P) : (s.step e).Points P := by
  cases e with
  | enter kind =>
    have hempty : (Frame.empty kind).DeclaredAt P := by simp [Frame.DeclaredAt, Frame.empty]
    exact ⟨List.forall_mem_cons.mpr ⟨hempty, h.scopes⟩, h.found⟩
  | leave => exact h.leave
  | use name => exact ⟨h.scopes.read, h.found⟩
  | useForUpdate name => exact ⟨h.scopes.read, h.found⟩
  | write name at_ => exact ⟨h.scopes.write he, h.found⟩
  | parameter name at_ inBlock => exact h.bind he
  | blockLocal name at_ => exact ⟨h.scopes.add he, h.found⟩
  | exitHook at_ =>
    change ((exitHookFinding? s.scopes.enclosingDefinition at_).map s.find |>.getD s).Points P
    unfold exitHookFinding?
    split
    · exact h.find ⟨rfl, he⟩
    · exact h
  | found f => exact h.find he

/-- So whatever is found by events at places with a property points at such a place. -/
lemma run (h : s.Points P) (hes : ∀ e ∈ es, e.Points P) : (s.run es).Points P := by
  induction es generalizing s with
  | nil => exact h
  | cons e es ih =>
    rw [List.forall_mem_cons] at hes
    exact ih (h.step hes.1) hes.2

end Points

end State

/-- Whatever is found in a tree is found at a node that may be pointed at. -/
theorem points_treeFindings {t : SyntaxTree} (h : t.root.Everywhere (Pointed P)) :
    ∀ f ∈ treeFindings t, f.OfTree P := by
  intro f hf
  have hevents : ∀ e ∈ eventsOfProgram t, e.Points P :=
    points_eventsOfStatements t.root.children h.children [] (by simp)
  exact (State.points_initial.run hevents).found f (List.mem_reverse.mp hf)

/-- What a token shows is a finding about a token. -/
lemma isOfToken_of_tokenFinding? {t : Token} {f : Finding}
    (h : tokenFinding? t = some f) : f.cause.isOfToken = true := by
  unfold tokenFinding? at h
  split at h
  · split at h
    · obtain rfl := Option.some.inj h
      rfl
    · simp at h
  · obtain rfl := Option.some.inj h
    rfl
  · simp at h

/-- What single tokens show are findings about tokens. -/
lemma isOfToken_of_mem_tokenFindings {given : List Span} {ts : List Token} :
    ∀ f ∈ tokenFindings given ts, f.cause.isOfToken = true := by
  intro f hf
  obtain ⟨t, -, hfound⟩ := List.mem_filterMap.mp hf
  exact isOfToken_of_tokenFinding? hfound

/-- No finding of a walk is about a single token. -/
lemma isOfToken_of_mem_treeFindings {t : SyntaxTree} :
    ∀ f ∈ treeFindings t, f.cause.isOfToken = false := by
  intro f hf
  have hanywhere : t.root.Everywhere (Pointed fun _ => True) :=
    Node.everywhere_of_outline t.root fun (_ : ℕ × Node) (_ : _ ∈ t.root.outline 0) _ => trivial
  exact (points_treeFindings hanywhere f hf).1

/-- What a token shows is found where it begins. -/
lemma position_of_tokenFinding? {t : Token} {f : Finding} (h : tokenFinding? t = some f) :
    f.position = t.span.start := by
  unfold tokenFinding? at h
  split at h
  · split at h
    · obtain rfl := Option.some.inj h
      rfl
    · simp at h
  · obtain rfl := Option.some.inj h
    rfl
  · simp at h

end Analysis

end RubyCheck
