import RubyCheck.Proofs.Analysis.Unused
import RubyCheck.Proofs.Nesting

/-!
# Parameters among the unused variables

A parameter is bound by whoever calls, so it should never be found to be unused.  But a walk comes
upon a default value before it comes upon its parameter, and a name is what it was bound as first.
So a parameter is found to be unused exactly if a default value in the same list assigns to its name
before it is bound, and nothing reads it.

In front of a parameter, all that makes variables of its scope are parameters and assignments in
their default values (`ParametersLead`).  Of a whole tree this is shown along the walk: in one that
is no list of parameters every parameter stands in a scope that is opened there (`Enclosed`), and in
a list those of the list itself stand side by side (`Listed`).
-/

namespace RubyCheck

open Node

variable {ps qs : List (Scopes × Node)} {p q : Scopes × Node} {around : Scopes} {place place' : ℕ}
  {n : Node} {ns : List Node} {v : ℕ × String} {at_ : Position}

/-! ### Default values in a walk -/

/-- A node assigns to a variable in the default value of a parameter that stands in some scopes.  In
a walk a default value comes right in front of its parameter. -/
def AssignedInDefault (ps : List (Scopes × Node)) (around : Scopes) (q : Scopes × Node) : Prop :=
  ∃ before place n after,
    ps = before ++ (walkAll around place n.children ++ (around, n) :: after) ∧
      n.kind = .parameter ∧ q ∈ walkAll around place n.children ∧ q.2.kind = .localTarget

namespace AssignedInDefault

/-- An assignment in a default value is still one with further nodes in front. -/
lemma behind (h : AssignedInDefault qs around q) (ps : List (Scopes × Node)) :
    AssignedInDefault (ps ++ qs) around q := by
  obtain ⟨before, place, n, after, rfl, hrest⟩ := h
  exact ⟨ps ++ before, place, n, after, by simp, hrest⟩

/-- An assignment in a default value is still one with further nodes behind. -/
lemma before (h : AssignedInDefault ps around q) (qs : List (Scopes × Node)) :
    AssignedInDefault (ps ++ qs) around q := by
  obtain ⟨before, place, n, after, rfl, hrest⟩ := h
  exact ⟨before, place, n, after ++ qs, by simp, hrest⟩

end AssignedInDefault

/-- What makes variables of the scope of a parameter in front of it are parameters and assignments
in default values of parameters. -/
def ParametersLead (ps : List (Scopes × Node)) : Prop :=
  ∀ ⦃before p after⦄, ps = before ++ p :: after → p.2.kind = .parameter →
    ∀ q ∈ before, ∀ v, declaration q = some v → (∃ scope ∈ p.1.head?, scope.1 = v.1) →
      q.2.kind = .parameter ∨ AssignedInDefault ps p.1 q

namespace ParametersLead

/-- Where there are no parameters, they lead. -/
lemma of_none (h : ∀ p ∈ ps, p.2.kind ≠ .parameter) : ParametersLead ps := by
  rintro before p after rfl hkind
  exact absurd hkind (h p (by simp))

/-- A node by itself leads. -/
lemma one (p : Scopes × Node) : ParametersLead [p] := by
  intro before p' after heq _ q hq
  cases before with
  | nil => exact absurd hq List.not_mem_nil
  | cons q' before => simp at heq

/-- Some nodes behind others, if what stands in front is as it should be for the parameters among
them. -/
lemma append (h : ParametersLead ps) (h' : ParametersLead qs)
    (hapart : ∀ p ∈ qs, p.2.kind = .parameter → ∀ q ∈ ps, ∀ v, declaration q = some v →
      (∃ scope ∈ p.1.head?, scope.1 = v.1) →
        q.2.kind = .parameter ∨ AssignedInDefault (ps ++ qs) p.1 q) :
    ParametersLead (ps ++ qs) := by
  -- The parameter is among the later nodes.
  have hlater {before after : List (Scopes × Node)} {p : Scopes × Node}
      (hqs : qs = before ++ p :: after) (hkind : p.2.kind = .parameter) :
      ∀ q ∈ ps ++ before, ∀ v, declaration q = some v → (∃ scope ∈ p.1.head?, scope.1 = v.1) →
        q.2.kind = .parameter ∨ AssignedInDefault (ps ++ qs) p.1 q := by
    intro q hq v hv hscope
    rcases List.mem_append.mp hq with hq | hq
    · exact hapart p (by simp [hqs]) hkind q hq v hv hscope
    · exact (h' hqs hkind q hq v hv hscope).imp_right (·.behind ps)
  intro before p after heq hkind
  rcases List.append_eq_append_iff.mp heq with ⟨t, rfl, hqs⟩ | ⟨t, hps, hrest⟩
  · exact hlater hqs hkind
  · cases t with
    | nil =>
      rw [List.append_nil] at hps
      subst hps
      simpa using @hlater [] _ _ hrest.symm hkind
    | cons p' t =>
      obtain ⟨rfl, -⟩ := List.cons.inj hrest
      exact fun q hq v hv hscope => (h hps hkind q hq v hv hscope).imp_right (·.before qs)

end ParametersLead

/-- Nodes whose innermost scopes were opened before a place. -/
def Below (place : ℕ) (ps : List (Scopes × Node)) : Prop :=
  ∀ p ∈ ps, ∀ scope ∈ p.1.head?, scope.1 < place

/-- A scope was opened before every later place. -/
lemma lt_of_mem_head?_cons {closed : Bool} (hlt : place < place') :
    ∀ scope ∈ ((place, closed) :: around).head?, scope.1 < place' := by
  intro scope hscope
  obtain rfl := Option.some.inj hscope
  exact hlt

/-- A node stands below a place if its innermost scope was opened before it. -/
lemma below_one (haround : ∀ scope ∈ around.head?, scope.1 < place) : Below place [(around, n)] :=
  List.forall_mem_singleton.mpr haround

/-- All nodes of some trees stand below the place behind them. -/
lemma below_walkAll (haround : ∀ scope ∈ around.head?, scope.1 < place) :
    Below (place + sizeEach ns) (walkAll around place ns) := by
  intro p hp scope hscope
  have hsituated := (walkEach_perm ns).mem_iff.mp hp
  rcases head?_of_mem_situateEach ns p hsituated scope hscope with h | h | h
  · exact Nat.lt_of_lt_of_le (haround scope h) (Nat.le_add_right _ _)
  · exact Nat.lt_of_lt_of_le (haround scope h) (Nat.le_add_right _ _)
  · exact h.2

/-- All nodes of a tree stand below the place behind it. -/
lemma below_walk (haround : ∀ scope ∈ around.head?, scope.1 < place) :
    Below (place + n.size) (walk around place n) := by
  have hbelow : Below (place + sizeEach [n]) (walkAll around place [n]) := below_walkAll haround
  rwa [walkAll_one, sizeEach, sizeEach, Nat.add_zero] at hbelow

/-- A node whose innermost scope was opened before a place makes no variable of a later one. -/
lemma Below.ne_of_declaration (h : Below place ps) (hq : q ∈ ps) (hv : declaration q = some v)
    {scope : ℕ × Bool} (hscope : place ≤ scope.1) : scope.1 ≠ v.1 := by
  obtain ⟨inner, hinner, heq⟩ := opener_of_declaration hv
  have hlt := h q hq inner hinner
  omega

/-! ### Trees that are no lists of parameters -/

/-- Whether a node stands in a list of parameters: as one of them, or as a variable of a block. -/
def Node.isListed (n : Node) : Bool := n.kind == .parameter || n.kind == .blockLocal

/-- A parameter stands in a list. -/
lemma Node.isListed_of_parameter (h : n.kind = .parameter) : n.isListed = true := by
  simp [isListed, h]

/-- What is not listed makes a variable if it is assigned to. -/
lemma kind_of_declaration (hv : declaration p = some v) (hlisted : p.2.isListed = false) :
    p.2.kind = .localTarget := by
  have hdeclares : p.2.declares = true := by
    by_contra hnot
    simp [declaration, hnot] at hv
  unfold Node.declares at hdeclares
  split at hdeclares
  · assumption
  · simp_all [Node.isListed]
  · simp_all [Node.isListed]
  · cases hdeclares

/-- Parameters lead their scopes, each of which is opened from a place on, and so are those of the
variables of blocks. -/
structure Enclosed (place : ℕ) (ps : List (Scopes × Node)) : Prop where
  lead : ParametersLead ps
  inner : ∀ p ∈ ps, p.2.isListed = true → ∃ scope ∈ p.1.head?, place ≤ scope.1

namespace Enclosed

/-- No nodes are enclosed. -/
lemma nil : Enclosed place [] := ⟨.of_none (by simp), by simp⟩

/-- A node that stands in no list is enclosed. -/
lemma one (h : n.isListed = false) : Enclosed place [(around, n)] := by
  refine ⟨.one _, fun p hp hlisted => ?_⟩
  obtain rfl := List.mem_singleton.mp hp
  rw [h] at hlisted
  exact absurd hlisted Bool.false_ne_true

/-- Nodes that are enclosed from a later place on may follow others below it. -/
lemma append (h : Enclosed place ps) (hps : Below place' ps) (h' : Enclosed place' qs)
    (hplace : place ≤ place') : Enclosed place (ps ++ qs) where
  lead := by
    refine h.lead.append h'.lead fun p hp hkind q hq v hv ⟨scope, hscope, heq⟩ => ?_
    obtain ⟨scope', hscope', hle⟩ := h'.inner p hp (isListed_of_parameter hkind)
    obtain rfl := Option.mem_unique hscope hscope'
    exact absurd heq (hps.ne_of_declaration hq hv hle)
  inner p hp hlisted := by
    rcases List.mem_append.mp hp with hp | hp
    · exact h.inner p hp hlisted
    · obtain ⟨scope, hscope, hle⟩ := h'.inner p hp hlisted
      exact ⟨scope, hscope, hplace.trans hle⟩

/-- Trees none of which is a list of parameters. -/
lemma each (haround : ∀ scope ∈ around.head?, scope.1 < place)
    (h : ∀ c ∈ ns, ∀ place, (∀ scope ∈ around.head?, scope.1 < place) →
      Enclosed place (walk around place c)) : Enclosed place (walkAll around place ns) := by
  induction ns generalizing place with
  | nil => exact .nil
  | cons c ns ih =>
    rw [List.forall_mem_cons] at h
    have hle : place ≤ place + c.size := Nat.le_add_right _ _
    rw [walkAll_cons]
    exact (h.1 place haround).append (below_walk haround)
      (ih (fun scope hscope => Nat.lt_of_lt_of_le (haround scope hscope) hle) h.2) hle

/-- Variables of a block behind its parameters. -/
lemma append_locals (h : Enclosed place ps) (hkind : ∀ p ∈ qs, p.2.kind = .blockLocal)
    (hqs : ∀ p ∈ qs, ∃ scope ∈ p.1.head?, place ≤ scope.1) : Enclosed place (ps ++ qs) where
  lead := by
    have hnone : ∀ p ∈ qs, p.2.kind ≠ .parameter := fun p hp => by simp [hkind p hp]
    exact h.lead.append (.of_none hnone) fun p hp hparameter => absurd hparameter (hnone p hp)
  inner p hp hlisted := by
    rcases List.mem_append.mp hp with hp | hp
    · exact h.inner p hp hlisted
    · exact hqs p hp

end Enclosed

/-! ### Lists of parameters -/

/-- Parameters of a list in some scopes: what makes variables right there are parameters and
assignments in their default values, and whatever else is listed stands further inside. -/
structure Listed (around : Scopes) (place : ℕ) (ps : List (Scopes × Node)) : Prop where
  lead : ParametersLead ps
  inner : ∀ p ∈ ps, p.2.isListed = true →
    p.1 = around ∨ ∃ scope ∈ p.1.head?, place ≤ scope.1
  bound : ∀ q ∈ ps, ∀ v, declaration q = some v → (∃ scope ∈ around.head?, scope.1 = v.1) →
    q.2.kind = .parameter ∨ AssignedInDefault ps around q

namespace Listed

/-- No nodes are listed. -/
lemma nil : Listed around place [] := ⟨.of_none (by simp), by simp, by simp⟩

/-- A node that makes no variable. -/
lemma one (hlisted : n.isListed = false) (hdeclares : n.declares = false) :
    Listed around place [(around, n)] where
  lead := .one _
  inner := by simp [hlisted]
  bound := by simp [declaration, hdeclares]

/-- Nodes listed in the same scopes may follow others. -/
lemma append (h : Listed around place ps) (hps : Below place' ps) (h' : Listed around place' qs)
    (hplace : place ≤ place') : Listed around place (ps ++ qs) where
  lead := by
    refine h.lead.append h'.lead fun p hp hkind q hq v hv ⟨scope, hscope, heq⟩ => ?_
    rcases h'.inner p hp (isListed_of_parameter hkind) with hsame | ⟨scope', hscope', hle⟩
    · rw [hsame] at hscope ⊢
      exact (h.bound q hq v hv ⟨scope, hscope, heq⟩).imp_right (·.before qs)
    · obtain rfl := Option.mem_unique hscope hscope'
      exact absurd heq (hps.ne_of_declaration hq hv hle)
  inner p hp hlisted := by
    rcases List.mem_append.mp hp with hp | hp
    · exact h.inner p hp hlisted
    · refine (h'.inner p hp hlisted).imp_right fun ⟨scope, hscope, hle⟩ => ?_
      exact ⟨scope, hscope, hplace.trans hle⟩
  bound q hq v hv hscope := by
    rcases List.mem_append.mp hq with hq | hq
    · exact (h.bound q hq v hv hscope).imp_right (·.before qs)
    · exact (h'.bound q hq v hv hscope).imp_right (·.behind ps)

/-- Several parameters. -/
lemma each (haround : ∀ scope ∈ around.head?, scope.1 < place)
    (h : ∀ c ∈ ns, ∀ place, (∀ scope ∈ around.head?, scope.1 < place) →
      Listed around place (walk around place c)) : Listed around place (walkAll around place ns) := by
  induction ns generalizing place with
  | nil => exact .nil
  | cons c ns ih =>
    rw [List.forall_mem_cons] at h
    have hle : place ≤ place + c.size := Nat.le_add_right _ _
    rw [walkAll_cons]
    exact (h.1 place haround).append (below_walk haround)
      (ih (fun scope hscope => Nat.lt_of_lt_of_le (haround scope hscope) hle) h.2) hle

/-- A parameter behind its default value. -/
lemma parameter (hkind : n.kind = .parameter) (haround : ∀ scope ∈ around.head?, scope.1 < place)
    (h : Enclosed (place + 1) (walkAll around (place + 1) n.children)) :
    Listed around place (walk around place n) := by
  -- What makes a variable of the scope in a default value is assigned to there.
  have hdefault {q : Scopes × Node} {v : ℕ × String}
      (hq : q ∈ walkAll around (place + 1) n.children) (hv : declaration q = some v)
      (hscope : ∃ scope ∈ around.head?, scope.1 = v.1) :
      AssignedInDefault (walkAll around (place + 1) n.children ++ [(around, n)]) around q := by
    refine ⟨[], place + 1, n, [], by simp, hkind, hq, kind_of_declaration hv ?_⟩
    rw [← Bool.not_eq_true]
    intro hlisted
    obtain ⟨scope, hscope, heq⟩ := hscope
    obtain ⟨inner, hinner, hle⟩ := h.inner q hq hlisted
    obtain ⟨inner', hinner', heq'⟩ := opener_of_declaration hv
    obtain rfl := Option.mem_unique hinner hinner'
    have hlt := haround scope hscope
    omega
  rw [walk_of_parameter hkind]
  constructor
  · refine h.lead.append (.one _) fun p hp _ q hq v hv hscope => ?_
    obtain rfl := List.mem_singleton.mp hp
    exact .inr (hdefault hq hv hscope)
  · intro p hp hlisted
    rcases List.mem_append.mp hp with hp | hp
    · obtain ⟨scope, hscope, hle⟩ := h.inner p hp hlisted
      exact .inr ⟨scope, hscope, Nat.le_of_succ_le hle⟩
    · exact .inl (by rw [List.mem_singleton.mp hp])
  · intro q hq v hv hscope
    rcases List.mem_append.mp hq with hq | hq
    · exact .inr (hdefault hq hv hscope)
    · exact .inl (by rw [List.mem_singleton.mp hq]; exact hkind)

/-- The parameters of a scope lead inside it. -/
lemma enclosed {opener : ℕ} {closed : Bool} (h : Listed ((opener, closed) :: around) place ps)
    (hplace : opener ≤ place) : Enclosed opener ps where
  lead := h.lead
  inner p hp hlisted := by
    rcases h.inner p hp hlisted with hsame | ⟨scope, hscope, hle⟩
    · exact ⟨(opener, closed), by simp [hsame], Nat.le_refl _⟩
    · exact ⟨scope, hscope, hplace.trans hle⟩

end Listed

/-! ### Trees -/

namespace Node

/-- Whether a node is a list of parameters. -/
def isParameterList (n : Node) : Bool := n.kind == .parameters || n.kind == .blockParameters

/-- No clause of a body is a list of parameters. -/
lemma isParameterList_of_body (h : Fits NodeKind.bodyLayout ns) :
    ∀ c ∈ ns, c.isParameterList = false := by
  intro c hc
  obtain ⟨part, hpart, hhas⟩ := h.exists_part hc
  simp only [NodeKind.bodyLayout, List.mem_cons, List.not_mem_nil, or_false] at hpart
  rcases hpart with rfl | rfl | rfl | rfl
  all_goals simp [isParameterList, eq_of_beq hhas]

/-- Methods, blocks and anonymous functions have lists of parameters. -/
lemma LaidOut.kind_of_list {c : Node} (h : n.LaidOut) (hc : c ∈ n.children)
    (hlist : c.isParameterList = true) :
    n.kind = .methodDef ∨ n.kind = .block ∨ n.kind = .lambda := by
  have hholds := h.holds hc
  rcases Bool.or_eq_true_iff.mp hlist with hc | hc
  · rw [eq_of_beq hc] at hholds
    exact .inl (NodeKind.of_holds_parameters hholds)
  · rw [eq_of_beq hc] at hholds
    exact .inr (NodeKind.of_holds_blockParameters hholds)

/-- A list of parameters stands first in what has one. -/
lemma LaidOut.exists_list {c : Node} (h : n.LaidOut) (hc : c ∈ n.children)
    (hlist : c.isParameterList = true) : ∃ closed list body,
      n.opens = some (closed, 0) ∧ n.children = list :: body ∧ list.isParameterList = true ∧
        ∀ c ∈ body, c.isParameterList = false := by
  have hkind := h.kind_of_list hc hlist
  -- A block has no list of parameters, or one in front of its body.
  have hblock {ns : List Node} (hns : n.children = ns)
      (hfits : Fits (.maybe (.of .blockParameters) :: NodeKind.bodyLayout) ns) :
      ∃ list body, n.children = list :: body ∧ list.isParameterList = true ∧
        ∀ c ∈ body, c.isParameterList = false := by
    cases hfits with
    | absent hbody =>
      rw [isParameterList_of_body hbody c (hns ▸ hc)] at hlist
      exact absurd hlist Bool.false_ne_true
    | present hfirst hbody =>
      exact ⟨_, _, hns, by simp [isParameterList, eq_of_beq hfirst], isParameterList_of_body hbody⟩
  rw [LaidOut] at h
  rcases hkind with hkind | hkind | hkind
  · rw [hkind] at h
    generalize hns : n.children = ns at h
    cases h with
    | one hfirst hbody =>
      exact ⟨true, _, _, by simp [opens, hkind], rfl, by simp [isParameterList, eq_of_beq hfirst],
        isParameterList_of_body hbody⟩
  · rw [hkind] at h
    exact ⟨false, (hblock rfl h).imp fun _ => .imp fun _ h => ⟨by simp [opens, hkind], h⟩⟩
  · rw [hkind] at h
    exact ⟨false, (hblock rfl h).imp fun _ => .imp fun _ h => ⟨by simp [opens, hkind], h⟩⟩

/-- In a list of parameters, what is no parameter is a variable of a block and stands behind them. -/
lemma LaidOut.exists_parameters (h : n.LaidOut) (hlist : n.isParameterList = true) :
    ∃ parameters locals, n.children = parameters ++ locals ∧
      (∀ c ∈ parameters, c.kind = .parameter ∨ c.kind = .multiTargets) ∧
      ∀ c ∈ locals, c.kind = .blockLocal := by
  have hall {ns : List Node} (hns : Fits [.many .parameter] ns) :
      ∀ c ∈ ns, c.kind = .parameter ∨ c.kind = .multiTargets := fun c hc => by
    simpa [NodeClass.has] using hns.forall_mem c hc
  rw [LaidOut] at h
  rcases Bool.or_eq_true_iff.mp hlist with hkind | hkind
  · rw [eq_of_beq hkind] at h
    exact ⟨n.children, [], by simp, hall h, by simp⟩
  · rw [eq_of_beq hkind] at h
    obtain ⟨parameters, locals, hchildren, hparameters, hlocals⟩ :=
      @Fits.of_append [.many .parameter] _ _ h
    refine ⟨parameters, locals, hchildren, hall hparameters, fun c hc => ?_⟩
    simpa [NodeClass.has] using hlocals.forall_mem c hc

/-- The children that stand outside of the scope that a node opens. -/
lemma LaidOut.exists_outer {closed : Bool} {outside : ℕ} (h : n.LaidOut)
    (hopens : n.opens = some (closed, outside)) :
    ∃ outer inner, n.children = outer ++ inner ∧ n.opens = some (closed, outer.length) := by
  have hle : outside ≤ n.children.length := by
    unfold opens at hopens
    split at hopens
    case h_4 =>
      cases hopens
      exact (List.takeWhile_sublist _).length_le
    case h_5 hkind =>
      cases hopens
      rw [LaidOut, hkind] at h
      generalize n.children = ns at h
      cases h
      simp
    all_goals cases hopens
    all_goals exact Nat.zero_le _
  refine ⟨n.children.take outside, n.children.drop outside, (List.take_append_drop _ _).symm, ?_⟩
  rw [hopens, List.length_take, Nat.min_eq_left hle]

end Node

open Analysis

/-- A node whose children are what its kind has, and nothing but parameters if it is a list of
them. -/
structure Orderly (n : Node) : Prop where
  sound : Sound n
  binds : n.isParameterList = true → ∀ c ∈ n.children, c.binds = true

namespace Orderly

/-- The variables of a block. -/
lemma mem_walkAll_locals (h : ∀ c ∈ ns, Orderly c) (hlocals : ∀ c ∈ ns, c.kind = .blockLocal) :
    ∀ p ∈ walkAll around place ns, p.1 = around ∧ p.2.kind = .blockLocal := by
  induction ns generalizing place with
  | nil => simp
  | cons c ns ih =>
    rw [List.forall_mem_cons] at h hlocals
    have hkind := hlocals.1
    have hleaf : c.children = [] := h.1.sound.1.children_eq_nil (by rw [hkind]; rfl)
    have hwalk : walk around place c = [(around, c)] := by
      rw [walk_of_opens_none (by simp [opens, hkind]) (by simp [hkind]), hleaf, walkAll_nil]
    rw [walkAll_cons, hwalk, List.singleton_append, List.forall_mem_cons]
    exact ⟨⟨rfl, hkind⟩, ih h.2 hlocals.2⟩

/-- A list of parameters, right inside a scope. -/
lemma enclosed_list {closed : Bool} (hn : Orderly n) (hlist : n.isParameterList = true)
    (hchildren : ∀ c ∈ n.children, Orderly c)
    (h : ∀ c ∈ n.children, c.binds = true → c.kind ≠ .blockLocal → ∀ place',
      (∀ scope ∈ ((place, closed) :: around).head?, scope.1 < place') →
        Listed ((place, closed) :: around) place' (walk ((place, closed) :: around) place' c)) :
    Enclosed place (walk ((place, closed) :: around) (place + 1) n) := by
  obtain ⟨parameters, locals, hsplit, hparameters, hlocals⟩ := hn.sound.1.exists_parameters hlist
  obtain ⟨hopens, hkind, hlisted, hdeclares⟩ : n.opens = none ∧ n.kind ≠ .parameter ∧
      n.isListed = false ∧ n.declares = false := by
    rcases Bool.or_eq_true_iff.mp hlist with hkind | hkind
    · simp [opens, declares, isListed, eq_of_beq hkind]
    · simp [opens, declares, isListed, eq_of_beq hkind]
  have hbinds := hn.binds hlist
  rw [hsplit, List.forall_mem_append] at h hbinds hchildren
  have hinside : ∀ scope ∈ ((place, closed) :: around).head?, scope.1 < place + 1 + 1 :=
    lt_of_mem_head?_cons (Nat.lt_succ_of_lt (Nat.lt_succ_self place))
  have hfirst : Listed ((place, closed) :: around) (place + 1)
      ([((place, closed) :: around, n)] ++
        walkAll ((place, closed) :: around) (place + 1 + 1) parameters) := by
    refine (Listed.one hlisted hdeclares).append (below_one hinside) ?_ (Nat.le_succ _)
    refine .each hinside fun c hc place' hplace => ?_
    refine h.1 c hc (hbinds.1 c hc) (fun hlocal => ?_) place' hplace
    simpa [hlocal] using hparameters c hc
  have hrest : ∀ p ∈ walkAll ((place, closed) :: around) (place + 1 + 1 + sizeEach parameters) locals,
      p.1 = (place, closed) :: around ∧ p.2.kind = .blockLocal :=
    mem_walkAll_locals hchildren.2 hlocals
  rw [walk_of_opens_none hopens hkind, hsplit, walkAll_append, ← List.singleton_append,
    ← List.append_assoc]
  refine (hfirst.enclosed (Nat.le_succ place)).append_locals (fun p hp => (hrest p hp).2) ?_
  exact fun p hp => ⟨(place, closed), by simp [(hrest p hp).1], Nat.le_refl place⟩

/-- A scope with a list of parameters in front of its body. -/
lemma enclosed_body {closed : Bool} {list : Node} {body : List Node}
    (hlisted : n.isListed = false) (hopens : n.opens = some (closed, 0))
    (hsplit : n.children = list :: body) (haround : ∀ scope ∈ around.head?, scope.1 < place)
    (hlist : Enclosed place (walk ((place, closed) :: around) (place + 1) list))
    (hbody : ∀ c ∈ body, ∀ place', (∀ scope ∈ ((place, closed) :: around).head?, scope.1 < place') →
      Enclosed place' (walk ((place, closed) :: around) place' c)) :
    Enclosed place (walk around place n) := by
  have hbelow : Below (place + 1 + list.size) (walk ((place, closed) :: around) (place + 1) list) :=
    below_walk (lt_of_mem_head?_cons (Nat.lt_succ_self place))
  have hrest := Enclosed.each
    (lt_of_mem_head?_cons (by omega : place < place + 1 + list.size)) hbody
  have hall := hlist.append hbelow hrest (by omega)
  have hinner : n.opens = some (closed, ([] : List Node).length) ∧ n.children = [] ++ list :: body :=
    ⟨hopens, hsplit⟩
  rw [walk_of_opens_some hinner.1 hinner.2, walkAll_nil, List.nil_append, sizeEach,
    Nat.add_zero, walkAll_cons, ← List.singleton_append]
  exact (Enclosed.one hlisted).append (below_one haround) hall (Nat.le_refl place)

/-- Any other node, whose children are no lists of parameters. -/
lemma enclosed_children (hn : Orderly n) (hlisted : n.isListed = false)
    (haround : ∀ scope ∈ around.head?, scope.1 < place)
    (h : ∀ c ∈ n.children, ∀ around place', (∀ scope ∈ around.head?, scope.1 < place') →
      Enclosed place' (walk around place' c)) : Enclosed place (walk around place n) := by
  have haround' : ∀ scope ∈ around.head?, scope.1 < place + 1 :=
    fun scope hscope => Nat.lt_succ_of_lt (haround scope hscope)
  cases hopens : n.opens with
  | none =>
    have hkind : n.kind ≠ .parameter := by
      rintro hkind
      rw [isListed_of_parameter hkind] at hlisted
      cases hlisted
    rw [walk_of_opens_none hopens hkind, ← List.singleton_append]
    exact (Enclosed.one hlisted).append (below_one haround')
      (.each haround' fun c hc => h c hc around) (Nat.le_succ place)
  | some scope =>
    obtain ⟨closed, outside⟩ := scope
    obtain ⟨outer, inner, hsplit, hopens⟩ := hn.sound.1.exists_outer hopens
    rw [hsplit, List.forall_mem_append] at h
    have houter : Enclosed (place + 1) (walkAll around (place + 1) outer) :=
      .each haround' fun c hc => h.1 c hc around
    have hinner : Enclosed (place + 1 + sizeEach outer)
        (walkAll ((place, closed) :: around) (place + 1 + sizeEach outer) inner) := by
      exact .each (lt_of_mem_head?_cons (by omega)) fun c hc => h.2 c hc _
    rw [walk_of_opens_some hopens hsplit, ← List.singleton_append]
    exact (Enclosed.one hlisted).append (below_one haround')
      (houter.append (below_walkAll haround') hinner (Nat.le_add_right _ _)) (Nat.le_succ place)

end Orderly

/-- What the walk over a tree tells about parameters: a list of them stands right inside a scope,
parameters stand in a list, and any other tree encloses the parameters in it. -/
structure Encloses (n : Node) : Prop where
  plain (hplain : Role.plain.Admits n) (hlist : n.isParameterList = false) (around : Scopes)
    (place : ℕ) (haround : ∀ scope ∈ around.head?, scope.1 < place) :
    Enclosed place (walk around place n)
  list (hlist : n.isParameterList = true) (place : ℕ) (closed : Bool) (around : Scopes) :
    Enclosed place (walk ((place, closed) :: around) (place + 1) n)
  bound (hbinds : n.binds = true) (hlocal : n.kind ≠ .blockLocal) (around : Scopes) (place : ℕ)
    (haround : ∀ scope ∈ around.head?, scope.1 < place) : Listed around place (walk around place n)

/-- Every tree tells so. -/
lemma encloses (h : n.Everywhere Orderly) : Encloses n := by
  induction h with
  | @intro n hn hchildren ih =>
    -- The children of a node that is no list are come upon as plain nodes.
    have hplain (hlist : n.isParameterList = false)
        (htargets : n.kind = .multiTargets → n.holdsParameter = false) {c : Node}
        (hc : c ∈ n.children) (hc' : c.isParameterList = false) := by
      rw [isParameterList, Bool.or_eq_false_iff, beq_eq_false_iff_ne, beq_eq_false_iff_ne] at hlist
      exact (ih c hc).plain (hn.sound.admits_plain hlist.1 hlist.2 htargets c hc) hc'
    constructor
    case plain =>
      rintro ⟨-, hlocal, hnone⟩ hlist around place haround
      have hlisted : n.isListed = false := by
        rw [holdsParameter_eq, Bool.or_eq_false_iff] at hnone
        simp [isListed, hnone.1, hlocal]
      by_cases hlists : ∃ c ∈ n.children, c.isParameterList = true
      · obtain ⟨c, hc, hlists⟩ := hlists
        obtain ⟨closed, list, body, hopens, hsplit, hfirst, hbody⟩ :=
          hn.sound.1.exists_list hc hlists
        refine Orderly.enclosed_body hlisted hopens hsplit haround ?_ fun c hc => ?_
        · exact (ih list (by simp [hsplit])).list hfirst place closed around
        · exact hplain hlist (fun _ => hnone) (by simp [hsplit, hc]) (hbody c hc) _
      · simp only [not_exists, not_and, Bool.not_eq_true] at hlists
        exact hn.enclosed_children hlisted haround fun c hc =>
          hplain hlist (fun _ => hnone) hc (hlists c hc)
    case list =>
      intro hlist place closed around
      exact hn.enclosed_list hlist (fun c hc => (hchildren c hc).root) fun c hc hbinds hlocal =>
        (ih c hc).bound hbinds hlocal _
    case bound =>
      intro hbinds hlocal around place haround
      have haround' : ∀ scope ∈ around.head?, scope.1 < place + 1 :=
        fun scope hscope => Nat.lt_succ_of_lt (haround scope hscope)
      by_cases hkind : n.kind = .parameter
      · refine .parameter hkind haround (.each haround' fun c hc => ?_)
        refine hplain (by simp [isParameterList, hkind]) (by simp [hkind]) hc ?_ _
        rw [← Bool.not_eq_true]
        intro hlist
        simpa [hkind] using hn.sound.1.kind_of_list hc hlist
      · obtain ⟨hgroup, hall⟩ : n.kind = .multiTargets ∧ n.children.all Node.binds = true := by
          rw [binds_eq] at hbinds
          simpa [hkind, hlocal] using hbinds
        rw [walk_of_opens_none (by simp [opens, hgroup]) hkind, ← List.singleton_append]
        refine (Listed.one (by simp [isListed, hgroup]) (by simp [declares, hgroup])).append
          (below_one haround') (.each haround' fun c hc => ?_) (Nat.le_succ place)
        refine (ih c hc).bound (List.all_eq_true.mp hall c hc) (fun hlocal => ?_) _
        have hholds := hn.sound.1.holds hc
        rw [hlocal] at hholds
        simp [NodeKind.of_holds_blockLocal hholds] at hgroup

/-! ### Which parameters are found to be unused -/

/-- A variable is bound as a parameter of the method, block or anonymous function whose scope it
belongs to. -/
def IsParameter (ps : List (Scopes × Node)) (v : ℕ × String) : Prop :=
  ∃ p ∈ ps, p.2.kind = .parameter ∧ declaration p = some v

/-- A parameter whose name is bound first by an assignment at a place in the default value of a
parameter of the same list, and is never read. -/
structure Overtaken (ps : List (Scopes × Node)) (v : ℕ × String) (at_ : Position) : Prop where
  named : Frame.mayStayUnused v.2 = false
  unread : v ∉ readings ps
  first : ∃ p ∈ ps, p.2.kind = .parameter ∧ declaration p = some v ∧
    ∃ q, AssignedInDefault ps p.1 q ∧ declaration q = some v ∧ binder? v [] ps = some q.2 ∧
      q.2.span.start = at_

/-- In front of the node that binds a variable first, none binds it. -/
lemma exists_append_of_binder? {ds : List (ℕ × String)} (h : binder? v ds ps = some n) :
    ∃ before around after, ps = before ++ (around, n) :: after ∧ binder? v ds before = none ∧
      binding? (ds ++ along binding? ds before) (around, n) = some v := by
  induction ps generalizing ds with
  | nil => cases h
  | cons p ps ih =>
    rw [binder?] at h
    split at h
    · rename_i hbinds
      obtain rfl := Option.some.inj h
      exact ⟨[], p.1, ps, rfl, rfl, by simpa [along] using hbinds⟩
    · rename_i hother
      obtain ⟨before, around, after, rfl, hnone, hbinds⟩ := ih h
      refine ⟨p :: before, around, after, rfl, ?_, ?_⟩
      · rw [binder?, if_neg hother, hnone]
      · rwa [along, ← List.append_assoc]

/-- A parameter is bound wherever it stands. -/
lemma mem_along_of_parameter {ds : List (ℕ × String)} (hp : p ∈ ps) (hkind : p.2.kind = .parameter)
    (hv : declaration p = some v) : v ∈ along binding? ds ps := by
  obtain ⟨before, after, rfl⟩ := List.append_of_mem hp
  have hbinds (ds : List (ℕ × String)) : binding? ds p = some v := by
    rw [binding?, if_neg (by simp [hkind]), hv]
  simp [along_append, along, hbinds]

/-- An assignment that binds a variable assigns to it. -/
lemma assignment?_of_binding? {ds : List (ℕ × String)} (h : binding? ds p = some v)
    (hkind : p.2.kind = .localTarget) : assignment? ds p = some v := by
  unfold binding? at h
  split at h
  · cases h
  · rename_i hfree
    have hnone : resolve? ds p.1 p.2.name = none := by
      rw [← Option.not_isSome_iff_eq_none]
      exact fun hsome => hfree ⟨hkind, hsome⟩
    rw [assignment?, if_pos hkind, hnone, h]
    rfl

/-- An assignment that binds a variable first assigns to it. -/
lemma mem_assignments_of_binder? (h : binder? v [] ps = some n) (hkind : n.kind = .localTarget) :
    v ∈ assignments ps := by
  obtain ⟨before, around, after, rfl, -, hbinds⟩ := exists_append_of_binder? h
  have hassigns := assignment?_of_binding? hbinds hkind
  rw [assignments, along_append, along, hassigns]
  simp

/-- What a node binds it declares. -/
lemma declaration_of_binding? {ds : List (ℕ × String)} (h : binding? ds p = some v) :
    declaration p = some v := by
  unfold binding? at h
  split at h
  · cases h
  · exact h

/-- Where parameters lead their scopes, those that are left unused are overtaken. -/
lemma leftUnused_iff_overtaken (h : Enclosed 1 ps) :
    LeftUnused ps v at_ ∧ IsParameter ps v ↔ Overtaken ps v at_ := by
  constructor
  · rintro ⟨hunused, p, hp, hparameter, hdeclares⟩
    obtain ⟨n, hbinder, hkind, hat⟩ := hunused.first
    obtain ⟨before, around, after, rfl, hnone, hbinds⟩ := exists_append_of_binder? hbinder
    refine ⟨hunused.named, hunused.unread, p, hp, hparameter, hdeclares, (around, n), ?_,
      declaration_of_binding? hbinds, hbinder, hat⟩
    -- The parameter stands behind what binds its name first.
    obtain ⟨between, rest, rfl⟩ : ∃ between rest, after = between ++ p :: rest := by
      rcases List.mem_append.mp hp with hp | hp
      · have hbound : (binder? v [] before).isSome = true :=
          isSome_binder?.mpr (mem_along_of_parameter hp hparameter hdeclares)
        rw [hnone] at hbound
        cases hbound
      · rcases List.mem_cons.mp hp with rfl | hp
        · exact absurd hparameter hkind
        · exact List.append_of_mem hp
    have hsplit : before ++ (around, n) :: (between ++ p :: rest) =
        (before ++ (around, n) :: between) ++ p :: rest := by simp
    refine (h.lead hsplit hparameter (around, n) (by simp) v (declaration_of_binding? hbinds)
      (opener_of_declaration hdeclares)).resolve_left hkind
  · rintro ⟨hnamed, hunread, p, hp, hparameter, hdeclares, q, hdefault, -, hbinder, hat⟩
    have hkind : q.2.kind = .localTarget := by
      obtain ⟨before, place, n, after, -, -, -, hkind⟩ := hdefault
      exact hkind
    obtain ⟨scope, hscope, hle⟩ := h.inner p hp (isListed_of_parameter hparameter)
    obtain ⟨scope', hscope', heq⟩ := opener_of_declaration hdeclares
    obtain rfl := Option.mem_unique hscope hscope'
    refine ⟨⟨by omega, hnamed, ⟨q.2, hbinder, by simp [hkind], hat⟩, ?_, hunread⟩, p, hp,
      hparameter, hdeclares⟩
    exact mem_assignments_of_binder? hbinder hkind

/-! ### Texts -/

namespace SyntaxTree

/-- In every tree that is read the children of a node are what its kind has, and a list of parameters has
nothing but what it binds. -/
lemma orderly_ofText (limits : Limits) (source : List Char) :
    (ofText limits source).root.Everywhere Orderly := by
  have hspelled := spelled_ofTokens limits (TokenStream.ofText source).tokens
  refine ((sound_ofText limits source).and hspelled).mono fun n h => ⟨h.1, fun hlist => ?_⟩
  have hbinds := h.2
  unfold Node.Spelled at hbinds
  rcases Bool.or_eq_true_iff.mp hlist with hkind | hkind
  · rw [eq_of_beq hkind] at hbinds
    exact hbinds
  · rw [eq_of_beq hkind] at hbinds
    exact hbinds

/-- In every text, parameters lead their scopes, and none of them is one of the program. -/
lemma enclosed_ofText (limits : Limits) (source : List Char) :
    Enclosed 1 (ofText limits source).root.walked := by
  obtain ⟨span, ns, hroot⟩ := root_ofText limits source
  have horderly := orderly_ofText limits source
  rw [hroot] at horderly ⊢
  have hsound := horderly.root.sound
  have hplain := hsound.admits_plain (by simp [Node.inner]) (by simp [Node.inner])
    (by simp [Node.inner])
  have hchildren : (Node.inner .program span ns).children = [] ++ ns := rfl
  rw [walked, walk_of_opens_some rfl hchildren, walkAll_nil, List.nil_append,
    ← List.singleton_append]
  refine (Enclosed.one rfl).append (?_ : Below 1 _) (.each (by simp) fun c hc => ?_) (Nat.le_refl 1)
  · intro p hp scope hscope
    rw [List.mem_singleton.mp hp] at hscope
    cases hscope
  · refine (encloses (horderly.children c hc)).plain (hplain c hc) ?_ _
    rw [← Bool.not_eq_true]
    intro hlist
    simpa [Node.inner] using hsound.1.kind_of_list hc hlist

end SyntaxTree

namespace Reading

/-- No token tells of a variable that is unused. -/
lemma filter_isUnusedVariable (limits : Limits) (source : List Char) :
    ((ofText limits source).findings.filter (·.isUnusedVariable)).Perm
      ((State.initial.run (eventsOfProgram (ofText limits source).tree)).found.filter
        (·.isUnusedVariable)) := by
  have htokens : (tokenFindings (ofText limits source).tree.errorSpans
      (ofText limits source).stream.tokens).filter (·.isUnusedVariable) = [] := by
    refine List.filter_eq_nil_iff.mpr fun f hf hunused => ?_
    have hcause := isOfToken_of_mem_tokenFindings f hf
    unfold Finding.isUnusedVariable at hunused
    split at hunused
    · rename_i hkind
      simp [hkind, Finding.Cause.isOfToken] at hcause
    · simp at hunused
  rw [findings, Analysis.findings, List.filter_append, htokens, List.append_nil, treeFindings,
    List.filter_reverse]
  exact List.reverse_perm _

/-- In every text, a parameter is found to be unused exactly if an assignment in a default value
overtakes it, and then at the place of that assignment.  So where no default value assigns to the
name of a parameter of the same list, no parameter is found to be unused. -/
theorem unused_parameters (limits : Limits) (source : List Char) :
    ∃ unused : List ((ℕ × String) × Position), (unused.map Prod.fst).Nodup ∧
      ((ofText limits source).findings.filter (·.isUnusedVariable)).Perm
        (unused.map fun x => ⟨.unusedVariable x.1.2, x.2⟩) ∧
      (∀ x ∈ unused, LeftUnused (ofText limits source).tree.root.walked x.1 x.2) ∧
      ∀ v at_, (v, at_) ∈ unused ∧ IsParameter (ofText limits source).tree.root.walked v ↔
        Overtaken (ofText limits source).tree.root.walked v at_ := by
  obtain ⟨unused, hnodup, hmem, hperm⟩ := (booked_ofText limits source).found
  have hunused (x : (ℕ × String) × Position) :
      x ∈ unused ↔ LeftUnused (ofText limits source).tree.root.walked x.1 x.2 := by
    rw [hmem]
    -- The program is the only scope left, and its variables do not count.
    refine and_iff_left_of_imp fun hx => ?_
    simpa using hx.inner
  refine ⟨unused, hnodup, (filter_isUnusedVariable limits source).trans hperm,
    fun x hx => (hunused x).mp hx, fun v at_ => ?_⟩
  rw [hunused]
  exact leftUnused_iff_overtaken (SyntaxTree.enclosed_ofText limits source)

/-- A parameter whose own default value assigns to it is found to be unused. -/
theorem unused_parameter_default :
    let reading := ofText .standard "def f(x = (x = 1))\nend\n".toList
    reading.tree.faults = [] ∧ IsParameter reading.tree.root.walked (1, "x") ∧
      reading.findings = [⟨.unusedVariable "x", ⟨11, 0, 11⟩⟩] := by
  refine ⟨by decide +kernel, ?_, by decide +kernel⟩
  unfold IsParameter
  decide +kernel

end Reading

end RubyCheck
