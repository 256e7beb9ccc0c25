import RubyCheck.Proofs.Tree.Scope

/-!
# What names resolve to

A tree is walked in pre-order, but a parameter comes behind its default value (`Node.walk`).  On the
way nodes bind names in scopes, assign to variables and read them; a variable is a scope and a name.
A name resolves to the variable of the nearest scope in which it is bound already, outwards through
open scopes up to and including the first closed one (`resolve?`).  A parameter or a variable of a
block is bound in the innermost scope, and so is what is assigned to unless its name resolves
(`binding?`).

`bindings`, `assignments` and `readings` list the variables that the nodes of a walk bind, assign to
and read, each node with what is bound in front of it.
-/

namespace RubyCheck

namespace Node

mutual

/-- The nodes of a tree in the order of a walk, with the scopes around each: a parameter comes
behind its default value, every other node in front of its children. -/
def walk (around : Scopes) (place : ℕ) : Node → List (Scopes × Node)
  | ⟨kind, span, text, children⟩ =>
    let below :=
      match opens ⟨kind, span, text, children⟩ with
      | none => walkEach around around 0 (place + 1) children
      | some (closed, outside) =>
        walkEach around ((place, closed) :: around) outside (place + 1) children
    if kind = .parameter then below ++ [(around, ⟨kind, span, text, children⟩)]
    else (around, ⟨kind, span, text, children⟩) :: below

/-- The same for several trees, the first of which stand outside a scope. -/
def walkEach (around inside : Scopes) (outside place : ℕ) : List Node → List (Scopes × Node)
  | [] => []
  | n :: ns =>
    match outside with
    | 0 => walk inside place n ++ walkEach around inside 0 (place + n.size) ns
    | outside + 1 => walk around place n ++ walkEach around inside outside (place + n.size) ns

end

/-- The nodes of a tree in the order of a walk, with the scopes around each. -/
def walked (n : Node) : List (Scopes × Node) := walk [] 0 n

/-- Trees that all stand in the same scopes. -/
def walkAll (around : Scopes) (place : ℕ) (ns : List Node) : List (Scopes × Node) :=
  walkEach around around 0 place ns

variable {around inside : Scopes} {outside place : ℕ} {n : Node} {ns ms outer inner : List Node}

@[simp] lemma walkAll_nil : walkAll around place [] = [] := rfl

/-- The first of several trees is walked first. -/
lemma walkAll_cons :
    walkAll around place (n :: ns) = walk around place n ++ walkAll around (place + n.size) ns :=
  rfl

/-- One tree by itself is walked as it is. -/
lemma walkAll_one : walkAll around place [n] = walk around place n := by
  rw [walkAll_cons, walkAll_nil, List.append_nil]

/-- If no tree stands outside the scope, all are walked inside. -/
lemma walkEach_zero : walkEach around inside 0 place ns = walkAll inside place ns := by
  induction ns generalizing place with
  | nil => rfl
  | cons n ns ih => rw [walkEach, ih, walkAll_cons]

/-- The trees outside a scope, and those inside it. -/
lemma walkEach_append :
    walkEach around inside outer.length place (outer ++ inner) =
      walkAll around place outer ++ walkAll inside (place + sizeEach outer) inner := by
  induction outer generalizing place with
  | nil => simp [walkEach_zero, sizeEach]
  | cons n outer ih =>
    rw [List.cons_append, List.length_cons, walkEach, ih, walkAll_cons, sizeEach,
      List.append_assoc, Nat.add_assoc]

/-- Trees in a row are walked one behind another. -/
lemma walkAll_append :
    walkAll around place (ns ++ ms) =
      walkAll around place ns ++ walkAll around (place + sizeEach ns) ms := by
  induction ns generalizing place with
  | nil => simp [sizeEach]
  | cons n ns ih =>
    rw [List.cons_append, walkAll_cons, ih, walkAll_cons, sizeEach, List.append_assoc,
      Nat.add_assoc]

/-- A node that opens no scope, other than a parameter. -/
lemma walk_of_opens_none (hopens : n.opens = none) (hkind : n.kind ≠ .parameter) :
    walk around place n = (around, n) :: walkAll around (place + 1) n.children := by
  obtain ⟨kind, span, text, children⟩ := n
  rw [walk, hopens, if_neg hkind]
  rfl

/-- A parameter comes behind its default value. -/
lemma walk_of_parameter (hkind : n.kind = .parameter) :
    walk around place n = walkAll around (place + 1) n.children ++ [(around, n)] := by
  obtain ⟨kind, span, text, children⟩ := n
  rw [walk, if_pos hkind]
  obtain rfl : kind = .parameter := hkind
  rfl

/-- A node that opens a scope for the last of its children. -/
lemma walk_of_opens_some {closed : Bool} (hopens : n.opens = some (closed, outer.length))
    (hchildren : n.children = outer ++ inner) :
    walk around place n =
      (around, n) :: (walkAll around (place + 1) outer ++
        walkAll ((place, closed) :: around) (place + 1 + sizeEach outer) inner) := by
  obtain ⟨kind, span, text, children⟩ := n
  obtain rfl : children = outer ++ inner := hchildren
  have hkind : kind ≠ .parameter := by
    rintro rfl
    simp [opens] at hopens
  rw [walk, hopens, if_neg hkind]
  dsimp only
  rw [walkEach_append]

mutual

/-- A walk comes upon the nodes of the tree, each once. -/
lemma walk_perm {around : Scopes} {place : ℕ} : (n : Node) →
    (walk around place n).Perm (situate around place n)
  | ⟨kind, span, text, children⟩ => by
    have hbelow : ∀ below below' : List (Scopes × Node), below.Perm below' →
        (if kind = .parameter then below ++ [(around, ⟨kind, span, text, children⟩)]
          else (around, ⟨kind, span, text, children⟩) :: below).Perm
            ((around, ⟨kind, span, text, children⟩) :: below') := by
      intro below below' hperm
      split
      · exact (List.perm_append_singleton _ _).trans (hperm.cons _)
      · exact hperm.cons _
    rw [walk, situate]
    refine hbelow _ _ ?_
    cases opens ⟨kind, span, text, children⟩ with
    | none => exact walkEach_perm children
    | some scope => exact walkEach_perm children

/-- A walk over several trees comes to the same nodes as the pre-order does. -/
lemma walkEach_perm {around inside : Scopes} {outside place : ℕ} : (ns : List Node) →
    (walkEach around inside outside place ns).Perm (situateEach around inside outside place ns)
  | [] => .nil
  | n :: ns => by
    cases outside with
    | zero => exact (walk_perm n).append (walkEach_perm ns)
    | succ outside => exact (walk_perm n).append (walkEach_perm ns)

end

/-- Whatever is come upon in some trees stands in the scopes around them or in one that is opened
there. -/
lemma head?_of_mem_walkAll {p : Scopes × Node} (hp : p ∈ walkAll around place ns) :
    ∀ scope ∈ p.1.head?, scope ∈ around.head? ∨ place ≤ scope.1 := by
  intro scope hscope
  rcases head?_of_mem_situateEach ns p ((walkEach_perm ns).mem_iff.mp hp) scope hscope with h | h | h
  · exact .inl h
  · exact .inl h
  · exact .inr h.1

end Node

/-! ### Names and variables -/

/-- The nearest variable of a name among some that are bound, as it is seen from inside some
scopes. -/
def resolve? (ds : List (ℕ × String)) (around : Scopes) (name : String) : Option (ℕ × String) :=
  ((visible around).map fun opener => (opener, name)).find? fun v => ds.contains v

/-- The scopes around an open scope; none if the innermost one is closed. -/
def beyond : Scopes → Scopes
  | (_, false) :: around => around
  | _ => []

/-- The variable that a node binds where some are bound already.  An assignment to a name that
resolves binds none. -/
def binding? (ds : List (ℕ × String)) (p : Scopes × Node) : Option (ℕ × String) :=
  if p.2.kind = .localTarget ∧ (resolve? ds p.1 p.2.name).isSome then none else declaration p

/-- The variable that a node assigns to. -/
def assignment? (ds : List (ℕ × String)) (p : Scopes × Node) : Option (ℕ × String) :=
  if p.2.kind = .localTarget then (resolve? ds p.1 p.2.name).or (declaration p) else none

/-- The name that a node reads, and the scopes from inside which it is read.  An assignment with an
operator reads the variable it assigns to, and a parameter of a block reads the variable around the
block that it hides. -/
def mention? (p : Scopes × Node) : Option (Scopes × String) :=
  match p.2.kind with
  | .localVariable => some (p.1, p.2.name)
  | .opAssignment =>
    (p.2.children.head?.filter (·.kind == .localTarget)).map fun target => (p.1, target.name)
  | .parameter => if p.2.declares then some (beyond p.1, p.2.name) else none
  | _ => none

/-- The variable that a node reads. -/
def reading? (ds : List (ℕ × String)) (p : Scopes × Node) : Option (ℕ × String) :=
  (mention? p).bind fun m => resolve? ds m.1 m.2

/-- The variables that are found for the nodes of a walk, each with what is bound in front of it. -/
def along (f : List (ℕ × String) → Scopes × Node → Option (ℕ × String)) (ds : List (ℕ × String)) :
    List (Scopes × Node) → List (ℕ × String)
  | [] => []
  | p :: ps => (f ds p).toList ++ along f (ds ++ (binding? ds p).toList) ps

/-- The variables that the nodes of a walk bind. -/
def bindings (ps : List (Scopes × Node)) : List (ℕ × String) := along binding? [] ps

/-- The variables that the nodes of a walk assign to. -/
def assignments (ps : List (Scopes × Node)) : List (ℕ × String) := along assignment? [] ps

/-- The variables that the nodes of a walk read. -/
def readings (ps : List (Scopes × Node)) : List (ℕ × String) := along reading? [] ps

/-- The first node of a walk that binds a variable. -/
def binder? (v : ℕ × String) (ds : List (ℕ × String)) : List (Scopes × Node) → Option Node
  | [] => none
  | p :: ps =>
    if binding? ds p = some v then some p.2 else binder? v (ds ++ (binding? ds p).toList) ps

variable {ds : List (ℕ × String)} {p : Scopes × Node} {ps qs : List (Scopes × Node)}
  {around : Scopes} {name : String} {v : ℕ × String}
  {f : List (ℕ × String) → Scopes × Node → Option (ℕ × String)}

/-! ### Resolution -/

/-- What a name resolves to is bound, has the name, and can be seen. -/
lemma mem_of_resolve? (h : resolve? ds around name = some v) :
    v ∈ ds ∧ v.2 = name ∧ v.1 ∈ visible around := by
  have hbound := List.find?_some h
  obtain ⟨opener, hopener, rfl⟩ := List.mem_map.mp (List.mem_of_find?_eq_some h)
  exact ⟨List.contains_iff_mem.mp hbound, rfl, hopener⟩

@[simp] lemma resolve?_nil : resolve? ds [] name = none := rfl

/-- The innermost scope comes first, and what is around it only if it is open. -/
lemma resolve?_cons (opener : ℕ) (closed : Bool) :
    resolve? ds ((opener, closed) :: around) name =
      if (opener, name) ∈ ds then some (opener, name)
      else if closed then none else resolve? ds around name := by
  by_cases hbound : (opener, name) ∈ ds
  · simp [resolve?, visible, hbound]
  · cases closed with
    | true => simp [resolve?, visible, hbound]
    | false => simp [resolve?, visible, hbound]

/-- What is seen beyond a scope is seen from inside it. -/
lemma resolve?_beyond_subset {opener : ℕ} (h : opener ∈ visible (beyond around)) :
    opener ∈ visible around := by
  unfold beyond at h
  split at h
  · exact List.mem_cons_of_mem _ h
  · simp [visible] at h

/-- What is read is bound. -/
lemma mem_of_reading? (h : reading? ds p = some v) : v ∈ ds := by
  obtain ⟨m, -, hv⟩ := Option.bind_eq_some_iff.mp h
  exact (mem_of_resolve? hv).1

/-- What is assigned to is bound, if only then. -/
lemma mem_of_assignment? (h : assignment? ds p = some v) : v ∈ ds ∨ binding? ds p = some v := by
  unfold assignment? at h
  split at h
  · rename_i hkind
    cases hresolve : resolve? ds p.1 p.2.name with
    | none =>
      rw [hresolve, Option.none_or] at h
      refine .inr ?_
      rw [binding?, hresolve, if_neg (by simp)]
      exact h
    | some w =>
      rw [hresolve, Option.some_or] at h
      obtain rfl := Option.some.inj h
      exact .inl (mem_of_resolve? hresolve).1
  · simp at h

/-- A node declares in its innermost scope. -/
lemma opener_of_declaration (h : declaration p = some v) : ∃ scope ∈ p.1.head?, scope.1 = v.1 := by
  unfold declaration at h
  split at h
  · obtain ⟨scope, hscope, rfl⟩ := Option.map_eq_some_iff.mp h
    exact ⟨scope, hscope, rfl⟩
  · simp at h

/-- A node binds in its innermost scope. -/
lemma opener_of_binding? (h : binding? ds p = some v) : ∃ scope ∈ p.1.head?, scope.1 = v.1 := by
  unfold binding? at h
  split at h
  · simp at h
  · exact opener_of_declaration h

/-- A node binds variables of the scopes around it only. -/
lemma mem_of_binding? (h : binding? ds p = some v) : v.1 ∈ p.1.map Prod.fst := by
  obtain ⟨scope, hscope, hopener⟩ := opener_of_binding? h
  rw [← hopener]
  exact List.mem_map_of_mem (List.mem_of_mem_head? hscope)

/-- A scope that is seen is one of those around. -/
lemma mem_map_of_mem_visible {opener : ℕ} (h : opener ∈ visible around) :
    opener ∈ around.map Prod.fst := by
  obtain ⟨scope, hscope, rfl⟩ := visible_subset h
  exact List.mem_map_of_mem hscope

/-- A node assigns to variables of the scopes around it only. -/
lemma opener_of_assignment? (h : assignment? ds p = some v) : v.1 ∈ p.1.map Prod.fst := by
  unfold assignment? at h
  split at h
  · cases hresolve : resolve? ds p.1 p.2.name with
    | none =>
      rw [hresolve, Option.none_or] at h
      obtain ⟨scope, hscope, hopener⟩ := opener_of_declaration h
      rw [← hopener]
      exact List.mem_map_of_mem (List.mem_of_mem_head? hscope)
    | some w =>
      rw [hresolve, Option.some_or] at h
      obtain rfl := Option.some.inj h
      exact mem_map_of_mem_visible (mem_of_resolve? hresolve).2.2
  · simp at h

/-- A node reads variables of the scopes around it only. -/
lemma opener_of_reading? (h : reading? ds p = some v) : v.1 ∈ p.1.map Prod.fst := by
  obtain ⟨m, hm, hv⟩ := Option.bind_eq_some_iff.mp h
  have hvisible := (mem_of_resolve? hv).2.2
  refine mem_map_of_mem_visible ?_
  unfold mention? at hm
  split at hm
  · obtain rfl := Option.some.inj hm
    exact hvisible
  · obtain ⟨target, -, rfl⟩ := Option.map_eq_some_iff.mp hm
    exact hvisible
  · split at hm
    · obtain rfl := Option.some.inj hm
      exact resolve?_beyond_subset hvisible
    · simp at hm
  · simp at hm

/-! ### Walks -/

/-- What is taken down along two parts of a walk is taken down behind the bindings of the first. -/
lemma along_append (ps qs : List (Scopes × Node)) :
    along f ds (ps ++ qs) = along f ds ps ++ along f (ds ++ along binding? ds ps) qs := by
  induction ps generalizing ds with
  | nil => simp [along]
  | cons p ps ih => simp [along, ih]

/-- What a last node adds depends on all that is bound in front of it. -/
lemma along_concat (p : Scopes × Node) (ps : List (Scopes × Node)) :
    along f [] (ps ++ [p]) = along f [] ps ++ (f (bindings ps) p).toList := by
  rw [along_append]
  simp [along, bindings]

/-- A variable is bound first in the first part of a walk, or else in the second. -/
lemma binder?_append (ps qs : List (Scopes × Node)) :
    binder? v ds (ps ++ qs) = (binder? v ds ps).or (binder? v (ds ++ along binding? ds ps) qs) := by
  induction ps generalizing ds with
  | nil => simp [binder?, along]
  | cons p ps ih =>
    rw [List.cons_append, binder?, binder?, along]
    split
    · rfl
    · rw [ih, List.append_assoc]

/-- The last node of a walk binds a variable first if none in front of it does. -/
lemma binder?_concat (p : Scopes × Node) (ps : List (Scopes × Node)) :
    binder? v [] (ps ++ [p]) =
      (binder? v [] ps).or (if binding? (bindings ps) p = some v then some p.2 else none) := by
  rw [binder?_append]
  rfl

/-- Every variable that is bound has a first node that binds it. -/
lemma isSome_binder? : (binder? v ds ps).isSome = true ↔ v ∈ along binding? ds ps := by
  induction ps generalizing ds with
  | nil => simp [binder?, along]
  | cons p ps ih =>
    rw [binder?, along, List.mem_append, Option.mem_toList]
    split
    · rename_i hbinds
      simp [hbinds]
    · rename_i hother
      rw [ih, or_iff_right (fun h => hother h)]

/-- What is found for the nodes of a walk is bound, if each time it is bound or is then. -/
lemma mem_bindings_of_mem_along
    (hf : ∀ {ds p v}, f ds p = some v → v ∈ ds ∨ binding? ds p = some v)
    (h : v ∈ along f ds ps) : v ∈ ds ∨ v ∈ along binding? ds ps := by
  induction ps generalizing ds with
  | nil => simp [along] at h
  | cons p ps ih =>
    rw [along, List.mem_append, Option.mem_toList] at h ⊢
    rcases h with h | h
    · rcases hf h with h | h
      · exact .inl h
      · exact .inr (.inl h)
    · rcases ih h with h | h
      · rw [List.mem_append, Option.mem_toList] at h
        exact h.imp_right .inl
      · exact .inr (.inr h)

/-- Whatever is found for the nodes of a walk is found for one of them. -/
lemma exists_of_mem_along (h : v ∈ along f ds ps) : ∃ p ∈ ps, ∃ ds, f ds p = some v := by
  induction ps generalizing ds with
  | nil => simp [along] at h
  | cons p ps ih =>
    rw [along, List.mem_append, Option.mem_toList] at h
    rcases h with h | h
    · exact ⟨p, List.mem_cons_self, ds, h⟩
    · obtain ⟨q, hq, hfound⟩ := ih h
      exact ⟨q, List.mem_cons_of_mem p hq, hfound⟩

/-- Every variable bound in some trees belongs to the innermost scope around them or to one that is
opened in them. -/
lemma opener_of_mem_bindings {place : ℕ} {ns : List Node}
    (hv : v ∈ bindings (ps ++ Node.walkAll around place ns)) :
    v ∈ bindings ps ∨ (∃ scope ∈ around.head?, scope.1 = v.1) ∨ place ≤ v.1 := by
  rw [bindings, along_append, List.mem_append] at hv
  refine hv.imp_right fun hv => ?_
  obtain ⟨p, hp, ds, hbinds⟩ := exists_of_mem_along hv
  obtain ⟨scope, hscope, hopener⟩ := opener_of_binding? hbinds
  rcases Node.head?_of_mem_walkAll hp scope hscope with hhead | hplace
  · exact .inl ⟨scope, hhead, hopener⟩
  · exact .inr (hopener ▸ hplace)

/-- A variable that is read is bound. -/
lemma mem_bindings_of_mem_readings (h : v ∈ readings ps) : v ∈ bindings ps :=
  (mem_bindings_of_mem_along (fun h => .inl (mem_of_reading? h)) h).resolve_left (by simp)

/-- A variable that is assigned to is bound. -/
lemma mem_bindings_of_mem_assignments (h : v ∈ assignments ps) : v ∈ bindings ps :=
  (mem_bindings_of_mem_along mem_of_assignment? h).resolve_left (by simp)

end RubyCheck
