import RubyCheck.Proofs.Tree.Layout
import RubyCheck.Tree.LiteralValue

/-!
# Scopes of a tree

Some nodes open a scope for their children, or for those that make up their body.  A closed scope
hides the variables of the scopes around it; an open one, such as that of a block, does not.  Every
node of a tree stands in the scopes around it (`Node.situated`), and which of these can be seen from
it depends on nothing but whether they are closed (`visible`).
-/

namespace RubyCheck

namespace Node

/-- Whether a node is a bare name: the use of a variable, or a call with nothing but its name. -/
def isBareName (n : Node) : Bool :=
  n.kind == .localVariable || n.kind == .call && n.children.isEmpty

/-- Whether a node makes its name a local variable. -/
def declares (n : Node) : Bool :=
  match n.kind with
  | .localTarget | .blockLocal => true
  | .parameter => n.name != "" && n.name != "..."
  | _ => false

/-- Whether a finding may point at a node: at a variable or what makes one, a hook or a literal. -/
def isPointedAt (n : Node) : Bool :=
  n.kind == .localVariable || n.kind == .endBlock || n.declares || n.literal?.isSome

/-- The scope that a node opens: whether it is closed, and how many of the children stand outside
it. The superclass of a class and the object of a singleton class do. -/
def opens (n : Node) : Option (Bool × ℕ) :=
  match n.kind with
  | .program | .methodDef | .moduleDef => some (true, 0)
  | .classDef => some (true, (n.children.takeWhile (·.kind != .statements)).length)
  | .singletonClass => some (true, 1)
  | .block | .lambda | .beginBlock | .endBlock => some (false, 0)
  | _ => none

/-- Whether no parameter is among the targets that a node assigns to. -/
def assignsNoParameter (n : Node) : Bool :=
  match n.kind with
  | .multipleAssignment | .for_ => n.children.all (!·.holdsParameter)
  | _ => true

/-- Whether a node has nothing to do with variables by itself, and assigns to no parameter. -/
def isInert (n : Node) : Bool :=
  !n.isBareName && !n.declares && n.opens.isNone && n.assignsNoParameter

/-- A node that has nothing to do with variables assigns to no parameter. -/
lemma assignsNoParameter_of_isInert {n : Node} (h : n.isInert = true) :
    n.assignsNoParameter = true :=
  (Bool.and_eq_true_iff.mp h).2

/-- A node that opens a scope assigns to no parameter. -/
lemma assignsNoParameter_of_opens {n : Node} {scope : Bool × ℕ} (h : n.opens = some scope) :
    n.assignsNoParameter = true := by
  unfold assignsNoParameter
  split
  · rename_i hkind
    simp [opens, hkind] at h
  · rename_i hkind
    simp [opens, hkind] at h
  · rfl

/-- An assignment to several targets, or a loop over some. -/
lemma isInert_of_forall {n : Node} (hkind : n.kind = .multipleAssignment ∨ n.kind = .for_)
    (h : ∀ c ∈ n.children, c.holdsParameter = false) : n.isInert = true := by
  have hassigns : n.assignsNoParameter = true := by
    rcases hkind with hkind | hkind
    · simpa [assignsNoParameter, hkind] using h
    · simpa [assignsNoParameter, hkind] using h
  rcases hkind with hkind | hkind
  · simp [isInert, isBareName, declares, opens, hkind, hassigns]
  · simp [isInert, isBareName, declares, opens, hkind, hassigns]

end Node

/-- The scopes around a node, innermost first: where the node that opens each of them stands in
pre-order, and whether the scope is closed. -/
abbrev Scopes := List (ℕ × Bool)

/-- The scopes whose variables can be seen from inside some scopes: all up to the first closed
one. -/
def visible : Scopes → List ℕ
  | [] => []
  | (opener, closed) :: around => opener :: if closed then [] else visible around

namespace Node

mutual

/-- The nodes of a tree in pre-order with the scopes around each, when the tree stands at a place of
the order. -/
def situate (around : Scopes) (place : ℕ) : Node → List (Scopes × Node)
  | ⟨kind, span, text, children⟩ =>
    (around, ⟨kind, span, text, children⟩) ::
      match opens ⟨kind, span, text, children⟩ with
      | none => situateEach around around 0 (place + 1) children
      | some (closed, outside) =>
        situateEach around ((place, closed) :: around) outside (place + 1) children

/-- The same for several trees, the first of which stand outside a scope. -/
def situateEach (around inside : Scopes) (outside place : ℕ) : List Node → List (Scopes × Node)
  | [] => []
  | n :: ns =>
    match outside with
    | 0 => situate inside place n ++ situateEach around inside 0 (place + n.size) ns
    | outside + 1 =>
      situate around place n ++ situateEach around inside outside (place + n.size) ns

end

/-- The nodes of a tree in pre-order with the scopes around each. -/
def situated (n : Node) : List (Scopes × Node) := situate [] 0 n

/-- Trees that all stand in the same scopes. -/
def situateAll (around : Scopes) (place : ℕ) (ns : List Node) : List (Scopes × Node) :=
  situateEach around around 0 place ns

variable {around inside : Scopes} {outside place : ℕ} {n : Node} {ns ms outer inner : List Node}

@[simp] lemma situateAll_nil : situateAll around place [] = [] := rfl

/-- If no tree stands outside the scope, all are inside. -/
lemma situateEach_zero : situateEach around inside 0 place ns = situateAll inside place ns := by
  induction ns generalizing place with
  | nil => rfl
  | cons n ns ih =>
    rw [situateAll, situateEach, situateEach, ih, situateAll]

/-- The first of several trees takes up as many places as it has nodes. -/
lemma situateAll_cons :
    situateAll around place (n :: ns) =
      situate around place n ++ situateAll around (place + n.size) ns := rfl

/-- Where the scopes inside and outside are the same, it does not matter how many trees stand outside. -/
lemma situateEach_same :
    situateEach around around outside place ns = situateAll around place ns := by
  induction ns generalizing place outside with
  | nil => rfl
  | cons n ns ih =>
    cases outside with
    | zero => rfl
    | succ outside =>
      rw [situateEach, ih, situateAll_cons]

/-- The trees outside a scope, and those inside it. -/
lemma situateEach_append :
    situateEach around inside outer.length place (outer ++ inner) =
      situateAll around place outer ++ situateAll inside (place + sizeEach outer) inner := by
  induction outer generalizing place with
  | nil => simp [situateEach_zero, sizeEach]
  | cons n outer ih =>
    rw [List.cons_append, List.length_cons, situateEach, ih, situateAll_cons, sizeEach,
      List.append_assoc, Nat.add_assoc]

/-- Trees in a row stand one behind another. -/
lemma situateAll_append :
    situateAll around place (ns ++ ms) =
      situateAll around place ns ++ situateAll around (place + sizeEach ns) ms := by
  rw [← situateEach_append, situateEach_same]

/-- One tree by itself is situated as it is. -/
lemma situateAll_one : situateAll around place [n] = situate around place n := by
  rw [situateAll_cons, situateAll_nil, List.append_nil]

/-- A tree has one node more than its children have together. -/
lemma sizeEach_one (n : Node) : sizeEach [n] = 1 + sizeEach n.children := by
  rw [sizeEach, sizeEach, size_eq, Nat.add_zero, Nat.add_comm]

/-- A node that opens no scope. -/
lemma situate_of_opens_none (h : n.opens = none) :
    situate around place n = (around, n) :: situateAll around (place + 1) n.children := by
  obtain ⟨kind, span, text, children⟩ := n
  rw [situate, h]
  rfl

/-- A node that opens a scope for the last of its children. -/
lemma situate_of_opens_some {closed : Bool} (h : n.opens = some (closed, outer.length))
    (hchildren : n.children = outer ++ inner) :
    situate around place n =
      (around, n) :: (situateAll around (place + 1) outer ++
        situateAll ((place, closed) :: around) (place + 1 + sizeEach outer) inner) := by
  obtain ⟨kind, span, text, children⟩ := n
  obtain rfl : children = outer ++ inner := hchildren
  rw [situate, h]
  dsimp only
  rw [situateEach_append]

/-- The first tree stands outside the scope or inside it, and the others behind it. -/
lemma situateEach_cons (around inside : Scopes) (outside place : ℕ) (n : Node) (ns : List Node) :
    ∃ scopes k, (scopes = around ∨ scopes = inside) ∧
      situateEach around inside outside place (n :: ns) =
        situate scopes place n ++ situateEach around inside k (place + n.size) ns := by
  cases outside with
  | zero => exact ⟨inside, 0, .inr rfl, rfl⟩
  | succ outside => exact ⟨around, outside, .inl rfl, rfl⟩

mutual

/-- But for the scopes, these are the nodes of a tree in the order in which they are listed. -/
lemma map_situate {around : Scopes} {place depth : ℕ} : (n : Node) →
    (situate around place n).map Prod.snd = (n.outline depth).map Prod.snd
  | ⟨kind, span, text, children⟩ => by
    rw [situate, outline, List.map_cons, List.map_cons]
    congr 1
    split
    · exact map_situateEach children
    · exact map_situateEach children

/-- Several trees are listed in the order of their outline. -/
lemma map_situateEach {around inside : Scopes} {outside place depth : ℕ} : (ns : List Node) →
    (situateEach around inside outside place ns).map Prod.snd =
      (outlineEach depth ns).map Prod.snd
  | [] => rfl
  | n :: ns => by
    obtain ⟨scopes, k, -, heach⟩ := situateEach_cons around inside outside place n ns
    rw [heach, outlineEach, List.map_append, List.map_append, map_situate n, map_situateEach ns]

end

mutual

/-- Whatever is below a node stands in the scopes around it or in one that is opened there. -/
lemma head?_of_mem_situate {around : Scopes} {place : ℕ} : (n : Node) →
    ∀ p ∈ situate around place n, ∀ scope ∈ p.1.head?,
      scope ∈ around.head? ∨ place ≤ scope.1 ∧ scope.1 < place + n.size
  | ⟨kind, span, text, children⟩ => by
    intro p hp scope hscope
    rw [situate, List.mem_cons] at hp
    rcases hp with rfl | hp
    · exact .inl hscope
    · rw [size]
      split at hp
      · rcases head?_of_mem_situateEach children p hp scope hscope with h | h | h
        · exact .inl h
        · exact .inl h
        · exact .inr (by omega)
      · rcases head?_of_mem_situateEach children p hp scope hscope with h | h | h
        · exact .inl h
        · obtain rfl := Option.mem_some.mp h
          exact .inr (by simp)
        · exact .inr (by omega)

/-- The innermost scope around a node is one of those around the trees, or opened by a node among
them. -/
lemma head?_of_mem_situateEach {around inside : Scopes} {outside place : ℕ} : (ns : List Node) →
    ∀ p ∈ situateEach around inside outside place ns, ∀ scope ∈ p.1.head?,
      scope ∈ around.head? ∨ scope ∈ inside.head? ∨
        place ≤ scope.1 ∧ scope.1 < place + sizeEach ns
  | [] => by simp [situateEach]
  | n :: ns => by
    intro p hp scope hscope
    obtain ⟨scopes, k, hscopes, heach⟩ := situateEach_cons around inside outside place n ns
    rw [heach, List.mem_append] at hp
    rw [sizeEach]
    rcases hp with hp | hp
    · rcases head?_of_mem_situate n p hp scope hscope with h | h
      · rcases hscopes with rfl | rfl
        · exact .inl h
        · exact .inr (.inl h)
      · exact .inr (.inr (by omega))
    · rcases head?_of_mem_situateEach ns p hp scope hscope with h | h | h
      · exact .inl h
      · exact .inr (.inl h)
      · exact .inr (.inr (by omega))

end

end Node

/-! ### Variables -/

/-- The variable that a node makes: the innermost scope around it, and the name. -/
def declaration (p : Scopes × Node) : Option (ℕ × String) :=
  if p.2.declares then p.1.head?.map fun scope => (scope.1, p.2.name) else none

/-- The variables that nodes make. -/
def declarations (ps : List (Scopes × Node)) : List (ℕ × String) := ps.filterMap declaration

/-- Of some variables there is one of a name that can be seen from inside some scopes. -/
def Declared (ds : List (ℕ × String)) (around : Scopes) (name : String) : Prop :=
  ∃ opener ∈ visible around, (opener, name) ∈ ds

/-- Bare names that are uses of variables exactly if, among the variables made before the first of
the nodes and by the nodes in front of them, there is one of that name that can be seen. -/
inductive Resolved : List (ℕ × String) → List (Scopes × Node) → Prop
  | nil {ds : List (ℕ × String)} : Resolved ds []
  | cons {ds : List (ℕ × String)} {p : Scopes × Node} {ps : List (Scopes × Node)} :
      (p.2.isBareName = true → (p.2.kind = .localVariable ↔ Declared ds p.1 p.2.name)) →
      Resolved (ds ++ declarations [p]) ps → Resolved ds (p :: ps)

variable {ds ds' : List (ℕ × String)} {p : Scopes × Node} {ps qs : List (Scopes × Node)}
  {around : Scopes} {name : String}

lemma declarations_nil : declarations [] = [] := rfl

/-- Declarations are listed in the order of the nodes. -/
lemma declarations_append : declarations (ps ++ qs) = declarations ps ++ declarations qs :=
  List.filterMap_append

/-- Declarations are listed node by node. -/
lemma declarations_cons : declarations (p :: ps) = declarations [p] ++ declarations ps := by
  rw [← declarations_append, List.singleton_append]

/-- A node that declares nothing adds nothing. -/
lemma declarations_of_not (h : p.2.declares = false) : declarations [p] = [] := by
  simp [declarations, declaration, h]

/-- What is declared is declared by a node in its innermost scope. -/
lemma mem_declarations {opener : ℕ} : (opener, name) ∈ declarations ps ↔
    ∃ p ∈ ps, p.2.declares = true ∧ p.2.name = name ∧ ∃ scope ∈ p.1.head?, scope.1 = opener := by
  simp only [declarations, List.mem_filterMap, declaration]
  refine exists_congr fun p => and_congr_right fun _ => ?_
  split
  · rename_i hdeclares
    simp [hdeclares, and_comm]
  · rename_i hdeclares
    simp [hdeclares]

/-- A scope that is seen is one of those around. -/
lemma visible_subset {opener : ℕ} (h : opener ∈ visible around) :
    ∃ scope ∈ around, scope.1 = opener := by
  induction around with
  | nil => simp [visible] at h
  | cons scope around ih =>
    obtain ⟨first, closed⟩ := scope
    rw [visible, List.mem_cons] at h
    rcases h with rfl | h
    · exact ⟨_, List.mem_cons_self, rfl⟩
    · cases closed with
      | true => simp at h
      | false =>
        obtain ⟨scope, hscope, hopener⟩ := ih h
        exact ⟨scope, List.mem_cons_of_mem _ hscope, hopener⟩

/-- A name is declared in the innermost scope, or, if that is open, around it. -/
lemma declared_cons {opener : ℕ} {closed : Bool} : Declared ds ((opener, closed) :: around) name ↔
    (opener, name) ∈ ds ∨ closed = false ∧ Declared ds around name := by
  cases closed with
  | true => simp [Declared, visible]
  | false => simp [Declared, visible]

/-- A name is declared by one of two parts of the declarations. -/
lemma declared_append : Declared (ds ++ ds') around name ↔
    Declared ds around name ∨ Declared ds' around name := by
  simp only [Declared, List.mem_append, and_or_left, exists_or]

/-- A name is declared by some nodes if one of them makes a variable of that name which can be
seen. -/
lemma declared_declarations : Declared (declarations ps) around name ↔
    ∃ p ∈ ps, p.2.declares = true ∧ p.2.name = name ∧
      ∃ scope ∈ p.1.head?, scope.1 ∈ visible around := by
  constructor
  · rintro ⟨opener, hvisible, hmade⟩
    obtain ⟨p, hp, hdeclares, hsame, scope, hscope, rfl⟩ := mem_declarations.mp hmade
    exact ⟨p, hp, hdeclares, hsame, scope, hscope, hvisible⟩
  · rintro ⟨p, hp, hdeclares, hsame, scope, hscope, hvisible⟩
    exact ⟨scope.1, hvisible, mem_declarations.mpr ⟨p, hp, hdeclares, hsame, scope, hscope, rfl⟩⟩

namespace Resolved

/-- Nodes in a row are resolved if the second part is so behind the declarations of the first. -/
lemma append (h : Resolved ds ps) (h' : Resolved (ds ++ declarations ps) qs) :
    Resolved ds (ps ++ qs) := by
  induction h with
  | nil => simpa [declarations] using h'
  | cons hp _ ih =>
    refine .cons hp (ih ?_)
    rwa [List.append_assoc, ← declarations_cons]

/-- Each bare name is resolved by itself. -/
lemma of_mem {before after : List (Scopes × Node)} (h : Resolved ds (before ++ p :: after))
    (hname : p.2.isBareName = true) :
    p.2.kind = .localVariable ↔ Declared (ds ++ declarations before) p.1 p.2.name := by
  induction before generalizing ds with
  | nil =>
    cases h with
    | cons hp _ => simpa [declarations] using hp hname
  | cons q before ih =>
    cases h with
    | cons _ h =>
      have hrest := ih h
      rwa [List.append_assoc, ← declarations_cons] at hrest

end Resolved

/-! ### Default values -/

/-- The nodes in front of a place in pre-order, without the parameters in whose default value the
place is: those are not bound yet when it is visited. -/
def settled : List (Scopes × Node) → List (Scopes × Node)
  | [] => []
  | p :: ps =>
    if p.2.kind = .parameter ∧ ps.length + 1 < p.2.size then settled ps else p :: settled ps

/-- A node that is no parameter stays at its place. -/
lemma settled_cons_of_ne (h : p.2.kind ≠ .parameter) : settled (p :: ps) = p :: settled ps :=
  if_neg fun hp => h hp.1

/-- A node whose whole subtree stands in front of a place is settled. -/
lemma settled_cons_of_le (h : p.2.size ≤ ps.length + 1) : settled (p :: ps) = p :: settled ps :=
  if_neg fun hp => Nat.not_lt_of_le h hp.2

/-- A parameter whose default value goes on behind these nodes is not settled among them. -/
lemma settled_cons_of_lt (hkind : p.2.kind = .parameter) (h : ps.length + 1 < p.2.size) :
    settled (p :: ps) = settled ps :=
  if_pos ⟨hkind, h⟩

/-- Whatever is in front of a place is settled, or a parameter in whose default value the place
is. -/
lemma mem_settled_or (h : p ∈ ps) : p ∈ settled ps ∨ ∃ before between,
    ps = before ++ p :: between ∧ p.2.kind = .parameter ∧ between.length + 1 < p.2.size := by
  induction ps with
  | nil => simp at h
  | cons q ps ih =>
    rcases List.mem_cons.mp h with rfl | h
    · by_cases hinside : p.2.kind = .parameter ∧ ps.length + 1 < p.2.size
      · exact .inr ⟨[], ps, rfl, hinside⟩
      · rw [settled, if_neg hinside]
        exact .inl List.mem_cons_self
    · rcases ih h with hsettled | ⟨before, between, rfl, hinside⟩
      · left
        rw [settled]
        split
        · exact hsettled
        · exact List.mem_cons_of_mem _ hsettled
      · exact .inr ⟨q :: before, between, rfl, hinside⟩

namespace Node

mutual

/-- Every node of a tree is listed once. -/
lemma length_situate {around : Scopes} {place : ℕ} : (n : Node) →
    (situate around place n).length = n.size
  | ⟨kind, span, text, children⟩ => by
    rw [situate, size, List.length_cons]
    split
    · rw [length_situateEach children]
    · rw [length_situateEach children]

/-- Every node of several trees is listed once. -/
lemma length_situateEach {around inside : Scopes} {outside place : ℕ} : (ns : List Node) →
    (situateEach around inside outside place ns).length = sizeEach ns
  | [] => rfl
  | n :: ns => by
    obtain ⟨scopes, k, -, heach⟩ := situateEach_cons around inside outside place n ns
    rw [heach, List.length_append, sizeEach, length_situate n, length_situateEach ns]

end

mutual

/-- In front of a place behind a whole tree all its nodes are settled. -/
lemma settled_situate (qs : List (Scopes × Node)) {around : Scopes} {place : ℕ} : (n : Node) →
    settled (situate around place n ++ qs) = situate around place n ++ settled qs
  | ⟨kind, span, text, children⟩ => by
    rw [situate, List.cons_append, List.cons_append]
    split
    · rw [settled_cons_of_le, settled_situateEach qs children]
      rw [List.length_append, length_situateEach children, size]
      omega
    · rw [settled_cons_of_le, settled_situateEach qs children]
      rw [List.length_append, length_situateEach children, size]
      omega

/-- The parameters of whole trees are settled among them. -/
lemma settled_situateEach (qs : List (Scopes × Node)) {around inside : Scopes}
    {outside place : ℕ} : (ns : List Node) →
    settled (situateEach around inside outside place ns ++ qs) =
      situateEach around inside outside place ns ++ settled qs
  | [] => rfl
  | n :: ns => by
    obtain ⟨scopes, k, -, heach⟩ := situateEach_cons around inside outside place n ns
    rw [heach, List.append_assoc, settled_situate _ n, settled_situateEach qs ns, List.append_assoc]

end

end Node

end RubyCheck
