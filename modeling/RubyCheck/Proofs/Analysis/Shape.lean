import RubyCheck.Check
import RubyCheck.Proofs.Analysis.Finding
import RubyCheck.Proofs.Analysis.Variable
import RubyCheck.Proofs.Scope.Ledger

/-!
# Findings about the shape of a tree

Variables in void context, exit hooks in methods and repeated values of a `case` are found by the
shape of the tree alone.  What each node shows by itself is `shapeFindings`, and a walk finds exactly
what the nodes of the tree show, each once and in whatever nesting they stand.

Of the frames that are open during a walk only their kinds matter here, and these agree with the
scopes around (`Framed`): the frame of a closed scope belongs to no block, and to a method if the node
that opens the scope is one.
-/

namespace RubyCheck

namespace Finding

/-- Whether a variable is found in void context. -/
def isVoidValue (f : Finding) : Bool :=
  match f.cause with
  | .voidValue _ => true
  | _ => false

/-- Whether an exit hook is found in a method. -/
def isEndInMethod (f : Finding) : Bool :=
  match f.cause with
  | .endInMethod => true
  | _ => false

/-- Whether a repeated value of a `case` is found. -/
def isDuplicateValue (f : Finding) : Bool :=
  match f.cause with
  | .duplicateValue _ _ => true
  | _ => false

/-- Whether a finding is about the shape of the tree. -/
def isOfShape (f : Finding) : Bool := f.isVoidValue || f.isEndInMethod || f.isDuplicateValue

end Finding

/-- The variables that stand as statements of a node though another statement follows. -/
def Node.voidVariables (n : Node) : List Node :=
  if n.kind = .program ∨ n.kind = .statements then
    n.children.dropLast.filter (·.kind = .localVariable)
  else []

/-- Whether the node at a place of the pre-order is a method. -/
def isMethodAt (ps : List (Scopes × Node)) (place : ℕ) : Bool :=
  ps[place]?.any (·.2.kind == .methodDef)

/-- Whether the innermost closed scope around is opened by a method. -/
def inMethod (isMethod : ℕ → Bool) (around : Scopes) : Bool :=
  (around.find? (·.2)).any fun scope => isMethod scope.1

/-! ### Kinds of frames -/

namespace ScopeStack

variable {s s' : ScopeStack} {name : String} {g : Variable → Variable} {fs fs' : List Frame}

/-- Changing a variable leaves the kinds of the frames alone. -/
lemma map_kind_change? (h : change? name g fs = some fs') :
    fs'.map Frame.kind = fs.map Frame.kind := by
  obtain ⟨inner, f, outer, rfl, rfl, -⟩ := exists_of_change? h
  rw [List.map_append, List.map_append, List.map_cons, List.map_cons]
  rfl

/-- Changing a variable that is seen leaves the kinds of the frames alone. -/
lemma map_kind_changeVisible? (h : s.changeVisible? name g = some s') :
    s'.frames.map Frame.kind = s.frames.map Frame.kind :=
  map_kind_change? (change?_of_changeVisible? h)

/-- Adding a variable leaves the kinds of the frames alone. -/
lemma map_kind_add {v : Variable} : (s.add name v).frames.map Frame.kind = s.frames.map Frame.kind := by
  change (s.top.add name v).kind :: _ = s.top.kind :: _
  rw [Frame.kind_add]
  rfl

/-- Reading a name leaves the kinds of the frames alone. -/
lemma map_kind_read : (s.read name).frames.map Frame.kind = s.frames.map Frame.kind := by
  unfold read
  cases hchange : s.changeVisible? name .read with
  | none => rfl
  | some s' => exact map_kind_changeVisible? hchange

/-- Writing a name leaves the kinds of the frames alone. -/
lemma map_kind_write {at_ : Position} :
    (s.write name at_).frames.map Frame.kind = s.frames.map Frame.kind := by
  unfold write
  cases hchange : s.changeVisible? name .write with
  | none => exact map_kind_add
  | some s' => exact map_kind_changeVisible? hchange

/-- Using a name of a frame around leaves the kinds of the frames alone. -/
lemma map_kind_touchOuter :
    (s.touchOuter name).frames.map Frame.kind = s.frames.map Frame.kind := by
  unfold touchOuter changeOuter? around
  split
  · cases hchange : change? name .read s.below with
    | none => rfl
    | some fs => exact congrArg (s.top.kind :: ·) (map_kind_change? hchange)
  · rfl

end ScopeStack

namespace Analysis

open Node

/-- The variables in void context that a node shows. -/
def voidFindings (n : Node) : List Finding :=
  n.voidVariables.map fun c => ⟨.voidValue c.name, c.span.start⟩

/-- The exit hook that a node shows, in the scopes around it. -/
def hookFindings (isMethod : ℕ → Bool) (p : Scopes × Node) : List Finding :=
  if p.2.kind = .endBlock ∧ inMethod isMethod p.1 then [⟨.endInMethod, p.2.span.start⟩] else []

/-- The repeated values that a node shows. -/
def choiceFindings (n : Node) : List Finding := if n.kind = .case_ then repeatedValues n else []

/-- What a node shows by itself, in the scopes around it. -/
def shapeFindings (isMethod : ℕ → Bool) (p : Scopes × Node) : List Finding :=
  voidFindings p.2 ++ (hookFindings isMethod p ++ choiceFindings p.2)

variable {isMethod : ℕ → Bool} {around : Scopes} {place : ℕ} {n m : Node} {ns ms : List Node}
  {p : Scopes × Node} {ps qs : List (Scopes × Node)} {s : State} {e : Event} {es es' es'' : List Event}
  {f : Finding} {fs fs' : List Finding}

/-- Of each open frame, innermost first, whether it belongs to no block and whether to a method. -/
def State.frameKinds (s : State) : List (Bool × Bool) :=
  s.scopes.frames.map fun f => (f.kind != .block, f.kind == .method)

/-- The frames are those of the scopes around. -/
def Framed (isMethod : ℕ → Bool) (around : Scopes) (s : State) : Prop :=
  s.frameKinds = around.map fun scope => (scope.2, isMethod scope.1)

namespace Framed

/-- Whether frames are those of the scopes around depends on their kinds only. -/
lemma congr {s' : State} (h : Framed isMethod around s)
    (hkinds : s'.scopes.frames.map Frame.kind = s.scopes.frames.map Frame.kind) :
    Framed isMethod around s' := by
  have hmap (s : State) : s.frameKinds = (s.scopes.frames.map Frame.kind).map
      fun k => (k != .block, k == .method) := by
    rw [State.frameKinds, List.map_map]
    rfl
  rw [Framed, hmap, hkinds, ← hmap]
  exact h

/-- Whether the innermost definition is a method. -/
lemma enclosingDefinition_eq (h : Framed isMethod around s) :
    s.scopes.enclosingDefinition = .method ↔ inMethod isMethod around = true := by
  have hfind := congrArg (List.find? (·.1)) h
  rw [State.frameKinds, List.find?_map, List.find?_map] at hfind
  have hany := congrArg (Option.any (·.2)) hfind
  rw [Option.any_map, Option.any_map] at hany
  rw [ScopeStack.enclosingDefinition, inMethod]
  change Option.any (fun f : Frame => f.kind == .method) (s.scopes.frames.find? fun f => f.kind != .block)
    = Option.any (fun scope => isMethod scope.1) (around.find? (·.2)) at hany
  rw [← hany]
  cases s.scopes.frames.find? fun f => f.kind != .block with
  | none => simp
  | some f => simp

end Framed

/-! ### What events show -/

/-- Behind some events the frames are those of the scopes around, if they were in front, and
whatever was found about the shape of the tree is what was expected, but for the order. -/
def Shows (isMethod : ℕ → Bool) (around : Scopes) (es : List Event) (fs : List Finding) : Prop :=
  ∀ ⦃s : State⦄, Framed isMethod around s → Framed isMethod around (s.run es) ∧
    ((s.run es).found.filter (·.isOfShape)).Perm (fs ++ s.found.filter (·.isOfShape))

namespace Shows

/-- No events show nothing. -/
lemma nil : Shows isMethod around [] [] := fun _ hs => ⟨hs, .refl _⟩

/-- What is shown may be listed in any order. -/
lemma perm (h : Shows isMethod around es fs) (hperm : fs.Perm fs') : Shows isMethod around es fs' :=
  fun _ hs => ⟨(h hs).1, (h hs).2.trans (hperm.append_right _)⟩

/-- Events in a row show what each of them shows. -/
lemma append (h : Shows isMethod around es fs) (h' : Shows isMethod around es' fs') :
    Shows isMethod around (es ++ es') (fs ++ fs') := by
  intro s hs
  obtain ⟨hmiddle, hfound⟩ := h hs
  obtain ⟨hbehind, hfound'⟩ := h' hmiddle
  rw [State.run_append, List.append_assoc]
  refine ⟨hbehind, (hfound'.trans (hfound.append_left fs')).trans ?_⟩
  exact List.perm_append_comm_assoc fs' fs _

/-- An event that is about variables. -/
lemma aside (h : ∀ s, Framed isMethod around s → Framed isMethod around (s.step e))
    (hfound : ∀ s : State, (s.step e).found.filter (·.isOfShape) = s.found.filter (·.isOfShape)) :
    Shows isMethod around [e] [] :=
  fun s hs => ⟨h s hs, .of_eq (hfound s)⟩

/-- Reading a variable shows nothing about the shape. -/
lemma use (name : String) : Shows isMethod around [.use name] [] :=
  aside (fun _ hs => hs.congr ScopeStack.map_kind_read) fun _ => rfl

/-- Reading a variable in order to write it shows nothing about the shape. -/
lemma useForUpdate (name : String) : Shows isMethod around [.useForUpdate name] [] :=
  aside (fun _ hs => hs.congr ScopeStack.map_kind_read) fun _ => rfl

/-- Writing a variable shows nothing about the shape. -/
lemma write (name : String) (at_ : Position) : Shows isMethod around [.write name at_] [] :=
  aside (fun _ hs => hs.congr ScopeStack.map_kind_write) fun _ => rfl

/-- Declaring a variable of a block shows nothing about the shape. -/
lemma blockLocal (name : String) (at_ : Position) :
    Shows isMethod around [.blockLocal name at_] [] :=
  aside (fun _ hs => hs.congr ScopeStack.map_kind_add) fun _ => rfl

/-- Binding a parameter shows nothing about the shape. -/
lemma parameter (name : String) (at_ : Position) (inBlock : Bool) :
    Shows isMethod around [.parameter name at_ inBlock] [] := by
  have hhide (s : State) : (s.hide name at_).scopes.frames.map Frame.kind =
      s.scopes.frames.map Frame.kind := by
    unfold State.hide
    split
    · exact ScopeStack.map_kind_touchOuter
    · rfl
  have hfound (s : State) :
      (s.hide name at_).found.filter (·.isOfShape) = s.found.filter (·.isOfShape) := by
    unfold State.hide
    split
    · exact List.filter_cons_of_neg (by simp [Finding.isOfShape, Finding.isVoidValue,
        Finding.isEndInMethod, Finding.isDuplicateValue])
    · rfl
  cases inBlock with
  | false => exact aside (fun _ hs => hs.congr ScopeStack.map_kind_add) fun _ => rfl
  | true =>
    exact aside (fun s hs => hs.congr (ScopeStack.map_kind_add.trans (hhide s))) hfound

/-- What is found is found. -/
lemma found (h : ∀ f ∈ fs, f.isOfShape = true) : Shows isMethod around (fs.map .found) fs := by
  induction fs with
  | nil => exact .nil
  | cons f fs ih =>
    rw [List.forall_mem_cons] at h
    have hone : Shows isMethod around [.found f] [f] := by
      intro s hs
      refine ⟨hs, .of_eq ?_⟩
      change (f :: s.found).filter _ = _
      rw [List.filter_cons_of_pos h.1]
      rfl
    exact hone.append (ih h.2)

/-- An exit hook shows something if the innermost definition is a method. -/
lemma exitHook (at_ : Position) : Shows isMethod around [.exitHook at_]
    (if inMethod isMethod around then [⟨.endInMethod, at_⟩] else []) := by
  intro s hs
  have hmethod := hs.enclosingDefinition_eq
  change Framed isMethod around
      (((exitHookFinding? s.scopes.enclosingDefinition at_).map s.find).getD s) ∧
    ((((exitHookFinding? s.scopes.enclosingDefinition at_).map s.find).getD s).found.filter
      (·.isOfShape)).Perm _
  unfold exitHookFinding?
  by_cases hin : inMethod isMethod around = true
  · rw [if_pos (hmethod.mpr hin), if_pos hin]
    refine ⟨hs, .of_eq ?_⟩
    change (⟨.endInMethod, at_⟩ :: s.found).filter _ = _
    rw [List.filter_cons_of_pos rfl]
    rfl
  · rw [if_neg (fun hkind => hin (hmethod.mp hkind)), if_neg hin]
    exact ⟨hs, .refl _⟩

/-- A frame is entered, and left again. -/
lemma frame {closed : Bool} {kind : FrameKind} (hkind : (kind != .block) = closed)
    (hmethod : isMethod place = (kind == .method))
    (h : Shows isMethod ((place, closed) :: around) es fs) :
    Shows isMethod around (.enter kind :: es ++ [.leave]) fs := by
  intro s hs
  have hentered : Framed isMethod ((place, closed) :: around) (s.step (.enter kind)) := by
    change (kind != .block, kind == .method) :: s.frameKinds = (closed, isMethod place) :: _
    rw [hkind, hmethod, hs]
  obtain ⟨hinside, hfound⟩ := h hentered
  rw [List.cons_append, State.run_cons, State.run_append]
  generalize (s.step (.enter kind)).run es = s' at hinside hfound
  obtain ⟨⟨top, below⟩, found⟩ := s'
  have hkinds := List.cons.inj hinside
  have hnone : top.unused.reverse.filter (·.isOfShape) = [] := by
    refine List.filter_eq_nil_iff.mpr fun g hg => ?_
    rw [List.mem_reverse, Frame.unused] at hg
    split at hg
    · simp at hg
    · obtain ⟨p, -, rfl⟩ := List.mem_map.mp hg
      simp [Finding.isOfShape, Finding.isVoidValue, Finding.isEndInMethod,
        Finding.isDuplicateValue]
  cases below with
  | nil =>
    have hlength := congrArg List.length (hkinds.2.trans hs.symm)
    simp [State.frameKinds, ScopeStack.frames] at hlength
  | cons g gs =>
    refine ⟨hkinds.2, ?_⟩
    change ((top.unused.reverse ++ found).filter (·.isOfShape)).Perm _
    rw [List.filter_append, hnone]
    exact hfound

end Shows

/-! ### Trees -/

/-- The nodes of some trees that stand at a place of the pre-order: which of them are methods. -/
def Placed (isMethod : ℕ → Bool) (place : ℕ) (ps : List (Scopes × Node)) : Prop :=
  ∀ i p, ps[i]? = some p → isMethod (place + i) = (p.2.kind == .methodDef)

namespace Placed

/-- The first of some nodes is at the place it is said to be at. -/
lemma head (h : Placed isMethod place (p :: ps)) : isMethod place = (p.2.kind == .methodDef) :=
  h 0 p rfl

/-- The others are behind it. -/
lemma tail (h : Placed isMethod place (p :: ps)) : Placed isMethod (place + 1) ps := by
  intro i q hq
  have hi := h (i + 1) q hq
  rwa [Nat.add_comm i 1, ← Nat.add_assoc] at hi

/-- The first part of some nodes is at the same place. -/
lemma left (h : Placed isMethod place (ps ++ qs)) : Placed isMethod place ps := by
  intro i q hq
  refine h i q ?_
  rw [List.getElem?_append_left (List.getElem?_eq_some_iff.mp hq).1]
  exact hq

/-- The second part of some nodes is at the place behind the first. -/
lemma right (h : Placed isMethod place (ps ++ qs)) : Placed isMethod (place + ps.length) qs := by
  intro i q hq
  have hi := h (ps.length + i) q (by rwa [List.getElem?_append_right (Nat.le_add_right _ _),
    Nat.add_sub_cancel_left])
  rwa [← Nat.add_assoc] at hi

/-- The nodes of two lists of trees are at their places, the second list behind the first. -/
lemma append (h : Placed isMethod place (situateAll around place (ns ++ ms))) :
    Placed isMethod place (situateAll around place ns) ∧
      Placed isMethod (place + sizeEach ns) (situateAll around (place + sizeEach ns) ms) := by
  rw [situateAll_append] at h
  have hlength : (situateAll around place ns).length = sizeEach ns := length_situateEach ns
  exact ⟨h.left, hlength ▸ h.right⟩

end Placed

/-- The variables among statements that another statement follows. -/
def voidAmong (ns : List Node) : List Finding :=
  (ns.dropLast.filter (·.kind = .localVariable)).map fun n => ⟨.voidValue n.name, n.span.start⟩

/-- What some trees show, node by node. -/
def allShapeFindings (isMethod : ℕ → Bool) (around : Scopes) (place : ℕ) (ns : List Node) :
    List Finding :=
  (situateAll around place ns).flatMap (shapeFindings isMethod)

/-- Behind the events of some trees, wherever they stand, what these show was found. -/
def Shown (isMethod : ℕ → Bool) (around : Scopes) (ns : List Node) (es : List Event) : Prop :=
  ∀ place, Placed isMethod place (situateAll around place ns) →
    Shows isMethod around es (allShapeFindings isMethod around place ns)

namespace Shown

/-- No trees show nothing. -/
lemma nil : Shown isMethod around [] [] := fun _ _ => .nil

/-- Trees in a row show what each of them shows. -/
lemma append (h : Shown isMethod around ns es) (h' : Shown isMethod around ms es') :
    Shown isMethod around (ns ++ ms) (es ++ es') := by
  intro place hplaced
  obtain ⟨hfirst, hrest⟩ := hplaced.append
  rw [allShapeFindings, situateAll_append, List.flatMap_append]
  exact (h place hfirst).append (h' _ hrest)

/-- A node that opens no scope shows something by itself, and then its children do. -/
lemma node (hopens : n.opens = none) (hn : Shows isMethod around es (shapeFindings isMethod (around, n)))
    (h : Shown isMethod around n.children es') : Shown isMethod around [n] (es ++ es') := by
  intro place hplaced
  rw [situateAll_one, situate_of_opens_none hopens] at hplaced
  rw [allShapeFindings, situateAll_one, situate_of_opens_none hopens, List.flatMap_cons]
  exact hn.append (h _ hplaced.tail)

/-- A node that shows nothing by itself. -/
lemma plain (hopens : n.opens = none) (hnone : ∀ around, shapeFindings isMethod (around, n) = [])
    (h : Shown isMethod around n.children es) : Shown isMethod around [n] es := by
  have hn : Shows isMethod around [] (shapeFindings isMethod (around, n)) := by
    rw [hnone]
    exact .nil
  exact node hopens hn h

/-- A node that opens a frame for the last of its children. -/
lemma scope (outer inner : List Node) {closed : Bool} {kind : FrameKind}
    (hopens : n.opens = some (closed, outer.length)) (hchildren : n.children = outer ++ inner)
    (hkind : (kind != .block) = closed) (hmethod : (n.kind == .methodDef) = (kind == .method))
    (hn : Shows isMethod around es (shapeFindings isMethod (around, n)))
    (houter : Shown isMethod around outer es')
    (hinner : ∀ place, Shown isMethod ((place, closed) :: around) inner es'') :
    Shown isMethod around [n] (es ++ (es' ++ (.enter kind :: es'' ++ [.leave]))) := by
  intro place hplaced
  rw [situateAll_one, situate_of_opens_some hopens hchildren] at hplaced
  rw [allShapeFindings, situateAll_one, situate_of_opens_some hopens hchildren, List.flatMap_cons,
    List.flatMap_append]
  have hlength : (situateAll around (place + 1) outer).length = sizeEach outer :=
    length_situateEach outer
  have hframe := (hinner place _ (hlength ▸ hplaced.tail.right)).frame hkind
    (hplaced.head.trans hmethod)
  exact hn.append ((houter _ hplaced.tail.left).append hframe)

/-- Trees one after another. -/
lemma each {role : Role} (h : ∀ c ∈ ns, Shown isMethod around [c] (events role c [])) :
    Shown isMethod around ns (eventsOfEach role ns []) := by
  induction ns with
  | nil => exact .nil
  | cons c ns ih =>
    rw [List.forall_mem_cons] at h
    rw [eventsOfEach, events_eq_append]
    exact h.1.append (ih h.2)

/-- A node that opens a frame for all of its children. -/
lemma frame {closed : Bool} {kind : FrameKind} (hopens : n.opens = some (closed, 0))
    (hkind : (kind != .block) = closed) (hmethod : (n.kind == .methodDef) = (kind == .method))
    (hn : Shows isMethod around es (shapeFindings isMethod (around, n)))
    (h : ∀ around, Shown isMethod around n.children (eventsOfEach .plain n.children [])) :
    Shown isMethod around [n] (es ++ .enter kind :: eventsOfEach .plain n.children [.leave]) := by
  rw [eventsOfEach_eq_append]
  exact .scope [] n.children hopens rfl hkind hmethod hn .nil fun _ => h _

/-- A class, whose frame is entered behind what it inherits from, or whose class it is. -/
lemma class_ (outer inner : List Node) (hopens : n.opens = some (true, outer.length))
    (hchildren : n.children = outer ++ inner)
    (hmethod : (n.kind == .methodDef) = (FrameKind.class_ == .method))
    (houter : outer = [] ∨ ∃ m, outer = [m] ∧ m.kind ≠ .statements)
    (hinner : Fits NodeKind.bodyLayout inner)
    (hnone : ∀ around, shapeFindings isMethod (around, n) = [])
    (h : ∀ c ∈ n.children, ∀ around, Shown isMethod around [c] (events .plain c [])) :
    Shown isMethod around [n] (eventsOfClass n.children []) := by
  have hn : Shows isMethod around [] (shapeFindings isMethod (around, n)) := by
    rw [hnone]
    exact .nil
  rw [hchildren, List.forall_mem_append] at h
  rw [hchildren, eventsOfClass_eq houter (exists_body hinner)]
  exact .scope outer inner hopens hchildren rfl hmethod hn (.each fun c hc => h.1 c hc _)
    fun _ => .each fun c hc => h.2 c hc _

/-- A statement in void context is found if it is a variable. -/
lemma voidStatement_eq (n : Node) : voidStatement n =
    (([n].filter (·.kind = .localVariable)).map fun n => (⟨.voidValue n.name, n.span.start⟩ : Finding)).map
      .found := by
  unfold voidStatement
  split
  · rename_i hkind
    rw [List.filter_cons_of_pos (by simpa using hkind)]
    rfl
  · rename_i hkind
    rw [List.filter_cons_of_neg (by simpa using hkind)]
    rfl

/-- Statements show, besides what each of them does, which variables among them are in void
context. -/
lemma statements (h : ∀ c ∈ ns, Shown isMethod around [c] (events .plain c []))
    (hplaced : Placed isMethod place (situateAll around place ns)) :
    Shows isMethod around (eventsOfStatements ns [])
      (voidAmong ns ++ allShapeFindings isMethod around place ns) := by
  induction ns generalizing place with
  | nil => exact .nil
  | cons c ns ih =>
    rw [List.forall_mem_cons] at h
    cases ns with
    | nil => exact h.1 place hplaced
    | cons c' ns =>
      have hsplit : c :: c' :: ns = [c] ++ (c' :: ns) := rfl
      rw [hsplit] at hplaced
      obtain ⟨hfirst, hrest⟩ := hplaced.append
      set here := ([c].filter (·.kind = .localVariable)).map fun n =>
        (⟨.voidValue n.name, n.span.start⟩ : Finding) with hhere
      have hvoid : Shows isMethod around (voidStatement c) here := by
        rw [voidStatement_eq]
        refine .found fun f hf => ?_
        obtain ⟨n, -, rfl⟩ := List.mem_map.mp hf
        rfl
      have hvoids : voidAmong (c :: c' :: ns) = here ++ voidAmong (c' :: ns) := by
        rw [voidAmong, List.dropLast_cons_cons, hhere, ← List.singleton_append, List.filter_append,
          List.map_append]
        rfl
      have hshown : allShapeFindings isMethod around place (c :: c' :: ns) =
          allShapeFindings isMethod around place [c] ++
            allShapeFindings isMethod around (place + sizeEach [c]) (c' :: ns) := by
        rw [hsplit, allShapeFindings, situateAll_append, List.flatMap_append]
        rfl
      have hall := hvoid.append ((h.1 place hfirst).append (ih h.2 hrest))
      rw [eventsOfStatements, events_eq_append]
      refine hall.perm ?_
      rw [hvoids, hshown, List.append_assoc]
      refine List.Perm.append_left here ?_
      exact List.perm_append_comm_assoc _ _ _

end Shown

/-- The kinds of nodes that show something by themselves. -/
def showingKinds : List NodeKind := [.program, .statements, .endBlock, .case_]

/-- A node of any other kind shows nothing by itself. -/
lemma shapeFindings_eq_nil (h : n.kind ∉ showingKinds) :
    shapeFindings isMethod (around, n) = [] := by
  simp only [showingKinds, List.mem_cons, List.not_mem_nil, or_false, not_or] at h
  obtain ⟨hprogram, hstatements, hhook, hcase⟩ := h
  simp [shapeFindings, voidFindings, hookFindings, choiceFindings, voidVariables, hprogram,
    hstatements, hhook, hcase]

/-- Repeated values are findings of that sort. -/
lemma isDuplicateValue_of_mem_repeatedValues (hf : f ∈ repeatedValues n) :
    f.isDuplicateValue = true := by
  obtain ⟨⟨spelling, line, hcause⟩, -⟩ := mem_repeatedAmong hf
  simp [Finding.isDuplicateValue, hcause]

/-- Every tree shows what its nodes do. -/
theorem shown (h : n.Everywhere Sound) {role : Role} (hrole : role.Admits n) :
    Shown isMethod around [n] (events role n []) := by
  induction h generalizing role around with
  | @intro n hn hchildren ih =>
    obtain ⟨kind, span, text, children⟩ := n
    have heach {role' : Role} (hrole' : ∀ c ∈ children, role'.Admits c) (around : Scopes) :
        Shown isMethod around children (eventsOfEach role' children []) :=
      .each fun c hc => ih c hc (hrole' c hc)
    have hnone (hkind : kind ∉ showingKinds) (around : Scopes) :
        shapeFindings isMethod (around, ⟨kind, span, text, children⟩) = [] :=
      shapeFindings_eq_nil hkind
    have hsilent (hkind : kind ∉ showingKinds) :
        Shows isMethod around [] (shapeFindings isMethod (around, ⟨kind, span, text, children⟩)) := by
      rw [hnone hkind]
      exact .nil
    have hleaf {es : List Event} (hchildren : children = [])
        (hopens : opens ⟨kind, span, text, children⟩ = none)
        (hn : Shows isMethod around es (shapeFindings isMethod (around, ⟨kind, span, text, children⟩))) :
        Shown isMethod around [⟨kind, span, text, children⟩] es := by
      subst hchildren
      have h := Shown.node hopens hn .nil
      rwa [List.append_nil] at h
    unfold events
    split
    case h_1 inBlock =>
      exact .plain rfl (hnone (by decide)) (heach (hn.admits_parameter inBlock) around)
    case h_2 inBlock =>
      rw [List.append_nil, eventsOfEach_eq_append]
      refine .plain rfl (hnone (by decide)) ?_
      have hbound : Shown isMethod around [] (namedParameter (text.getD "") span.start inBlock) := by
        unfold namedParameter
        split
        · exact .nil
        · exact fun _ _ => .parameter _ _ _
      have h := (heach (hn.admits_plain (by simp) (by simp) (by simp)) around).append hbound
      rwa [List.append_nil] at h
    case h_3 inBlock =>
      refine hleaf (hn.1.children_eq_nil rfl) rfl ?_
      rw [hnone (by decide)]
      exact .blockLocal _ _
    case h_4 =>
      exact hleaf (hn.1.children_eq_nil rfl) rfl (hsilent (by decide))
    case h_5 =>
      intro place hplaced
      have hadmits := hn.admits_plain (by simp) (by simp) (by simp)
      have hown : shapeFindings isMethod (around, ⟨.statements, span, text, children⟩) =
          voidAmong children := by
        simp [shapeFindings, voidFindings, hookFindings, choiceFindings, voidVariables, voidAmong]
      rw [situateAll_one, situate_of_opens_none rfl] at hplaced
      rw [allShapeFindings, situateAll_one, situate_of_opens_none rfl, List.flatMap_cons, hown]
      exact Shown.statements (fun c hc => ih c hc (hadmits c hc)) hplaced.tail
    case h_6 =>
      refine hleaf (hn.1.children_eq_nil rfl) rfl ?_
      rw [hnone (by decide)]
      exact .use _
    case h_7 =>
      refine hleaf (hn.1.children_eq_nil rfl) rfl ?_
      rw [hnone (by decide)]
      exact .write _ _
    case h_8 =>
      refine .node rfl ?_ (heach (hn.admits_plain (by simp) (by simp) (by simp)) around)
      rw [hnone (by decide)]
      unfold updatedVariable
      split
      · split
        · exact .useForUpdate _
        · exact .nil
      · exact .nil
    case h_9 =>
      refine .node rfl ?_ (heach (hn.admits_plain (by simp) (by simp) (by simp)) around)
      have hown : shapeFindings isMethod (around, ⟨.case_, span, text, children⟩) =
          repeatedValues ⟨.case_, span, text, children⟩ := by
        simp [shapeFindings, voidFindings, hookFindings, choiceFindings, voidVariables]
      rw [hown]
      refine .found fun f hf => ?_
      rw [Finding.isOfShape, isDuplicateValue_of_mem_repeatedValues hf, Bool.or_true]
    case h_10 | h_11 | h_14 | h_15 | h_16 =>
      exact .frame rfl rfl rfl (hsilent (by decide))
        (heach (hn.admits_plain (by simp) (by simp) (by simp)))
    case h_12 =>
      have hadmits := hn.admits_plain (by simp) (by simp) (by simp)
      have hchild (c : Node) (hc : c ∈ children) (around : Scopes) :
          Shown isMethod around [c] (events .plain c []) := ih c hc (hadmits c hc)
      have hnone := hnone (by decide)
      cases hn.1 with
      | absent hbody =>
        obtain ⟨body, rest, rfl, hkind⟩ := exists_body hbody
        exact .class_ [] (body :: rest) (by simp [opens, hkind]) rfl rfl (.inl rfl) hbody hnone hchild
      | @present _ m _ inner hm hbody =>
        obtain ⟨body, rest, rfl, hkind⟩ := exists_body hbody
        have hvalue := ne_statements hm
        exact .class_ [m] (body :: rest) (by simp [opens, hkind, hvalue]) rfl rfl
          (.inr ⟨m, rfl, hvalue⟩) hbody hnone hchild
    case h_13 =>
      have hadmits := hn.admits_plain (by simp) (by simp) (by simp)
      have hchild (c : Node) (hc : c ∈ children) (around : Scopes) :
          Shown isMethod around [c] (events .plain c []) := ih c hc (hadmits c hc)
      have hnone := hnone (by decide)
      cases hn.1 with
      | @one _ m _ inner hm hbody =>
        exact .class_ [m] inner rfl rfl rfl (.inr ⟨m, rfl, ne_statements hm⟩) hbody hnone hchild
    case h_17 =>
      have hown : shapeFindings isMethod (around, ⟨.endBlock, span, text, children⟩) =
          if inMethod isMethod around then [⟨.endInMethod, span.start⟩] else [] := by
        simp [shapeFindings, voidFindings, hookFindings, choiceFindings, voidVariables]
      have hhook : Shows isMethod around [.exitHook span.start]
          (shapeFindings isMethod (around, ⟨.endBlock, span, text, children⟩)) := by
        rw [hown]
        exact .exitHook _
      exact .frame rfl rfl rfl hhook (heach (hn.admits_plain (by simp) (by simp) (by simp)))
    case h_18 =>
      exact .plain rfl (hnone (by decide)) (heach (hn.admits_parameter false) around)
    case h_19 =>
      exact .plain rfl (hnone (by decide)) (heach (hn.admits_parameter true) around)
    case h_20 hmulti hparameter hblockLocal =>
      -- Whatever is left opens no frame, and shows nothing by itself.
      obtain ⟨hprogram, hlocal, hbound, htargets⟩ := hrole.of_not hmulti hparameter hblockLocal
      have hopens : opens ⟨kind, span, text, children⟩ = none := by
        unfold opens
        split
        all_goals simp_all
      have hnothing : kind ∉ showingKinds := by
        simp only [showingKinds, List.mem_cons, List.not_mem_nil, or_false, not_or]
        exact ⟨hprogram, ‹_›, ‹_›, ‹_›⟩
      exact .plain hopens (hnone hnothing)
        (heach (hn.admits_plain ‹_› ‹_› htargets) around)

/-! ### What a node shows of each sort -/

/-- No finding is of two sorts. -/
lemma one_sort (f : Finding) : (f.isVoidValue && f.isEndInMethod) = false ∧
    (f.isVoidValue && f.isDuplicateValue) = false ∧
    (f.isEndInMethod && f.isDuplicateValue) = false := by
  obtain ⟨cause, at_⟩ := f
  cases cause with
  | voidValue _ | endInMethod | duplicateValue _ _ | unusedVariable _ | shadowedVariable _ _
  | ambiguousRegex | legacyOctal _ => exact ⟨rfl, rfl, rfl⟩

/-- Of findings of one sort there are none of another one. -/
lemma filter_eq_nil_of_sort {sort other : Finding → Bool} (h : ∀ f ∈ fs, sort f = true)
    (hsorts : ∀ f, (sort f && other f) = false) : fs.filter other = [] := by
  refine List.filter_eq_nil_iff.mpr fun f hf hother => ?_
  have hboth := hsorts f
  rw [h f hf, hother] at hboth
  cases hboth

/-- Variables in void context are findings of one sort. -/
lemma forall_voidFindings : ∀ f ∈ voidFindings n, f.isVoidValue = true :=
  List.forall_mem_map.mpr fun _ _ => rfl

/-- Exit hooks in methods are findings of one sort. -/
lemma forall_hookFindings : ∀ f ∈ hookFindings isMethod p, f.isEndInMethod = true := by
  unfold hookFindings
  split
  · exact List.forall_mem_singleton.mpr rfl
  · simp

/-- Repeated values are findings of one sort. -/
lemma forall_choiceFindings : ∀ f ∈ choiceFindings n, f.isDuplicateValue = true := by
  unfold choiceFindings
  split
  · exact fun f hf => isDuplicateValue_of_mem_repeatedValues hf
  · simp

/-- Of what a node shows, the variables in void context are one sort. -/
lemma filter_isVoidValue :
    (shapeFindings isMethod p).filter (·.isVoidValue) = voidFindings p.2 := by
  have hhooks : (hookFindings isMethod p).filter (·.isVoidValue) = [] :=
    filter_eq_nil_of_sort forall_hookFindings fun f => (Bool.and_comm _ _).trans (one_sort f).1
  have hchoices : (choiceFindings p.2).filter (·.isVoidValue) = [] :=
    filter_eq_nil_of_sort forall_choiceFindings fun f => (Bool.and_comm _ _).trans (one_sort f).2.1
  rw [shapeFindings, List.filter_append, List.filter_append, hhooks, hchoices,
    List.filter_eq_self.mpr forall_voidFindings, List.append_nil, List.append_nil]

/-- Of what a node shows, the exit hooks in methods are one sort. -/
lemma filter_isEndInMethod :
    (shapeFindings isMethod p).filter (·.isEndInMethod) = hookFindings isMethod p := by
  have hvoids : (voidFindings p.2).filter (·.isEndInMethod) = [] :=
    filter_eq_nil_of_sort forall_voidFindings fun f => (one_sort f).1
  have hchoices : (choiceFindings p.2).filter (·.isEndInMethod) = [] :=
    filter_eq_nil_of_sort forall_choiceFindings fun f => (Bool.and_comm _ _).trans (one_sort f).2.2
  rw [shapeFindings, List.filter_append, List.filter_append, hvoids, hchoices,
    List.filter_eq_self.mpr forall_hookFindings, List.append_nil, List.nil_append]

/-- Of what a node shows, the repeated values are one sort. -/
lemma filter_isDuplicateValue :
    (shapeFindings isMethod p).filter (·.isDuplicateValue) = choiceFindings p.2 := by
  have hvoids : (voidFindings p.2).filter (·.isDuplicateValue) = [] :=
    filter_eq_nil_of_sort forall_voidFindings fun f => (one_sort f).2.1
  have hhooks : (hookFindings isMethod p).filter (·.isDuplicateValue) = [] :=
    filter_eq_nil_of_sort forall_hookFindings fun f => (one_sort f).2.2
  rw [shapeFindings, List.filter_append, List.filter_append, hvoids, hhooks,
    List.filter_eq_self.mpr forall_choiceFindings, List.nil_append, List.nil_append]

/-! ### Texts -/

/-- The findings of a walk that are about the shape of the tree are those of its nodes. -/
lemma shape_ofText (limits : Limits) (source : List Char) :
    ((treeFindings (SyntaxTree.ofText limits source)).filter (·.isOfShape)).Perm
      ((SyntaxTree.ofText limits source).root.situated.flatMap
        (shapeFindings (isMethodAt (SyntaxTree.ofText limits source).root.situated))) := by
  obtain ⟨span, ns, hroot⟩ := root_ofText limits source
  have hsound := sound_ofText limits source
  rw [hroot] at hsound
  have hadmits := hsound.root.admits_plain (by simp [Node.inner]) (by simp [Node.inner])
    (by simp [Node.inner])
  have hchildren : (Node.inner .program span ns).children = [] ++ ns := rfl
  set isMethod := isMethodAt (SyntaxTree.ofText limits source).root.situated with hisMethod
  have hsituated : (SyntaxTree.ofText limits source).root.situated =
      ([], Node.inner .program span ns) :: situateAll [(0, true)] 1 ns := by
    rw [hroot, Node.situated, Node.situate_of_opens_some rfl hchildren]
    rfl
  have hplaced : Placed isMethod 0 (SyntaxTree.ofText limits source).root.situated := by
    intro i p hp
    rw [hisMethod, isMethodAt, Nat.zero_add, hp]
    rfl
  rw [hsituated] at hplaced
  have hframed : Framed isMethod [(0, true)] .initial := by
    have hprogram : isMethod 0 = false := hplaced.head
    simp [Framed, State.frameKinds, State.initial, ScopeStack.initial, ScopeStack.frames,
      Frame.empty, hprogram]
  have hshows : Shows isMethod [(0, true)] (eventsOfStatements ns [])
      (voidAmong ns ++ allShapeFindings isMethod [(0, true)] 1 ns) :=
    Shown.statements (fun c hc => shown (hsound.children c hc) (hadmits c hc)) hplaced.tail
  have hown : shapeFindings isMethod ([], Node.inner .program span ns) = voidAmong ns := by
    simp [shapeFindings, voidFindings, hookFindings, choiceFindings, voidVariables, voidAmong,
      Node.inner]
  have hprogram : eventsOfProgram (SyntaxTree.ofText limits source) = eventsOfStatements ns [] := by
    rw [eventsOfProgram, hroot]
    rfl
  have hfound := (hshows hframed).2
  have hinitial : State.initial.found.filter (·.isOfShape) = [] := rfl
  rw [hinitial, List.append_nil] at hfound
  rw [treeFindings, hprogram, List.filter_reverse, hsituated, List.flatMap_cons, hown]
  exact (List.reverse_perm _).trans hfound

end Analysis

/-- Those of some things for which there is something. -/
lemma flatMap_ite {α β : Type} {c : α → Prop} [DecidablePred c] {g : α → List β} {xs : List α} :
    (xs.flatMap fun x => if c x then g x else []) = (xs.filter fun x => c x).flatMap g := by
  induction xs with
  | nil => rfl
  | cons x xs ih =>
    rw [List.flatMap_cons, ih]
    by_cases hx : c x
    · rw [if_pos hx, List.filter_cons_of_pos (by simpa using hx), List.flatMap_cons]
    · rw [if_neg hx, List.filter_cons_of_neg (by simpa using hx), List.nil_append]

namespace Reading

open Analysis

/-- In every text the findings of some sort about the shape of the tree are what the nodes show. -/
lemma filter_shape (limits : Limits) (source : List Char) (sort : Finding → Bool)
    (hsort : ∀ f, sort f = true → f.isOfShape = true) :
    ((ofText limits source).findings.filter sort).Perm
      ((ofText limits source).tree.root.situated.flatMap fun p =>
        (shapeFindings (isMethodAt (ofText limits source).tree.root.situated) p).filter sort) := by
  have htokens : (tokenFindings (ofText limits source).tree.errorSpans
      (ofText limits source).stream.tokens).filter sort = [] := by
    refine List.filter_eq_nil_iff.mpr fun f hf hfsort => ?_
    have htoken := isOfToken_of_mem_tokenFindings f hf
    have hshape := hsort f hfsort
    obtain ⟨cause, at_⟩ := f
    cases cause with
    | ambiguousRegex | legacyOctal _ => cases hshape
    | voidValue _ | endInMethod | duplicateValue _ _ | unusedVariable _ | shadowedVariable _ _ =>
      cases htoken
  have hshape (fs : List Finding) : (fs.filter (·.isOfShape)).filter sort = fs.filter sort := by
    rw [List.filter_filter]
    refine List.filter_congr fun f _ => ?_
    cases hfsort : sort f with
    | false => rfl
    | true => rw [hsort f hfsort]; rfl
  rw [findings, Analysis.findings, List.filter_append, htokens, List.append_nil, ← hshape,
    ← List.filter_flatMap]
  exact (shape_ofText limits source).filter sort

/-- In every text, faulty ones included, what is found of three sorts is found once for each node
that it is about and never otherwise: a variable in void context for each use of a variable that
stands as a statement of the program or of a list of statements and is not the last one; an exit
hook in a method for each hook whose innermost closed scope is opened by a method; and the repeated
values of each `case`. -/
theorem shape_perm (limits : Limits) (source : List Char) :
    ((ofText limits source).findings.filter (·.isVoidValue)).Perm
        ((ofText limits source).tree.root.situated.flatMap fun p =>
          p.2.voidVariables.map fun n => ⟨.voidValue n.name, n.span.start⟩) ∧
      ((ofText limits source).findings.filter (·.isEndInMethod)).Perm
        (((ofText limits source).tree.root.situated.filter fun p => p.2.kind = .endBlock ∧
          inMethod (isMethodAt (ofText limits source).tree.root.situated) p.1).map fun p =>
            ⟨.endInMethod, p.2.span.start⟩) ∧
      ((ofText limits source).findings.filter (·.isDuplicateValue)).Perm
        (((ofText limits source).tree.root.situated.filter (·.2.kind = .case_)).flatMap fun p =>
          repeatedValues p.2) := by
  set ps := (ofText limits source).tree.root.situated
  have hvoid := filter_shape limits source (·.isVoidValue) fun f hf => by
    rw [Finding.isOfShape, hf, Bool.true_or, Bool.true_or]
  have hhook := filter_shape limits source (·.isEndInMethod) fun f hf => by
    rw [Finding.isOfShape, hf, Bool.or_true, Bool.true_or]
  have hcase := filter_shape limits source (·.isDuplicateValue) fun f hf => by
    rw [Finding.isOfShape, hf, Bool.or_true]
  simp only [filter_isVoidValue] at hvoid
  simp only [filter_isEndInMethod] at hhook
  simp only [filter_isDuplicateValue] at hcase
  simp only [hookFindings] at hhook
  simp only [choiceFindings] at hcase
  rw [flatMap_ite] at hhook hcase
  refine ⟨hvoid, ?_, hcase⟩
  rwa [List.map_eq_flatMap]

end Reading

end RubyCheck
