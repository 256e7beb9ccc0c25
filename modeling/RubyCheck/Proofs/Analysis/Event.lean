import RubyCheck.Analysis.Run
import RubyCheck.Proofs.Scope.Names

/-!
# What events do to the names in sight

The events of a tree stand in front of those of whatever follows it (`events_append`).  Most of them
have nothing to do with names: such an event is silent, and the names of the frames are the same
behind it.  What the others do is one lemma each.
-/

namespace RubyCheck.Analysis

/-! ### Events of a tree -/

mutual

/-- What follows a tree follows its events. -/
lemma events_append (es rest : List Event) : (role : Role) → (n : Node) →
    events role n (es ++ rest) = events role n es ++ rest
  | role, ⟨kind, span, text, children⟩ => by
    have heach (role : Role) (es : List Event) := eventsOfEach_append es rest role children
    have hleave : .leave :: (es ++ rest) = (.leave :: es) ++ rest := rfl
    unfold events
    split
    case h_2 =>
      rw [← List.append_assoc]
      exact heach _ _
    case h_3 | h_4 | h_6 | h_7 => rfl
    case h_5 => exact eventsOfStatements_append es rest children
    case h_8 | h_9 => rw [heach, List.append_assoc]
    case h_10 | h_11 | h_14 | h_15 | h_16 | h_17 =>
      rw [hleave, heach]
      rfl
    case h_12 | h_13 => exact eventsOfClass_append es rest children
    all_goals exact heach _ es

/-- What follows the events of several trees is put behind them. -/
lemma eventsOfEach_append (es rest : List Event) : (role : Role) → (ns : List Node) →
    eventsOfEach role ns (es ++ rest) = eventsOfEach role ns es ++ rest
  | _, [] => rfl
  | role, n :: ns => by
    rw [eventsOfEach, eventsOfEach, eventsOfEach_append es rest role ns,
      events_append _ rest role n]

/-- What follows the events of statements is put behind them. -/
lemma eventsOfStatements_append (es rest : List Event) : (ns : List Node) →
    eventsOfStatements ns (es ++ rest) = eventsOfStatements ns es ++ rest
  | [] => rfl
  | [n] => events_append es rest .plain n
  | n :: m :: ns => by
    rw [eventsOfStatements, eventsOfStatements, eventsOfStatements_append es rest (m :: ns),
      events_append _ rest .plain n, List.append_assoc]

/-- What follows the events of a class is put behind them. -/
lemma eventsOfClass_append (es rest : List Event) : (ns : List Node) →
    eventsOfClass ns (es ++ rest) = eventsOfClass ns es ++ rest
  | [] => rfl
  | n :: ns => by
    have hleave : .leave :: (es ++ rest) = (.leave :: es) ++ rest := rfl
    unfold eventsOfClass
    split
    · rw [hleave, eventsOfEach_append _ rest .plain ns, events_append _ rest .plain n]
      rfl
    · rw [hleave, eventsOfEach_append _ rest .plain ns, ← List.cons_append,
        events_append _ rest .plain n]

end

/-- A tree shows the same events whatever follows it. -/
lemma events_eq_append (role : Role) (n : Node) (rest : List Event) :
    events role n rest = events role n [] ++ rest :=
  events_append [] rest role n

/-- Several trees show the same events whatever follows them. -/
lemma eventsOfEach_eq_append (role : Role) (ns : List Node) (rest : List Event) :
    eventsOfEach role ns rest = eventsOfEach role ns [] ++ rest :=
  eventsOfEach_append [] rest role ns

/-! ### Kinds of events -/

namespace Event

/-- Whether a node that uses a variable is visited. -/
def isUse : Event → Bool
  | use _ => true
  | _ => false

/-- Whether nothing happens to the names in sight, and no node that uses a variable is visited. -/
def isSilent : Event → Bool
  | useForUpdate _ | exitHook _ | found _ => true
  | _ => false

/-- An event that changes no name is no use of one. -/
lemma isUse_of_isSilent {e : Event} (h : e.isSilent = true) : e.isUse = false := by
  cases e with
  | useForUpdate _ | exitHook _ | found _ => rfl
  | enter _ | leave | use _ | write _ _ | parameter _ _ _ | blockLocal _ _ => simp [isSilent] at h

end Event

/-- What a statement in void context shows changes no name. -/
lemma isSilent_voidStatement (n : Node) : ∀ e ∈ voidStatement n, e.isSilent = true := by
  intro e he
  unfold voidStatement at he
  split at he
  · obtain rfl := List.mem_singleton.mp he
    rfl
  · simp at he

/-- What updating a variable shows changes no name. -/
lemma isSilent_updatedVariable (ns : List Node) : ∀ e ∈ updatedVariable ns, e.isSilent = true := by
  intro e he
  unfold updatedVariable at he
  split at he
  · split at he
    · obtain rfl := List.mem_singleton.mp he
      rfl
    · simp at he
  · simp at he

/-! ### Names -/

namespace State

variable {s : State} {e : Event} {es es' : List Event} {name : String}

/-- The names of all frames, innermost first. -/
def names (s : State) : List Grammar.LocalScope := s.scopes.localScopes

/-- Events are gone through one part after another. -/
lemma run_append (s : State) (es es' : List Event) : s.run (es ++ es') = (s.run es).run es' :=
  List.foldl_append

/-- Events are gone through step by step. -/
lemma run_cons (s : State) (e : Event) (es : List Event) : s.run (e :: es) = (s.step e).run es :=
  rfl

/-- Using a name changes none. -/
lemma names_use (s : State) (name : String) : (s.step (.use name)).names = s.names :=
  s.scopes.localScopes_read name

/-- A silent event changes no name. -/
lemma names_step_of_isSilent (h : e.isSilent = true) : (s.step e).names = s.names := by
  cases e with
  | useForUpdate name => exact s.scopes.localScopes_read name
  | exitHook at_ =>
    change ((exitHookFinding? s.scopes.enclosingDefinition at_).map s.find |>.getD s).names = _
    cases exitHookFinding? s.scopes.enclosingDefinition at_ with
    | none => rfl
    | some f => rfl
  | found f => rfl
  | enter _ | leave | use _ | write _ _ | parameter _ _ _ | blockLocal _ _ =>
    simp [Event.isSilent] at h

/-- Any number of silent events change no name. -/
lemma names_run_of_isSilent (h : ∀ e ∈ es, e.isSilent = true) : (s.run es).names = s.names := by
  induction es generalizing s with
  | nil => rfl
  | cons e es ih =>
    rw [List.forall_mem_cons] at h
    rw [run_cons, ih h.2, names_step_of_isSilent h.1]

/-- Entering a frame adds a scope without names. -/
lemma names_enter (s : State) (kind : FrameKind) :
    (s.step (.enter kind)).names = ⟨[], kind != .block⟩ :: s.names :=
  s.scopes.localScopes_push kind

/-- Unless it is the outermost one, the innermost frame is left. -/
lemma names_leave (h : 1 < s.names.length) : (s.step .leave).names = s.names.tail := by
  obtain ⟨f, scopes, hpop, hscopes⟩ := ScopeStack.exists_pop? h
  change s.leave.names = _
  rw [leave, hpop]
  exact hscopes

/-- A name that a block hides keeps its place. -/
lemma names_hide (s : State) (name : String) (at_ : Position) :
    (s.hide name at_).names = s.names := by
  unfold hide
  split
  · exact s.scopes.localScopes_touchOuter name
  · rfl

end State

end RubyCheck.Analysis
