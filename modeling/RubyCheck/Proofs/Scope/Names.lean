import Mathlib.Tactic.Common
import RubyCheck.Grammar.State
import RubyCheck.Scope.Stack

/-!
# The names in a stack of frames

Which names can be seen in a stack depends on nothing but the names in its frames and which of the
frames belong to blocks.  So frames are scopes like those that reading keeps
(`ScopeStack.localScopes`), and a name is seen in both in the same way.  Counting reads and writes
changes no name; an assignment adds one exactly if it was not seen.
-/

namespace RubyCheck

open Grammar

/-- The names of a frame. -/
def Frame.localScope (f : Frame) : LocalScope := ⟨f.entries.map Prod.fst, f.kind != .block⟩

/-- The names of all frames, innermost first. -/
def ScopeStack.localScopes (s : ScopeStack) : List LocalScope := s.frames.map Frame.localScope

variable {f : Frame} {fs fs' : List Frame} {s : ScopeStack} {name name' : String} {v : Variable}
variable {g : Variable → Variable}

namespace Frame

/-- A name is looked up to something if it is listed. -/
lemma isSome_lookup (entries : List (String × Variable)) (name : String) :
    (entries.lookup name).isSome = (entries.map Prod.fst).contains name := by
  induction entries with
  | nil => rfl
  | cons p entries ih =>
    rw [List.lookup_cons, List.map_cons, List.contains_cons]
    split
    · rename_i heq
      simp [heq]
    · rename_i hne
      rw [ih, hne, Bool.false_or]

/-- A frame has the names of its scope. -/
lemma has_eq (f : Frame) (name : String) : f.has name = f.localScope.names.contains name :=
  isSome_lookup f.entries name

/-- Changing a variable changes no name. -/
lemma localScope_change : (f.change name g).localScope = f.localScope := by
  have hnames : (f.entries.map fun p => if p.1 == name then (p.1, g p.2) else p).map Prod.fst =
      f.entries.map Prod.fst := by
    rw [List.map_map]
    refine List.map_congr_left fun p _ => ?_
    dsimp only [Function.comp_apply]
    split
    · rfl
    · rfl
  rw [localScope, localScope, change, hnames]

/-- Adding a variable leaves the kind of the frame alone. -/
lemma kind_add : (f.add name v).kind = f.kind := by
  unfold add
  split
  · rfl
  · rfl

/-- Adding a variable leaves it alone whether the scope of the frame is closed. -/
lemma closed_add : (f.add name v).localScope.closed = f.localScope.closed := by
  rw [localScope, localScope, kind_add]

/-- One more name is seen from a frame to which it was added. -/
lemma visibleIn_add {scopes : List LocalScope} :
    State.visibleIn name' ((f.add name v).localScope :: scopes) = true ↔
      State.visibleIn name' (f.localScope :: scopes) = true ∨ name' = name := by
  unfold add
  split
  · rename_i hhas
    rw [has_eq] at hhas
    refine (or_iff_left_of_imp ?_).symm
    rintro rfl
    rw [State.visibleIn, hhas, Bool.true_or]
  · simp only [State.visibleIn, localScope, List.map_cons, List.contains_cons, Bool.or_eq_true,
      beq_iff_eq]
    tauto

end Frame

namespace ScopeStack

/-- A name is found in the frames if it is seen in their scopes. -/
lemma isSome_find? (name : String) (fs : List Frame) :
    (find? name fs).isSome = State.visibleIn name (fs.map Frame.localScope) := by
  rw [find?, List.isSome_findSome?]
  change (visible fs).any (·.has name) = _
  induction fs with
  | nil => rfl
  | cons f fs ih =>
    rw [List.map_cons, State.visibleIn, ← ih, ← Frame.has_eq]
    by_cases hkind : f.kind = .block
    · simp [visible, hkind, Frame.localScope]
    · simp [visible, hkind, Frame.localScope]

/-- A name is seen in a stack as it is in the scopes of its names. -/
lemma sees_eq (s : ScopeStack) (name : String) :
    s.sees name = State.visibleIn name s.localScopes :=
  isSome_find? name s.frames

/-- A variable is changed in the first frame that has one of the name, and only blocks are inside of
that frame. -/
lemma exists_of_change? (h : change? name g fs = some fs') :
    ∃ inner f outer, fs = inner ++ f :: outer ∧ fs' = inner ++ f.change name g :: outer ∧
      f.has name = true ∧ ∀ f ∈ inner, f.has name = false ∧ f.kind = .block := by
  induction fs generalizing fs' with
  | nil => simp [change?] at h
  | cons f fs ih =>
    unfold change? at h
    split at h
    · rename_i hhas
      obtain rfl := Option.some.inj h
      exact ⟨[], f, fs, rfl, rfl, hhas, List.forall_mem_nil _⟩
    · rename_i hhas
      split at h
      · rename_i hkind
        obtain ⟨fs'', hfs, rfl⟩ := Option.map_eq_some_iff.mp h
        obtain ⟨inner, f', outer, rfl, rfl, hhas', hinner⟩ := ih hfs
        have hhere : f.has name = false := Bool.eq_false_iff.mpr hhas
        exact ⟨f :: inner, f', outer, rfl, rfl, hhas',
          List.forall_mem_cons.mpr ⟨⟨hhere, hkind⟩, hinner⟩⟩
      · simp at h

/-- Changing a variable in one of the frames changes no name. -/
lemma map_change? (h : change? name g fs = some fs') :
    fs'.map Frame.localScope = fs.map Frame.localScope := by
  obtain ⟨inner, f, outer, rfl, rfl, -⟩ := exists_of_change? h
  simp only [List.map_append, List.map_cons, Frame.localScope_change]

/-- There is a variable to change in the frames if the name is seen. -/
lemma isSome_change? (fs : List Frame) :
    (change? name g fs).isSome = State.visibleIn name (fs.map Frame.localScope) := by
  induction fs with
  | nil => rfl
  | cons f fs ih =>
    rw [List.map_cons, State.visibleIn, ← ih, ← Frame.has_eq, change?]
    by_cases hhas : f.has name = true
    · simp [hhas]
    · by_cases hkind : f.kind = .block
      · simp [hhas, hkind, Frame.localScope]
      · simp [hhas, hkind, Frame.localScope]

/-- A change around the innermost frame changes no name. -/
lemma localScopes_changeOuter? {s' : ScopeStack} (h : s.changeOuter? name g = some s') :
    s'.localScopes = s.localScopes := by
  obtain ⟨fs, hfs, rfl⟩ := Option.map_eq_some_iff.mp h
  unfold around at hfs
  split at hfs
  · simp [localScopes, frames, map_change? hfs]
  · simp [change?] at hfs

/-- A change in a frame that is seen is made in the innermost one that has the name. -/
lemma frames_changeVisible? (s : ScopeStack) :
    (s.changeVisible? name g).map frames = change? name g s.frames := by
  unfold changeVisible? changeOuter? around
  rw [frames, change?]
  split
  · rfl
  · split
    · rw [Option.map_map]
      rfl
    · rfl

/-- The frames behind a change are those with the changed variable. -/
lemma change?_of_changeVisible? {s' : ScopeStack} (h : s.changeVisible? name g = some s') :
    change? name g s.frames = some s'.frames := by
  rw [← frames_changeVisible?, h]
  rfl

/-- A variable that is changed keeps its name. -/
lemma localScopes_changeVisible? {s' : ScopeStack} (h : s.changeVisible? name g = some s') :
    s'.localScopes = s.localScopes :=
  map_change? (change?_of_changeVisible? h)

/-- A change in a frame that is seen is made if the name is seen. -/
lemma isSome_changeVisible? (s : ScopeStack) (name : String) (g : Variable → Variable) :
    (s.changeVisible? name g).isSome = s.sees name := by
  rw [sees_eq, localScopes, ← isSome_change?, ← frames_changeVisible?, Option.isSome_map]

/-- Reading a name changes no name. -/
lemma localScopes_read (s : ScopeStack) (name : String) :
    (s.read name).localScopes = s.localScopes := by
  unfold read
  cases hchange : s.changeVisible? name .read with
  | none => rfl
  | some s' => exact localScopes_changeVisible? hchange

/-- Using a name of a frame around changes no name. -/
lemma localScopes_touchOuter (s : ScopeStack) (name : String) :
    (s.touchOuter name).localScopes = s.localScopes := by
  unfold touchOuter
  cases hchange : s.changeOuter? name .read with
  | none => rfl
  | some s' => exact localScopes_changeOuter? hchange

/-- An assignment to a variable that is seen makes none. -/
lemma localScopes_write {at_ : Position} (h : s.sees name = true) :
    (s.write name at_).localScopes = s.localScopes := by
  rw [← isSome_changeVisible? s name .write, Option.isSome_iff_exists] at h
  obtain ⟨s', hchange⟩ := h
  rw [write, hchange]
  exact localScopes_changeVisible? hchange

/-- Any other one adds a variable to the innermost frame. -/
lemma write_of_not_sees {at_ : Position} (h : s.sees name = false) :
    s.write name at_ = s.add name (.assigned at_) := by
  rw [← isSome_changeVisible? s name .write, Option.isSome_eq_false_iff, Option.isNone_iff_eq_none]
    at h
  rw [write, h]
  rfl

/-- A frame that is entered is a scope without names. -/
lemma localScopes_push (s : ScopeStack) (kind : FrameKind) :
    (s.push kind).localScopes = ⟨[], kind != .block⟩ :: s.localScopes := rfl

/-- The innermost frame is left, unless it is the outermost one. -/
lemma exists_pop? (h : 1 < s.localScopes.length) :
    ∃ f s', s.pop? = some (f, s') ∧ s'.localScopes = s.localScopes.tail := by
  obtain ⟨top, below⟩ := s
  cases below with
  | nil => simp [localScopes, frames] at h
  | cons f fs => exact ⟨top, ⟨f, fs⟩, rfl, rfl⟩

end ScopeStack

end RubyCheck
