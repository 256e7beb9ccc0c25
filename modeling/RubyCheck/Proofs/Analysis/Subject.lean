import RubyCheck.Proofs.Analysis.Unused

/-!
# What findings are about

Frames are numbered in the order in which they are entered, so a frame that was left is never
confused with one that is entered later (`FrameNumbers`).  A finding about a variable is about one
frame and one name: a parameter of a block is about the variable that it hides, a variable in void
context about the one that its name resolves to, and an unused variable about one of the frame that
is left (`subject?`).

A variable that is found to be hidden or in void context is not found to be unused as well.  It was
read when it was found, or is read right behind that; readings are only ever added while its frame is
open; and once the frame is left, nothing is found about it any more.
-/

namespace RubyCheck

namespace Finding

/-- Whether a variable was found where it is hidden by a parameter of a block. -/
def isShadowedVariable (f : Finding) : Bool :=
  match f.cause with
  | .shadowedVariable _ _ => true
  | _ => false

/-- Whether a variable was found that is spoken of all the same: it is hidden, or in void context. -/
def isSpokenOf (f : Finding) : Bool :=
  match f.cause with
  | .shadowedVariable _ _ | .voidValue _ => true
  | _ => false

end Finding

namespace Analysis

/-! ### Numbers of frames -/

/-- The numbers of the open frames.  The program is number zero. -/
structure FrameNumbers where
  /-- The innermost frame. -/
  top : ℕ
  /-- The frames around it, innermost first. -/
  below : List ℕ
  /-- The frame that is entered next. -/
  next : ℕ

namespace FrameNumbers

/-- The program alone is open. -/
def initial : FrameNumbers := ⟨0, [], 1⟩

/-- All open frames, innermost first. -/
def all (k : FrameNumbers) : List ℕ := k.top :: k.below

/-- The numbers behind an event. -/
def step (k : FrameNumbers) : Event → FrameNumbers
  | .enter _ => ⟨k.next, k.all, k.next + 1⟩
  | .leave =>
    match k.below with
    | [] => k
    | n :: ns => ⟨n, ns, k.next⟩
  | _ => k

end FrameNumbers

/-! ### Subjects of findings -/

/-- The variable of a name that is seen from the first of some numbered frames: the number of its
frame, and the name. -/
def seen? (name : String) (ns : List ℕ) (fs : List Frame) : Option (ℕ × String) :=
  ((ns.zip (ScopeStack.visible fs)).find? fun p => p.2.has name).map fun p => (p.1, name)

/-- The variable that a finding is about, in front of the event that finds it. -/
def subject? (k : FrameNumbers) (s : State) : Finding.Cause → Option (ℕ × String)
  | .shadowedVariable name _ => seen? name k.below s.scopes.around
  | .voidValue name => seen? name k.all s.scopes.frames
  | .unusedVariable name => some (k.top, name)
  | _ => none

/-- What one event finds, in order. -/
def State.foundBy (s : State) (e : Event) : List Finding :=
  ((s.step e).found.take ((s.step e).found.length - s.found.length)).reverse

/-- What events find, in order, and the variable that each finding is about, if any. -/
def attributed (k : FrameNumbers) (s : State) : List Event → List (Finding × Option (ℕ × String))
  | [] => []
  | e :: es =>
    ((s.foundBy e).map fun f => (f, subject? k s f.cause)) ++ attributed (k.step e) (s.step e) es

end Analysis

/-- What the walk over a text finds, in order, and the variable that each finding is about, if any. -/
def Reading.attributed (r : Reading) : List (Finding × Option (ℕ × String)) :=
  Analysis.attributed .initial .initial (Analysis.eventsOfProgram r.tree)

/-! ### Frames are extended -/

/-- No variable of a frame is lost, and none is read less often. -/
structure Frame.Extends (f f' : Frame) : Prop where
  nodup : (f.entries.map Prod.fst).Nodup → (f'.entries.map Prod.fst).Nodup
  reads ⦃name : String⦄ ⦃x : Variable⦄ :
    f.get? name = some x → ∃ x', f'.get? name = some x' ∧ x.reads ≤ x'.reads

/-- The frames of a stack stay, and each is extended. -/
def ScopeStack.Extends (s s' : ScopeStack) : Prop := List.Forall₂ Frame.Extends s.frames s'.frames

variable {f f' f'' : Frame} {fs fs' : List Frame} {s s' s'' : ScopeStack} {name : String}
  {g : Variable → Variable} {x : Variable} {at_ : Position}

namespace Frame.Extends

/-- A frame extends itself. -/
lemma refl (f : Frame) : f.Extends f where
  nodup := id
  reads _ x hx := ⟨x, hx, le_rfl⟩

/-- Extending twice is extending. -/
lemma trans (h : f.Extends f') (h' : f'.Extends f'') : f.Extends f'' where
  nodup hf := h'.nodup (h.nodup hf)
  reads name x hx := by
    obtain ⟨x', hx', hle⟩ := h.reads hx
    obtain ⟨x'', hx'', hle'⟩ := h'.reads hx'
    exact ⟨x'', hx'', hle.trans hle'⟩

/-- A change that lowers no count of readings extends the frame. -/
lemma change (hg : ∀ x, x.reads ≤ (g x).reads) : f.Extends (f.change name g) := by
  constructor
  · intro hf
    have hnames : (f.change name g).localScope.names.Nodup := by
      rw [localScope_change]
      exact hf
    exact hnames
  · intro name' x hx
    rw [get?_change, hx]
    split
    · exact ⟨g x, rfl, hg x⟩
    · exact ⟨x, rfl, le_rfl⟩

/-- A variable that is added extends the frame, whether or not it was there. -/
lemma add : f.Extends (f.add name x) := by
  constructor
  · intro hf
    unfold Frame.add
    split
    · exact hf
    · rename_i hhas
      refine List.nodup_cons.mpr ⟨fun hname => hhas ?_, hf⟩
      rw [has_eq]
      exact List.contains_iff_mem.mpr hname
  · intro name' y hy
    rw [get?_add]
    split
    · rename_i hname
      rw [hname] at hy
      exact ⟨y, by rw [hy]; rfl, le_rfl⟩
    · exact ⟨y, hy, le_rfl⟩

end Frame.Extends

namespace ScopeStack

/-- A change in one of the frames extends them all. -/
lemma extends_change? (hg : ∀ x, x.reads ≤ (g x).reads) (h : change? name g fs = some fs') :
    List.Forall₂ Frame.Extends fs fs' := by
  obtain ⟨inner, f, outer, rfl, rfl, -⟩ := exists_of_change? h
  have hsame (fs : List Frame) : List.Forall₂ Frame.Extends fs fs :=
    List.forall₂_same.mpr fun f _ => .refl f
  exact List.rel_append (hsame inner) (.cons (.change hg) (hsame outer))

namespace Extends

/-- A stack extends itself. -/
lemma refl (s : ScopeStack) : s.Extends s := List.forall₂_same.mpr fun f _ => .refl f

/-- Extending a stack twice is extending it. -/
lemma trans (h : s.Extends s') (h' : s'.Extends s'') : s.Extends s'' := by
  unfold Extends at h h' ⊢
  generalize s.frames = fs at h
  generalize s'.frames = fs' at h h'
  generalize s''.frames = fs'' at h'
  induction h generalizing fs'' with
  | nil => exact h'
  | cons hf _ ih =>
    cases h' with
    | cons hf' hfs' => exact .cons (hf.trans hf') (ih _ hfs')

/-- A change in a frame that is seen extends the stack. -/
lemma changeVisible? (hg : ∀ x, x.reads ≤ (g x).reads) (h : s.changeVisible? name g = some s') :
    s.Extends s' :=
  extends_change? hg (change?_of_changeVisible? h)

/-- A variable that is added extends the stack. -/
lemma add : s.Extends (s.add name x) :=
  .cons .add (List.forall₂_same.mpr fun f _ => .refl f)

/-- Reading a name extends the stack. -/
lemma read : s.Extends (s.read name) := by
  unfold ScopeStack.read
  cases hchange : s.changeVisible? name .read with
  | none => exact .refl s
  | some s' => exact .changeVisible? (fun x => Nat.le_succ x.reads) hchange

/-- Writing a name extends the stack. -/
lemma write : s.Extends (s.write name at_) := by
  unfold ScopeStack.write
  cases hchange : s.changeVisible? name .write with
  | none => exact .add
  | some s' =>
    have hwrite (x : Variable) : x.reads ≤ x.write.reads := le_rfl
    exact .changeVisible? hwrite hchange

/-- Using a name of a frame around extends the stack. -/
lemma touchOuter : s.Extends (s.touchOuter name) := by
  unfold ScopeStack.touchOuter changeOuter? around
  split
  · cases hchange : change? name .read s.below with
    | none => exact .refl s
    | some fs =>
      exact .cons (.refl s.top) (extends_change? (fun x => Nat.le_succ x.reads) hchange)
  · exact .refl s

end Extends

end ScopeStack

namespace Analysis

variable {k : FrameNumbers} {s : State} {e : Event} {es : List Event} {ns : List ℕ}
  {v : ℕ × String} {c : Finding.Cause}

/-! ### What is seen -/

/-- A variable is seen in the innermost frame that has it, through frames of blocks only. -/
lemma seen?_cons (n : ℕ) (f : Frame) :
    seen? name (n :: ns) (f :: fs) =
      if f.has name then some (n, name)
      else if f.kind = .block then seen? name ns fs else none := by
  rw [seen?, ScopeStack.visible]
  by_cases hhas : f.has name = true
  · by_cases hkind : f.kind = .block
    · simp [hhas, hkind]
    · simp [hhas, hkind]
  · by_cases hkind : f.kind = .block
    · simp [hhas, hkind, seen?]
    · simp [hhas, hkind]

/-- What is seen is in one of the frames and has the name that was looked for. -/
lemma mem_of_seen? (h : seen? name ns fs = some v) : v.1 ∈ ns ∧ v.2 = name := by
  obtain ⟨p, hp, rfl⟩ := Option.map_eq_some_iff.mp h
  exact ⟨(List.of_mem_zip (List.mem_of_find?_eq_some hp)).1, rfl⟩

/-- A variable is seen from some frames if one of its name is changed there. -/
lemma isSome_seen? (h : ns.length = fs.length) :
    (seen? name ns fs).isSome = (ScopeStack.find? name fs).isSome := by
  rw [ScopeStack.isSome_find?, ← ScopeStack.isSome_change? (g := .read)]
  induction fs generalizing ns with
  | nil =>
    obtain rfl := List.length_eq_zero_iff.mp h
    rfl
  | cons f fs ih =>
    cases ns with
    | nil => simp at h
    | cons n ns =>
      rw [seen?_cons, ScopeStack.change?]
      split
      · rfl
      · split
        · rw [Option.isSome_map]
          exact ih (Nat.succ.inj h)
        · rfl

/-- Whatever a finding is about belongs to a frame that is open. -/
lemma mem_of_subject? (h : subject? k s c = some v) : v.1 ∈ k.all := by
  cases c with
  | shadowedVariable name line => exact List.mem_cons_of_mem _ (mem_of_seen? h).1
  | voidValue name => exact (mem_of_seen? h).1
  | unusedVariable name =>
    obtain rfl := Option.some.inj h
    exact List.mem_cons_self
  | duplicateValue _ _ | ambiguousRegex | legacyOctal _ | endInMethod => simp [subject?] at h

/-! ### What holds of open frames -/

/-- The open frames have different numbers, below those of the frames that are entered later, and
each has a name only once. -/
structure Numbered (k : FrameNumbers) (s : State) : Prop where
  length : k.all.length = s.scopes.frames.length
  nodup : k.all.Nodup
  lt : ∀ n ∈ k.all, n < k.next
  names : ∀ p ∈ k.all.zip s.scopes.frames, (p.2.entries.map Prod.fst).Nodup

/-- A variable was read, as long as its frame is open. -/
structure WasRead (k : FrameNumbers) (s : State) (v : ℕ × String) : Prop where
  lt : v.1 < k.next
  read : ∀ p ∈ k.all.zip s.scopes.frames, p.1 = v.1 →
    ∃ x, p.2.get? v.2 = some x ∧ 0 < x.reads

/-- The frame of a variable was left. -/
structure Gone (k : FrameNumbers) (v : ℕ × String) : Prop where
  lt : v.1 < k.next
  left : v.1 ∉ k.all

/-- Whether no frame is entered and none is left. -/
def Event.stays : Event → Bool
  | .enter _ | .leave => false
  | _ => true

/-- Where no frame is entered or left, the numbers stay. -/
lemma step_of_stays (he : e.stays = true) : k.step e = k := by
  cases e with
  | enter kind => simp [Event.stays] at he
  | leave => simp [Event.stays] at he
  | use _ | useForUpdate _ | write _ _ | parameter _ _ _ | blockLocal _ _ | exitHook _ | found _ =>
    rfl

/-- The frames stay, unless one is entered or left. -/
lemma extends_step (he : e.stays = true) : s.scopes.Extends (s.step e).scopes := by
  cases e with
  | enter kind => simp [Event.stays] at he
  | leave => simp [Event.stays] at he
  | use name => exact .read
  | useForUpdate name => exact .read
  | write name at_ => exact .write
  | parameter name at_ inBlock =>
    cases inBlock with
    | true =>
      refine .trans ?_ .add
      change s.scopes.Extends (s.hide name at_).scopes
      rw [Booked.hide_scopes]
      exact .touchOuter
    | false => exact .add
  | blockLocal name at_ => exact .add
  | exitHook at_ =>
    change s.scopes.Extends (((exitHookFinding? s.scopes.enclosingDefinition at_).map s.find).getD s).scopes
    cases exitHookFinding? s.scopes.enclosingDefinition at_ with
    | none => exact .refl s.scopes
    | some f => exact .refl s.scopes
  | found f => exact .refl s.scopes

/-- A frame that was extended kept its number. -/
lemma exists_extends {p : ℕ × Frame} (h : List.Forall₂ Frame.Extends fs fs')
    (hp : p ∈ ns.zip fs') : ∃ f, (p.1, f) ∈ ns.zip fs ∧ f.Extends p.2 := by
  induction h generalizing ns with
  | nil => simp at hp
  | @cons f f' fs fs' hf hfs ih =>
    cases ns with
    | nil => simp at hp
    | cons n ns =>
      rw [List.zip_cons_cons, List.mem_cons] at hp
      rcases hp with rfl | hp
      · exact ⟨f, List.mem_cons_self, hf⟩
      · obtain ⟨f'', hmem, hextends⟩ := ih hp
        exact ⟨f'', List.mem_cons_of_mem _ hmem, hextends⟩

namespace Numbered

/-- At the beginning there is one frame, of the number zero. -/
lemma initial : Numbered .initial .initial where
  length := rfl
  nodup := List.nodup_singleton 0
  lt := List.forall_mem_singleton.mpr Nat.zero_lt_one
  names := List.forall_mem_singleton.mpr List.nodup_nil

/-- Either there are frames around both, or there are none. -/
lemma below (h : Numbered k s) : k.below.length = s.scopes.below.length := Nat.succ.inj h.length

/-- Numbers stay apart over every event, and names in each frame as well. -/
lemma step (h : Numbered k s) (e : Event) : Numbered (k.step e) (s.step e) := by
  by_cases hstays : e.stays = true
  · have hextends := extends_step (s := s) hstays
    rw [step_of_stays hstays]
    refine ⟨h.length.trans hextends.length_eq, h.nodup, h.lt, fun p hp => ?_⟩
    obtain ⟨f, hf, hfp⟩ := exists_extends hextends hp
    exact hfp.nodup (h.names _ hf)
  cases e with
  | enter kind =>
    refine ⟨congrArg (· + 1) h.length, ?_, ?_, ?_⟩
    · exact List.nodup_cons.mpr ⟨fun hmem => Nat.lt_irrefl _ (h.lt _ hmem), h.nodup⟩
    · exact List.forall_mem_cons.mpr ⟨Nat.lt_succ_self _, fun n hn => Nat.lt_succ_of_lt (h.lt n hn)⟩
    · exact List.forall_mem_cons.mpr ⟨List.nodup_nil, h.names⟩
  | leave =>
    obtain ⟨⟨top, below⟩, found⟩ := s
    obtain ⟨number, numbers, next⟩ := k
    cases below with
    | nil =>
      obtain rfl := List.length_eq_zero_iff.mp h.below
      exact h
    | cons f fs =>
      cases numbers with
      | nil => simpa using h.below
      | cons n ns =>
        exact ⟨Nat.succ.inj h.length, (List.nodup_cons.mp h.nodup).2,
          (List.forall_mem_cons.mp h.lt).2, (List.forall_mem_cons.mp h.names).2⟩
  | use _ | useForUpdate _ | write _ _ | parameter _ _ _ | blockLocal _ _ | exitHook _ | found _ =>
    simp [Event.stays] at hstays

end Numbered

/-- No frame is opened again. -/
lemma Gone.step (h : Gone k v) (e : Event) : Gone (k.step e) v := by
  by_cases hstays : e.stays = true
  · rwa [step_of_stays hstays]
  cases e with
  | enter kind =>
    refine ⟨Nat.lt_succ_of_lt h.lt, fun hmem => ?_⟩
    rcases List.mem_cons.mp hmem with heq | hmem
    · exact Nat.ne_of_lt h.lt heq
    · exact h.left hmem
  | leave =>
    obtain ⟨number, numbers, next⟩ := k
    cases numbers with
    | nil => exact h
    | cons n ns => exact ⟨h.lt, fun hmem => h.left (List.mem_cons_of_mem _ hmem)⟩
  | use _ | useForUpdate _ | write _ _ | parameter _ _ _ | blockLocal _ _ | exitHook _ | found _ =>
    simp [Event.stays] at hstays

namespace WasRead

/-- A reading is never taken back. -/
lemma step (h : WasRead k s v) (hnumbered : Numbered k s) (e : Event) :
    WasRead (k.step e) (s.step e) v := by
  by_cases hstays : e.stays = true
  · rw [step_of_stays hstays]
    refine ⟨h.lt, fun p hp hv => ?_⟩
    obtain ⟨f, hf, hextends⟩ := exists_extends (extends_step hstays) hp
    obtain ⟨x, hx, hreads⟩ := h.read _ hf hv
    obtain ⟨x', hx', hle⟩ := hextends.reads hx
    exact ⟨x', hx', Nat.lt_of_lt_of_le hreads hle⟩
  cases e with
  | enter kind =>
    refine ⟨Nat.lt_succ_of_lt h.lt, fun p hp hv => ?_⟩
    rcases List.mem_cons.mp hp with rfl | hp
    · exact absurd hv (Nat.ne_of_gt h.lt)
    · exact h.read p hp hv
  | leave =>
    obtain ⟨⟨top, below⟩, found⟩ := s
    obtain ⟨number, numbers, next⟩ := k
    cases below with
    | nil =>
      obtain rfl := List.length_eq_zero_iff.mp hnumbered.below
      exact h
    | cons f fs =>
      cases numbers with
      | nil => simpa using hnumbered.below
      | cons n ns => exact ⟨h.lt, fun p hp => h.read p (List.mem_cons_of_mem _ hp)⟩
  | use _ | useForUpdate _ | write _ _ | parameter _ _ _ | blockLocal _ _ | exitHook _ | found _ =>
    simp [Event.stays] at hstays

/-- Whatever is seen under a name is what a use of the name reads. -/
lemma of_change? (hns : ns.Nodup) (hseen : seen? name ns fs = some v)
    (hchange : ScopeStack.change? name .read fs = some fs') :
    ∀ p ∈ ns.zip fs', p.1 = v.1 → ∃ x, p.2.get? v.2 = some x ∧ 0 < x.reads := by
  induction fs generalizing ns fs' with
  | nil => simp [ScopeStack.change?] at hchange
  | cons f fs ih =>
    cases ns with
    | nil => simp [seen?] at hseen
    | cons n ns =>
      obtain ⟨hn, hns⟩ := List.nodup_cons.mp hns
      rw [seen?_cons] at hseen
      rw [ScopeStack.change?] at hchange
      split at hseen
      · rename_i hhas
        rw [if_pos hhas] at hchange
        obtain rfl := Option.some.inj hseen
        obtain rfl := Option.some.inj hchange
        obtain ⟨x, hx⟩ := Option.isSome_iff_exists.mp hhas
        intro p hp hv
        rw [List.zip_cons_cons, List.mem_cons] at hp
        rcases hp with rfl | hp
        · refine ⟨x.read, ?_, Nat.succ_pos _⟩
          rw [Frame.get?_change, if_pos rfl, hx]
          rfl
        · obtain rfl : p.1 = n := hv
          exact absurd (List.of_mem_zip hp).1 hn
      · rename_i hhas
        rw [if_neg hhas] at hchange
        split at hseen
        · rename_i hkind
          rw [if_pos hkind] at hchange
          obtain ⟨fs'', hfs, rfl⟩ := Option.map_eq_some_iff.mp hchange
          intro p hp hv
          rw [List.zip_cons_cons, List.mem_cons] at hp
          rcases hp with rfl | hp
          · obtain rfl : n = v.1 := hv
            exact absurd (mem_of_seen? hseen).1 hn
          · exact ih hns hseen hfs p hp hv
        · simp at hseen

end WasRead

/-! ### What single events find -/

namespace State

/-- What is put in front of the findings is what the event found. -/
lemma foundBy_of_eq {new : List Finding} (h : (s.step e).found = new ++ s.found) :
    s.foundBy e = new.reverse := by
  rw [foundBy, h, List.length_append, Nat.add_sub_cancel, List.take_left]

/-- An event that puts nothing there found nothing. -/
lemma foundBy_of_found_eq (h : (s.step e).found = s.found) : s.foundBy e = [] := by
  rw [← List.nil_append s.found] at h
  exact foundBy_of_eq h

/-- An event that puts one finding there found it. -/
lemma foundBy_of_find {f : Finding} (h : (s.step e).found = f :: s.found) : s.foundBy e = [f] := by
  rw [← List.singleton_append] at h
  exact foundBy_of_eq h

/-- What a node shows by itself is found as it is. -/
lemma foundBy_found (f : Finding) : s.foundBy (.found f) = [f] := foundBy_of_find rfl

/-- An exit hook is found by the definition around it. -/
lemma foundBy_exitHook :
    s.foundBy (.exitHook at_) = (exitHookFinding? s.scopes.enclosingDefinition at_).toList := by
  have hstep : s.step (.exitHook at_) =
      ((exitHookFinding? s.scopes.enclosingDefinition at_).map s.find).getD s := rfl
  cases hfound : exitHookFinding? s.scopes.enclosingDefinition at_ with
  | none =>
    rw [hfound] at hstep
    exact foundBy_of_found_eq (congrArg found hstep)
  | some f =>
    rw [hfound] at hstep
    exact foundBy_of_find (congrArg found hstep)

/-- Leaving a frame finds its unused variables; the outermost frame is never left. -/
lemma foundBy_leave :
    s.foundBy .leave = if s.scopes.below = [] then [] else s.scopes.top.unused := by
  obtain ⟨⟨top, below⟩, found⟩ := s
  cases below with
  | nil => exact foundBy_of_found_eq rfl
  | cons f fs => exact (foundBy_of_eq rfl).trans (List.reverse_reverse _)

/-- A parameter of a block is found if it hides a variable around. -/
lemma foundBy_parameter {inBlock : Bool} :
    s.foundBy (.parameter name at_ inBlock) =
      if inBlock then
        ((s.scopes.outer? name).map fun outer =>
          ⟨.shadowedVariable name outer.declaredAt.shownLine, at_⟩).toList
      else [] := by
  cases inBlock with
  | false => exact foundBy_of_found_eq rfl
  | true =>
    have hstep : (s.step (.parameter name at_ true)).found = (s.hide name at_).found := rfl
    unfold hide at hstep
    cases houter : s.scopes.outer? name with
    | none =>
      rw [houter] at hstep
      exact foundBy_of_found_eq hstep
    | some outer =>
      rw [houter] at hstep
      exact foundBy_of_find hstep

/-- What was found stays. -/
lemma found_step (s : State) (e : Event) : (s.step e).found = (s.foundBy e).reverse ++ s.found := by
  have hnew : ∃ new, (s.step e).found = new ++ s.found := by
    cases e with
    | enter _ | use _ | useForUpdate _ | write _ _ | blockLocal _ _ => exact ⟨[], rfl⟩
    | found f => exact ⟨[f], rfl⟩
    | leave =>
      obtain ⟨⟨top, below⟩, found⟩ := s
      cases below with
      | nil => exact ⟨[], rfl⟩
      | cons f fs => exact ⟨_, rfl⟩
    | exitHook at_ =>
      change ∃ new, (((exitHookFinding? s.scopes.enclosingDefinition at_).map s.find).getD s).found = _
      cases exitHookFinding? s.scopes.enclosingDefinition at_ with
      | none => exact ⟨[], rfl⟩
      | some f => exact ⟨[f], rfl⟩
    | parameter name at_ inBlock =>
      cases inBlock with
      | false => exact ⟨[], rfl⟩
      | true =>
        change ∃ new, (s.hide name at_).found = _
        unfold hide
        cases s.scopes.outer? name with
        | none => exact ⟨[], rfl⟩
        | some outer => exact ⟨[_], rfl⟩
  obtain ⟨new, hnew⟩ := hnew
  rw [foundBy_of_eq hnew, List.reverse_reverse, hnew]

end State

/-- Nothing but what was found before is left out. -/
lemma found_run (k : FrameNumbers) (s : State) (es : List Event) :
    (s.run es).found = ((attributed k s es).map Prod.fst).reverse ++ s.found := by
  induction es generalizing k s with
  | nil => rfl
  | cons e es ih =>
    have hfst : ((s.foundBy e).map fun f => (f, subject? k s f.cause)).map Prod.fst =
        s.foundBy e := by
      rw [List.map_map]
      exact List.map_id _
    rw [State.run_cons, ih (k.step e), State.found_step, attributed, List.map_append, hfst,
      List.reverse_append, List.append_assoc]

/-! ### Events of a walk -/

/-- Whatever is found by itself among some events is a repeated value or a variable in void context,
and such a variable is used right behind that. -/
inductive VoidUsed : List Event → Prop
  | nil : VoidUsed []
  | other {e : Event} {es : List Event} (he : ∀ f, e ≠ .found f) (h : VoidUsed es) :
      VoidUsed (e :: es)
  | repeated {f : Finding} {es : List Event} {spelling : String} {line : ℕ}
      (hf : f.cause = .duplicateValue spelling line) (h : VoidUsed es) : VoidUsed (.found f :: es)
  | void {name : String} {at_ : Position} {es : List Event} (h : VoidUsed es) :
      VoidUsed (.found ⟨.voidValue name, at_⟩ :: .use name :: es)

namespace VoidUsed

/-- The variable that an assignment updates is only read there. -/
lemma updatedVariable (ns : List Node) (h : VoidUsed es) :
    VoidUsed (Analysis.updatedVariable ns ++ es) := by
  unfold Analysis.updatedVariable
  split
  · split
    · exact .other (by simp) h
    · exact h
  · exact h

/-- The name of a parameter is only bound. -/
lemma namedParameter (name : String) (at_ : Position) (inBlock : Bool) (h : VoidUsed es) :
    VoidUsed (Analysis.namedParameter name at_ inBlock ++ es) := by
  unfold Analysis.namedParameter
  split
  · exact h
  · exact .other (by simp) h

/-- Repeated values of a `case` are found as such. -/
lemma repeatedValues (n : Node) (h : VoidUsed es) :
    VoidUsed ((Analysis.repeatedValues n).map .found ++ es) := by
  have hcause : ∀ f ∈ Analysis.repeatedValues n, ∃ spelling line,
      f.cause = .duplicateValue spelling line := fun f hf => (mem_repeatedAmong hf).1
  revert hcause
  induction Analysis.repeatedValues n with
  | nil => exact fun _ => h
  | cons f fs ih =>
    intro hcause
    obtain ⟨⟨spelling, line, hf⟩, hfs⟩ := List.forall_mem_cons.mp hcause
    exact .repeated hf (ih hfs)

/-- The variable of a statement in void context is used right behind that. -/
lemma voidStatement (n : Node) (h : VoidUsed (events .plain n es)) :
    VoidUsed (Analysis.voidStatement n ++ events .plain n es) := by
  unfold Analysis.voidStatement
  split
  · rename_i hkind
    obtain ⟨kind, span, text, children⟩ := n
    obtain rfl : kind = .localVariable := hkind
    have hevents : events .plain ⟨.localVariable, span, text, children⟩ es =
        .use (text.getD "") :: es := by
      unfold events
      rfl
    rw [hevents] at h ⊢
    cases h with
    | other _ hes => exact .void hes
  · exact h

end VoidUsed

mutual

/-- In the events of a tree, a variable in void context is read at once. -/
lemma voidUsed_events : (role : Role) → (n : Node) → ∀ {es : List Event}, VoidUsed es →
    VoidUsed (events role n es)
  | role, ⟨kind, span, text, children⟩, es, h => by
    have heach (role : Role) {es : List Event} (h : VoidUsed es) :=
      voidUsed_eventsOfEach role children h
    have hleave : VoidUsed (.leave :: es) := .other (by simp) h
    have henter {kind : FrameKind} {es : List Event} (h : VoidUsed es) :
        VoidUsed (.enter kind :: es) := .other (by simp) h
    unfold events
    split
    case h_2 => exact heach _ (.namedParameter _ _ _ h)
    case h_3 | h_6 | h_7 => exact .other (by simp) h
    case h_4 => exact h
    case h_5 => exact voidUsed_eventsOfStatements children h
    case h_8 => exact .updatedVariable _ (heach _ h)
    case h_9 => exact .repeatedValues _ (heach _ h)
    case h_10 | h_11 | h_14 | h_15 | h_16 => exact henter (heach _ hleave)
    case h_12 | h_13 => exact voidUsed_eventsOfClass children h
    case h_17 => exact .other (by simp) (henter (heach _ hleave))
    all_goals exact heach _ h

/-- In the events of several trees, a variable in void context is read at once. -/
lemma voidUsed_eventsOfEach : (role : Role) → (ns : List Node) → ∀ {es : List Event},
    VoidUsed es → VoidUsed (eventsOfEach role ns es)
  | _, [], _, h => h
  | role, n :: ns, _, h => voidUsed_events role n (voidUsed_eventsOfEach role ns h)

/-- In the events of statements, all but the last of which are in void context, such a variable is read
at once. -/
lemma voidUsed_eventsOfStatements : (ns : List Node) → ∀ {es : List Event},
    VoidUsed es → VoidUsed (eventsOfStatements ns es)
  | [], _, h => h
  | [n], _, h => voidUsed_events .plain n h
  | n :: m :: ns, _, h =>
    .voidStatement n (voidUsed_events .plain n (voidUsed_eventsOfStatements (m :: ns) h))

/-- In the events of a class, a variable in void context is read at once. -/
lemma voidUsed_eventsOfClass : (ns : List Node) → ∀ {es : List Event},
    VoidUsed es → VoidUsed (eventsOfClass ns es)
  | [], _, h => .other (by simp) (.other (by simp) h)
  | n :: ns, es, h => by
    have hleave : VoidUsed (.leave :: es) := .other (by simp) h
    have hbody := voidUsed_eventsOfEach .plain ns hleave
    unfold eventsOfClass
    split
    · exact .other (by simp) (voidUsed_events .plain n hbody)
    · exact voidUsed_events .plain n (.other (by simp) hbody)

end

/-! ### Findings about one variable -/

section

variable {f : Finding}

/-- What is found where a parameter is bound is a variable that it hides. -/
lemma exists_of_mem_foundBy_parameter {inBlock : Bool}
    (hf : f ∈ s.foundBy (.parameter name at_ inBlock)) :
    inBlock = true ∧ ∃ outer, s.scopes.outer? name = some outer ∧
      f = ⟨.shadowedVariable name outer.declaredAt.shownLine, at_⟩ := by
  rw [State.foundBy_parameter] at hf
  split at hf
  · rename_i hblock
    obtain ⟨outer, houter, rfl⟩ := Option.map_eq_some_iff.mp (Option.mem_toList.mp hf)
    exact ⟨hblock, outer, houter, rfl⟩
  · simp at hf

/-- What leaving a frame finds is an unused variable of that frame. -/
lemma mem_unused_of_mem_foundBy_leave (hf : f ∈ s.foundBy .leave) :
    s.scopes.below ≠ [] ∧ f ∈ s.scopes.top.unused := by
  rw [State.foundBy_leave] at hf
  split at hf
  · simp at hf
  · rename_i hbelow
    exact ⟨hbelow, hf⟩

/-- Besides what stands among the events themselves, variables are found that are hidden or unused,
and hooks. -/
lemma found_cases (hf : f ∈ s.foundBy e) (he : ∀ g, e ≠ .found g) :
    (∃ name at_ outer, e = .parameter name at_ true ∧ s.scopes.outer? name = some outer ∧
      f = ⟨.shadowedVariable name outer.declaredAt.shownLine, at_⟩) ∨
    (e = .leave ∧ s.scopes.below ≠ [] ∧ f ∈ s.scopes.top.unused) ∨
    f.cause = .endInMethod := by
  cases e with
  | enter _ | use _ | useForUpdate _ | write _ _ | blockLocal _ _ =>
    rw [State.foundBy_of_found_eq rfl] at hf
    simp at hf
  | found g => exact absurd rfl (he g)
  | parameter name at_ inBlock =>
    obtain ⟨rfl, outer, houter, rfl⟩ := exists_of_mem_foundBy_parameter hf
    exact .inl ⟨name, at_, outer, rfl, houter, rfl⟩
  | leave => exact .inr (.inl ⟨rfl, mem_unused_of_mem_foundBy_leave hf⟩)
  | exitHook at_ =>
    rw [State.foundBy_exitHook, Option.mem_toList] at hf
    unfold exitHookFinding? at hf
    split at hf
    · obtain rfl := Option.some.inj hf
      exact .inr (.inr rfl)
    · simp at hf

/-- A finding of an unused variable names it. -/
lemma exists_cause_of_isUnusedVariable (h : f.isUnusedVariable = true) :
    ∃ name, f.cause = .unusedVariable name := by
  unfold Finding.isUnusedVariable at h
  split at h
  · exact ⟨_, ‹_›⟩
  · simp at h

/-- A finding of an unused variable is not about one that is spoken of all the same. -/
lemma isSpokenOf_of_isUnusedVariable (h : f.isUnusedVariable = true) : f.isSpokenOf = false := by
  obtain ⟨name, hcause⟩ := exists_cause_of_isUnusedVariable h
  simp [Finding.isSpokenOf, hcause]

/-- Unused variables are found where a frame is left. -/
lemma leave_of_isUnusedVariable (hf : f ∈ s.foundBy e) (he : ∀ g, e ≠ .found g)
    (hunused : f.isUnusedVariable = true) :
    e = .leave ∧ s.scopes.below ≠ [] ∧ f ∈ s.scopes.top.unused := by
  rcases found_cases hf he with ⟨name, at_, outer, -, -, rfl⟩ | hleave | hcause
  · simp [Finding.isUnusedVariable] at hunused
  · exact hleave
  · simp [Finding.isUnusedVariable, hcause] at hunused

/-- Hidden variables are found where a parameter of a block is bound. -/
lemma parameter_of_isSpokenOf (hf : f ∈ s.foundBy e) (he : ∀ g, e ≠ .found g)
    (hspoken : f.isSpokenOf = true) :
    ∃ name at_ outer, e = .parameter name at_ true ∧ s.scopes.outer? name = some outer ∧
      f = ⟨.shadowedVariable name outer.declaredAt.shownLine, at_⟩ := by
  rcases found_cases hf he with hparameter | ⟨-, -, hunused⟩ | hcause
  · exact hparameter
  · rw [isSpokenOf_of_isUnusedVariable (isUnusedVariable_of_mem_unused f hunused)] at hspoken
    simp at hspoken
  · simp [Finding.isSpokenOf, hcause] at hspoken

end

/-- A variable that a parameter of a block hides is read by that. -/
lemma WasRead.of_parameter (h : Numbered k s) (hv : seen? name k.below s.scopes.around = some v) :
    WasRead k (s.step (.parameter name at_ true)) v := by
  refine ⟨h.lt _ (List.mem_cons_of_mem _ (mem_of_seen? hv).1), fun p hp hpv => ?_⟩
  have hbelow := List.nodup_cons.mp h.nodup
  have hblock : s.scopes.top.kind = .block := by
    by_contra hkind
    simp [ScopeStack.around, hkind, seen?, ScopeStack.visible] at hv
  have haround : s.scopes.around = s.scopes.below := if_pos hblock
  have hseen : (ScopeStack.change? name .read s.scopes.below).isSome = true := by
    rw [ScopeStack.isSome_change?, ← ScopeStack.isSome_find?, ← isSome_seen? h.below, ← haround, hv]
    rfl
  obtain ⟨fs, hfs⟩ := Option.isSome_iff_exists.mp hseen
  have hscopes : (s.step (.parameter name at_ true)).scopes.frames =
      s.scopes.top.add name (.bound at_) :: fs := by
    change ((s.hide name at_).scopes.bindParameter name at_).frames = _
    rw [Booked.hide_scopes, ScopeStack.touchOuter, ScopeStack.changeOuter?, haround, hfs]
    rfl
  rw [hscopes, FrameNumbers.all, List.zip_cons_cons, List.mem_cons] at hp
  rcases hp with rfl | hp
  · have htop : k.top = v.1 := hpv
    rw [htop] at hbelow
    exact absurd (mem_of_seen? hv).1 hbelow.1
  · rw [haround] at hv
    exact WasRead.of_change? hbelow.2 hv hfs p hp hpv

/-- A variable that is used is read. -/
lemma WasRead.of_use (h : Numbered k s) (hv : seen? name k.all s.scopes.frames = some v) :
    WasRead k (s.step (.use name)) v := by
  refine ⟨h.lt _ (mem_of_seen? hv).1, ?_⟩
  have hseen : (ScopeStack.change? name .read s.scopes.frames).isSome = true := by
    rw [ScopeStack.isSome_change?, ← ScopeStack.isSome_find?, ← isSome_seen? h.length, hv]
    rfl
  obtain ⟨fs, hfs⟩ := Option.isSome_iff_exists.mp hseen
  have hframes : (s.scopes.changeVisible? name .read).map ScopeStack.frames =
      ScopeStack.change? name .read s.scopes.frames := ScopeStack.frames_changeVisible? s.scopes
  rw [hfs] at hframes
  obtain ⟨scopes, hscopes, rfl⟩ := Option.map_eq_some_iff.mp hframes
  have hstep : (s.step (.use name)).scopes = scopes := by
    change (s.scopes.changeVisible? name .read).getD s.scopes = scopes
    rw [hscopes]
    rfl
  rw [hstep]
  exact WasRead.of_change? h.nodup hv hfs

/-- A variable that was read is not among the unused ones of its frame. -/
lemma WasRead.cause_ne (h : WasRead k s (k.top, name)) (hnumbered : Numbered k s) :
    ∀ f ∈ s.scopes.top.unused, f.cause ≠ .unusedVariable name := by
  intro f hf hcause
  unfold Frame.unused at hf
  split at hf
  · simp at hf
  · obtain ⟨p, hp, rfl⟩ := List.mem_map.mp hf
    obtain ⟨hlisted, hunused⟩ := List.mem_filter.mp hp
    obtain rfl : p.1 = name := Finding.Cause.unusedVariable.inj hcause
    have hnames := hnumbered.names (k.top, s.scopes.top) List.mem_cons_self
    obtain ⟨x, hx, hreads⟩ := h.read (k.top, s.scopes.top) List.mem_cons_self rfl
    have hentry := (lookup_eq_some_iff_mem hnames).mpr (List.mem_mergeSort.mp hlisted)
    obtain rfl : p.2 = x := Option.some.inj (hentry.symm.trans hx)
    simp only [Variable.isUnused, Bool.and_eq_true, beq_iff_eq] at hunused
    omega

/-- A frame that is left is not open any more. -/
lemma Gone.of_leave (h : Numbered k s) (hbelow : s.scopes.below ≠ []) :
    Gone (k.step .leave) (k.top, name) := by
  obtain ⟨number, numbers, next⟩ := k
  cases numbers with
  | nil => exact absurd (List.length_eq_zero_iff.mp h.below.symm) hbelow
  | cons n ns => exact ⟨h.lt _ List.mem_cons_self, (List.nodup_cons.mp h.nodup).1⟩

/-! ### Runs -/

/-- Nothing is found about a variable whose frame was left. -/
lemma Gone.run (h : Gone k v) : ∀ p ∈ attributed k s es, p.2 ≠ some v := by
  induction es generalizing k s with
  | nil => simp [attributed]
  | cons e es ih =>
    refine List.forall_mem_append.mpr ⟨?_, ih (h.step e)⟩
    exact List.forall_mem_map.mpr fun f _ hv => h.left (mem_of_subject? hv)

/-- A variable that was read is never found to be unused. -/
lemma WasRead.run (h : WasRead k s v) (hnumbered : Numbered k s) (hes : VoidUsed es) :
    ∀ p ∈ attributed k s es, p.2 = some v → p.1.isUnusedVariable = false := by
  induction hes generalizing k s with
  | nil => simp [attributed]
  | @other e es he _ ih =>
    refine List.forall_mem_append.mpr ⟨?_, ih (h.step hnumbered e) (hnumbered.step e)⟩
    refine List.forall_mem_map.mpr fun f hf hv => ?_
    by_contra hunused
    rw [Bool.not_eq_false] at hunused
    obtain ⟨rfl, -, hmem⟩ := leave_of_isUnusedVariable hf he hunused
    obtain ⟨name, hcause⟩ := exists_cause_of_isUnusedVariable hunused
    rw [hcause] at hv
    obtain rfl := Option.some.inj hv
    exact h.cause_ne hnumbered f hmem hcause
  | @repeated f es spelling line hf _ ih =>
    have hrest := ih (h.step hnumbered (.found f)) (hnumbered.step _)
    rw [attributed, State.foundBy_found]
    refine List.forall_mem_cons.mpr ⟨fun _ => ?_, hrest⟩
    simp [Finding.isUnusedVariable, hf]
  | @void name at_ es _ ih =>
    have hfound := h.step hnumbered (.found ⟨.voidValue name, at_⟩)
    have hfoundNumbered := hnumbered.step (.found ⟨.voidValue name, at_⟩)
    have hrest := ih (hfound.step hfoundNumbered (.use name)) (hfoundNumbered.step (.use name))
    rw [attributed, State.foundBy_found, attributed, State.foundBy_of_found_eq rfl]
    exact List.forall_mem_cons.mpr ⟨fun _ => rfl, hrest⟩

/-- A variable that is spoken of is not found to be unused, neither before nor after. -/
lemma isUnusedVariable_of_isSpokenOf (hes : VoidUsed es) (hnumbered : Numbered k s)
    {p q : Finding × Option (ℕ × String)} (hp : p ∈ attributed k s es) (hq : q ∈ attributed k s es)
    (hspoken : p.1.isSpokenOf = true) (hpv : p.2 = some v) (hqv : q.2 = some v) :
    q.1.isUnusedVariable = false := by
  induction hes generalizing k s with
  | nil => simp [attributed] at hp
  | @other e es he hes ih =>
    have hnext := hnumbered.step e
    rw [attributed, List.mem_append] at hp hq
    rcases hp with hp | hp
    · obtain ⟨f, hf, rfl⟩ := List.mem_map.mp hp
      obtain ⟨name, at_, outer, rfl, -, rfl⟩ := parameter_of_isSpokenOf hf he hspoken
      rcases hq with hq | hq
      · obtain ⟨g, hg, rfl⟩ := List.mem_map.mp hq
        by_contra hunused
        rw [Bool.not_eq_false] at hunused
        obtain ⟨hleave, -⟩ := leave_of_isUnusedVariable hg he hunused
        cases hleave
      · exact (WasRead.of_parameter hnumbered hpv).run hnext hes q hq hqv
    · rcases hq with hq | hq
      · obtain ⟨g, hg, rfl⟩ := List.mem_map.mp hq
        by_contra hunused
        rw [Bool.not_eq_false] at hunused
        obtain ⟨rfl, hbelow, -⟩ := leave_of_isUnusedVariable hg he hunused
        obtain ⟨name, hcause⟩ := exists_cause_of_isUnusedVariable hunused
        rw [hcause] at hqv
        obtain rfl := Option.some.inj hqv
        exact (Gone.of_leave hnumbered hbelow).run p hp hpv
      · exact ih hnext hp hq
  | @repeated f es spelling line hf _ ih =>
    rw [attributed, State.foundBy_found, List.mem_append, List.mem_map] at hp hq
    have hnone : subject? k s f.cause = none := by
      rw [hf]
      rfl
    have hrest : ∀ {p : Finding × Option (ℕ × String)}, p.2 = some v →
        (∃ g ∈ [f], (g, subject? k s g.cause) = p) ∨
          p ∈ attributed (k.step (.found f)) (s.step (.found f)) es →
        p ∈ attributed (k.step (.found f)) (s.step (.found f)) es := by
      intro p hv hp
      refine hp.resolve_left ?_
      rintro ⟨g, hg, rfl⟩
      rw [List.mem_singleton.mp hg, hnone] at hv
      simp at hv
    exact ih (hnumbered.step _) (hrest hpv hp) (hrest hqv hq)
  | @void name at_ es hes ih =>
    have hfound := hnumbered.step (.found ⟨.voidValue name, at_⟩)
    have hused := hfound.step (.use name)
    rw [attributed, State.foundBy_found, attributed, State.foundBy_of_found_eq rfl] at hp hq
    rcases List.mem_cons.mp hq with rfl | hq
    · rfl
    · rcases List.mem_cons.mp hp with rfl | hp
      · exact (WasRead.of_use hfound hpv).run hused hes q hq hqv
      · exact ih hused hp hq

/-- A method in which a block hides one variable, which stands in void context there, and another
variable is left unused. -/
example :
    attributed .initial .initial
        [.enter .method, .write "x" ⟨8, 1, 0⟩, .enter .block, .parameter "x" ⟨20, 2, 9⟩ true,
          .found ⟨.voidValue "x", ⟨23, 2, 12⟩⟩, .use "x", .leave, .write "y" ⟨30, 3, 0⟩, .leave] =
      [(⟨.shadowedVariable "x" 2, ⟨20, 2, 9⟩⟩, some (1, "x")),
        (⟨.voidValue "x", ⟨23, 2, 12⟩⟩, some (2, "x")),
        (⟨.unusedVariable "y", ⟨30, 3, 0⟩⟩, some (1, "y"))] := by
  cbv

/-- Every hidden and every unused variable that is found is known. -/
lemma isSome_of_mem_attributed (hes : VoidUsed es) (hnumbered : Numbered k s) :
    ∀ p ∈ attributed k s es, p.1.isShadowedVariable = true ∨ p.1.isUnusedVariable = true →
      p.2.isSome = true := by
  induction hes generalizing k s with
  | nil => simp [attributed]
  | @other e es he _ ih =>
    refine List.forall_mem_append.mpr ⟨?_, ih (hnumbered.step e)⟩
    refine List.forall_mem_map.mpr fun f hf hkind => ?_
    rcases found_cases hf he with ⟨name, at_, outer, rfl, houter, rfl⟩ | ⟨rfl, -, hmem⟩ | hcause
    · have hlength : k.below.length = s.scopes.below.length := hnumbered.below
      change (seen? name k.below s.scopes.around).isSome = true
      change ScopeStack.find? name s.scopes.around = some outer at houter
      unfold ScopeStack.around at houter ⊢
      split at houter
      · rw [if_pos ‹_›, isSome_seen? hlength, houter]
        rfl
      · simp [ScopeStack.find?, ScopeStack.visible] at houter
    · obtain ⟨name, hcause⟩ := exists_cause_of_isUnusedVariable (isUnusedVariable_of_mem_unused f hmem)
      rw [hcause]
      rfl
    · simp [Finding.isShadowedVariable, Finding.isUnusedVariable, hcause] at hkind
  | @repeated f es spelling line hf _ ih =>
    rw [attributed, State.foundBy_found]
    refine List.forall_mem_cons.mpr ⟨fun hkind => ?_, ih (hnumbered.step _)⟩
    simp [Finding.isShadowedVariable, Finding.isUnusedVariable, hf] at hkind
  | @void name at_ es _ ih =>
    have hfound := hnumbered.step (.found ⟨.voidValue name, at_⟩)
    rw [attributed, State.foundBy_found, attributed, State.foundBy_of_found_eq rfl]
    refine List.forall_mem_cons.mpr ⟨fun hkind => ?_, ih (hfound.step (.use name))⟩
    simp [Finding.isShadowedVariable, Finding.isUnusedVariable] at hkind

end Analysis

namespace Reading

open Analysis

/-- What the walk over a text finds, each with the variable that it is about, is all that is found
besides single tokens; every variable that is found to be hidden or unused is known; and a variable
that is found where it is hidden or in void context is not found to be unused as well. -/
theorem attributed_isSpokenOf (limits : Limits) (source : List Char) :
    (ofText limits source).attributed.map Prod.fst =
        ((ofText limits source).findings.filter fun f => !f.cause.isOfToken) ∧
      (∀ p ∈ (ofText limits source).attributed,
        p.1.isShadowedVariable = true ∨ p.1.isUnusedVariable = true → p.2.isSome = true) ∧
      ∀ v, (∃ p ∈ (ofText limits source).attributed, p.1.isSpokenOf = true ∧ p.2 = some v) →
        ∀ q ∈ (ofText limits source).attributed, q.2 = some v → q.1.isUnusedVariable = false := by
  have hvoid : VoidUsed (eventsOfProgram (ofText limits source).tree) :=
    voidUsed_eventsOfStatements _ .nil
  refine ⟨?_, isSome_of_mem_attributed hvoid .initial, fun v ⟨p, hp, hspoken, hpv⟩ q hq hqv => ?_⟩
  · have hfound := found_run .initial .initial (eventsOfProgram (ofText limits source).tree)
    have htree : (treeFindings (ofText limits source).tree).filter (fun f => !f.cause.isOfToken) =
        treeFindings (ofText limits source).tree :=
      List.filter_eq_self.mpr fun f hf => by rw [isOfToken_of_mem_treeFindings f hf]; rfl
    have htokens : (tokenFindings (ofText limits source).tree.errorSpans
        (ofText limits source).stream.tokens).filter (fun f => !f.cause.isOfToken) = [] :=
      List.filter_eq_nil_iff.mpr fun f hf => by simp [isOfToken_of_mem_tokenFindings f hf]
    rw [findings, Analysis.findings, List.filter_append, htokens, List.append_nil, htree,
      treeFindings, hfound, List.reverse_append, List.reverse_reverse]
    rfl
  · exact isUnusedVariable_of_isSpokenOf hvoid .initial hp hq hspoken hpv hqv

end Reading

end RubyCheck
