import RubyCheck.Proofs.Analysis.GivenUp
import RubyCheck.Proofs.Analysis.Unused
import RubyCheck.Proofs.Grammar.Distinct

/-!
# Findings at different places

In a text without two angle brackets in a row, no two findings of one kind are at the same place, so
a report shows the same warnings in whatever order they were found (`Reading.warnings_distinct`).
What an event leads to being found is counted against the nodes: each node is visited once, and the
literals of a `case` are set aside by the nodes of its clauses (`Node.spare`), because nothing else is
ever found at them.  An unused variable is found at the node that binds it first, and no node binds
two.
-/

namespace RubyCheck

/-- The kind of a finding and the byte where it is. -/
def Finding.mark (f : Finding) : DiagnosticKind × ℕ := (.ofFinding f, f.position.byte)

lemma Finding.isUnusedVariable_iff {f : Finding} :
    f.isUnusedVariable = true ↔ f.mark.1 = .unusedVariable := by
  obtain ⟨cause, position⟩ := f
  cases cause <;> simp [isUnusedVariable, mark, DiagnosticKind.ofFinding]

lemma Finding.isOfToken_iff {f : Finding} :
    f.cause.isOfToken = true ↔ f.mark.1 = .ambiguousRegex ∨ f.mark.1 = .legacyOctal := by
  obtain ⟨cause, position⟩ := f
  cases cause <;> simp [Cause.isOfToken, mark, DiagnosticKind.ofFinding]

namespace Analysis

open Node

variable {n : Node} {ns : List Node} {s : State} {e : Event} {es es' : List Event}
  {x : DiagnosticKind × ℕ}

/-! ### Marks of events -/

/-- What an event may lead to being found, and where, apart from what is unused. -/
def Event.mark? : Event → Option (DiagnosticKind × ℕ)
  | .found f => some f.mark
  | .exitHook at_ => some (.endInMethod, at_.byte)
  | .parameter _ at_ true => some (.shadowedVariable, at_.byte)
  | _ => none

/-- What some events may lead to being found. -/
def marksOf (es : List Event) : List (DiagnosticKind × ℕ) := es.filterMap Event.mark?

lemma marksOf_append (es es' : List Event) : marksOf (es ++ es') = marksOf es ++ marksOf es' :=
  List.filterMap_append

lemma marksOf_cons_none (h : e.mark? = none) : marksOf (e :: es) = marksOf es :=
  List.filterMap_cons_none h

/-- What is found, without the unused variables. -/
def otherMarks (fs : List Finding) : List (DiagnosticKind × ℕ) :=
  (fs.filter fun f => !f.isUnusedVariable).map Finding.mark

lemma otherMarks_append (fs gs : List Finding) :
    otherMarks (fs ++ gs) = otherMarks fs ++ otherMarks gs := by
  rw [otherMarks, List.filter_append, List.map_append, otherMarks, otherMarks]

lemma count_otherMarks_cons (f : Finding) (fs : List Finding) :
    (otherMarks (f :: fs)).count x ≤ (otherMarks fs).count x + [f.mark].count x := by
  rw [← List.singleton_append, otherMarks_append, List.count_append, Nat.add_comm]
  refine Nat.add_le_add_left ?_ _
  exact (((List.filter_sublist).map Finding.mark).count_le x)

lemma otherMarks_unused (f : Frame) : otherMarks f.unused = [] := by
  have hall : ∀ g ∈ f.unused, g.isUnusedVariable = true := by
    unfold Frame.unused
    split
    · simp
    · exact List.forall_mem_map.mpr fun _ _ => rfl
  rw [otherMarks, List.filter_eq_nil_iff.mpr, List.map_nil]
  intro g hg
  rw [hall g hg]
  decide

namespace State

lemma count_find (s : State) (f : Finding) :
    (otherMarks (s.find f).found).count x ≤ (otherMarks s.found).count x + [f.mark].count x :=
  count_otherMarks_cons f s.found

/-- An event leads to nothing but what it may lead to. -/
lemma count_step (s : State) (e : Event) :
    (otherMarks (s.step e).found).count x ≤
      (otherMarks s.found).count x + (marksOf [e]).count x := by
  cases e with
  | enter _ | use _ | useForUpdate _ | write _ _ | blockLocal _ _ => exact Nat.le_add_right _ _
  | leave =>
    obtain ⟨⟨top, below⟩, found⟩ := s
    cases below with
    | nil => exact Nat.le_add_right _ _
    | cons f fs =>
      have hnone : otherMarks top.unused.reverse = [] := by
        have hunused := otherMarks_unused top
        rw [otherMarks, List.map_eq_nil_iff] at hunused
        rw [otherMarks, List.filter_reverse, hunused]
        rfl
      change (otherMarks (top.unused.reverse ++ found)).count x ≤ _
      rw [otherMarks_append, hnone]
      exact Nat.le_add_right _ _
  | parameter name at_ inBlock =>
    cases inBlock with
    | false => exact Nat.le_add_right _ _
    | true =>
      change (otherMarks (s.hide name at_).found).count x ≤ _
      unfold hide
      split
      · exact count_find _ _
      · exact Nat.le_add_right _ _
  | exitHook at_ =>
    change (otherMarks ((exitHookFinding? s.scopes.enclosingDefinition at_).map s.find |>.getD
      s).found).count x ≤ _
    unfold exitHookFinding?
    split
    · exact s.count_find _
    · exact Nat.le_add_right _ _
  | found f => exact s.count_find f

/-- What events find has each mark no more often than it was there before and among the marks of the
events. -/
lemma count_run (s : State) (es : List Event) :
    (otherMarks (s.run es).found).count x ≤
      (otherMarks s.found).count x + (marksOf es).count x := by
  induction es generalizing s with
  | nil => exact Nat.le_refl _
  | cons e es ih =>
    have hfirst := s.count_step (x := x) e
    have hrest := ih (s.step e)
    have hsplit : marksOf (e :: es) = marksOf [e] ++ marksOf es := marksOf_append [e] es
    rw [run_cons, hsplit, List.count_append]
    omega

end State

/-! ### Marks that are set aside -/

/-- What a repeated literal may lead to. -/
def literalMark? (n : Node) : Option (DiagnosticKind × ℕ) :=
  if n.literal?.isSome then n.mark? else none

end Analysis

namespace Node

open Analysis

variable {n : Node} {ns : List Node} {x : DiagnosticKind × ℕ}

/-- What may be found at nodes of a tree by the nodes around it only: at a literal by its `case`, and
at a variable by the statements that it is one of. -/
def spare (n : Node) : List (DiagnosticKind × ℕ) :=
  match n.kind with
  | .localVariable => n.mark?.toList
  | .arguments => n.children.filterMap literalMark?
  | .when_ => (clauseValues n).filterMap literalMark?
  | _ => (literalMark? n).toList

end Node

namespace Analysis

open Node

variable {n : Node} {ns : List Node} {es : List Event} {x : DiagnosticKind × ℕ}

lemma literalMark?_eq {v : Node} {value : LiteralValue} (h : v.literal? = some value) :
    literalMark? v = some (.duplicateValue, v.span.start.byte) := by
  have hsome : v.literal?.isSome = true := by rw [h]; rfl
  rw [literalMark?, if_pos hsome, mark?, warning?, if_pos hsome]
  rfl

/-- A literal is set aside wherever it stands. -/
lemma literalMark?_le_spare (n : Node) :
    (literalMark? n).toList.count x ≤ n.spare.count x := by
  unfold spare
  split
  · rename_i hkind
    unfold literalMark?
    split
    · exact Nat.le_refl _
    · exact Nat.zero_le _
  · rename_i hkind
    obtain ⟨kind, span, text, children⟩ := n
    obtain rfl : kind = .arguments := hkind
    exact Nat.zero_le _
  · rename_i hkind
    obtain ⟨kind, span, text, children⟩ := n
    obtain rfl : kind = .when_ := hkind
    exact Nat.zero_le _
  · exact Nat.le_refl _

lemma count_filterMap_literalMark? (ns : List Node) :
    (ns.filterMap literalMark?).count x ≤ (ns.flatMap spare).count x := by
  induction ns with
  | nil => exact Nat.le_refl _
  | cons n ns ih =>
    have hfirst := literalMark?_le_spare (x := x) n
    have hsplit : (n :: ns).filterMap literalMark? =
        (literalMark? n).toList ++ ns.filterMap literalMark? := by
      rw [List.filterMap_cons]
      cases literalMark? n with
      | none => rfl
      | some y => rfl
    rw [hsplit, List.flatMap_cons, List.count_append, List.count_append]
    omega

/-- The repeated ones of some literals are some of them. -/
lemma sublist_repeatedAmong (seen : List (LiteralValue × ℕ)) (ps : List (LiteralValue × Node)) :
    ((repeatedAmong seen ps).map Finding.mark).Sublist
      (ps.map fun p => (.duplicateValue, p.2.span.start.byte)) := by
  induction ps generalizing seen with
  | nil => exact .slnil
  | cons p ps ih =>
    rw [repeatedAmong]
    split
    · exact (ih seen).cons_cons _
    · exact (ih _).cons _

/-- The repeated values of a `case` are set aside by its clauses. -/
lemma count_repeatedValues (n : Node) :
    ((repeatedValues n).map Finding.mark).count x ≤ (n.children.flatMap spare).count x := by
  have hliterals : ((caseLiterals n).map fun p =>
      ((.duplicateValue, p.2.span.start.byte) : DiagnosticKind × ℕ)) =
        (n.children.flatMap clauseValues).filterMap literalMark? := by
    rw [caseLiterals, List.map_filterMap]
    refine List.filterMap_congr fun v _ => ?_
    cases hvalue : v.literal? with
    | none => simp [literalMark?, hvalue]
    | some value => rw [literalMark?_eq hvalue]; rfl
  refine ((sublist_repeatedAmong [] (caseLiterals n)).count_le x).trans ?_
  rw [hliterals]
  generalize n.children = ns
  induction ns with
  | nil => exact Nat.le_refl _
  | cons c ns ih =>
    have hclause : ((clauseValues c).filterMap literalMark?).count x ≤ c.spare.count x := by
      by_cases hkind : c.kind = .when_
      · simp only [spare, hkind]
        exact Nat.le_refl _
      · rw [clauseValues, if_neg hkind]
        exact Nat.zero_le _
    rw [List.flatMap_cons, List.filterMap_append, List.count_append, List.flatMap_cons,
      List.count_append]
    omega

/-! ### Marks of a tree -/

/-- The events of some trees, and what these set aside, may lead to no more than may be found. -/
def Covered (ns : List Node) (es : List Event) : Prop :=
  ∀ x, (marksOf es).count x + (ns.flatMap spare).count x ≤ (marks ns).count x

lemma count_marks_one (n : Node) :
    (marks [n]).count x = n.mark?.toList.count x + (marks n.children).count x := by
  rw [marks_one, List.count_append]

namespace Covered

variable {ms : List Node} {es' : List Event}

lemma append (h : Covered ns es) (h' : Covered ms es') : Covered (ns ++ ms) (es ++ es') := by
  intro x
  have hfirst := h x
  have hrest := h' x
  rw [marksOf_append, List.flatMap_append, marks_append, List.count_append, List.count_append,
    List.count_append]
  omega

/-- A node that has no part in what may be found. -/
lemma node (h : Covered n.children es) (hspare : n.spare = [])
    (hes : ∀ x, (marksOf es').count x ≤ n.mark?.toList.count x + (marksOf es).count x) :
    Covered [n] es' := by
  intro x
  have hchildren := h x
  have hevents := hes x
  rw [count_marks_one, List.flatMap_cons, List.flatMap_nil, List.append_nil, hspare]
  simp only [List.count_nil]
  omega

lemma each {role : Role} (h : ∀ c ∈ ns, Covered [c] (events role c [])) :
    Covered ns (eventsOfEach role ns []) := by
  induction ns with
  | nil => exact fun x => Nat.le_refl _
  | cons c ns ih =>
    rw [List.forall_mem_cons] at h
    rw [eventsOfEach, events_eq_append]
    exact h.1.append (ih h.2)

/-- A variable that stands as a statement was set aside. -/
lemma statements (h : ∀ c ∈ ns, Covered [c] (events .plain c [])) :
    ∀ x, (marksOf (eventsOfStatements ns [])).count x ≤ (marks ns).count x := by
  intro x
  induction ns with
  | nil => exact Nat.le_refl _
  | cons c ns ih =>
    rw [List.forall_mem_cons] at h
    have hfirst := h.1 x
    rw [List.flatMap_cons, List.flatMap_nil, List.append_nil] at hfirst
    cases ns with
    | nil => exact (Nat.le_add_right _ _).trans hfirst
    | cons c' ns =>
      have hvoid : (marksOf (voidStatement c)).count x ≤ c.spare.count x := by
        unfold voidStatement
        split
        · rename_i hkind
          obtain ⟨kind, span, text, children⟩ := c
          obtain rfl : kind = .localVariable := hkind
          exact Nat.le_refl _
        · exact Nat.zero_le _
      have hrest := ih h.2
      rw [eventsOfStatements, events_eq_append, ← List.append_assoc, marksOf_append,
        marksOf_append, marks_cons c (c' :: ns), List.count_append, List.count_append,
        List.count_append]
      omega

/-- A node whose children have their events one after another, between others. -/
lemma between (before after : List Event) {role : Role} (hbefore : ∀ x,
    (marksOf before).count x ≤ n.mark?.toList.count x) (hafter : marksOf after = [])
    (hspare : n.spare = [])
    (h : ∀ c ∈ n.children, Covered [c] (events role c [])) :
    Covered [n] (before ++ eventsOfEach role n.children after) := by
  refine node (each h) hspare fun x => ?_
  have hfirst := hbefore x
  rw [eventsOfEach_eq_append, marksOf_append, marksOf_append, hafter, List.append_nil,
    List.count_append]
  omega

end Covered

/-- Entering and leaving the frame of a class leads to nothing. -/
lemma marksOf_eventsOfClass (ns : List Node) :
    marksOf (eventsOfClass ns []) = marksOf (eventsOfEach .plain ns []) := by
  cases ns with
  | nil => rfl
  | cons n ns =>
    have henter (es : List Event) : marksOf (.enter .class_ :: es) = marksOf es :=
      marksOf_cons_none rfl
    have hleave : marksOf (eventsOfEach .plain ns [.leave]) = marksOf (eventsOfEach .plain ns []) := by
      rw [eventsOfEach_eq_append, marksOf_append]
      exact List.append_nil _
    rw [eventsOfClass, eventsOfEach, events_eq_append .plain n (eventsOfEach .plain ns []),
      marksOf_append, ← hleave]
    split
    · rw [henter, events_eq_append, marksOf_append]
    · rw [events_eq_append, marksOf_append, henter]

/-- The values of a clause are among what its arguments set aside. -/
lemma count_clauseValues (h : n.LaidOut) (hkind : n.kind = .when_) :
    ((clauseValues n).filterMap literalMark?).count x ≤ (n.children.flatMap spare).count x := by
  obtain ⟨kind, span, text, children⟩ := n
  obtain rfl : kind = .when_ := hkind
  cases h with
  | @one _ m _ rest hm _ =>
    have harguments : m.kind = .arguments := eq_of_beq hm
    have hspare : m.spare = m.children.filterMap literalMark? := by simp only [spare, harguments]
    change (m.children.filterMap literalMark?).count x ≤ _
    rw [List.flatMap_cons, List.count_append, hspare]
    exact Nat.le_add_right _ _

/-- A parameter of a block, if it has a name, may hide a variable. -/
lemma count_namedParameter (span : Span) (text : Option String) (children : List Node)
    (inBlock : Bool) :
    (marksOf (namedParameter (text.getD "") span.start inBlock)).count x ≤
      (mark? ⟨.parameter, span, text, children⟩).toList.count x := by
  unfold namedParameter
  split
  · exact Nat.zero_le _
  · rename_i hnamed
    have hmark : mark? ⟨.parameter, span, text, children⟩ =
        some (.shadowedVariable, span.start.byte) := by
      have hname : (⟨.parameter, span, text, children⟩ : Node).name = text.getD "" := rfl
      simp only [mark?, warning?, literal?, hname, hnamed, Option.isSome_none, Bool.false_eq_true,
        if_false, Option.map_some]
    rw [hmark]
    cases inBlock with
    | true => exact Nat.le_refl _
    | false => exact Nat.zero_le _

/-- What the events of a tree may lead to may be found in it. -/
theorem covered (h : n.Everywhere LaidOut) (role : Role) : Covered [n] (events role n []) := by
  induction h generalizing role with
  | @intro n hn hchildren ih =>
    obtain ⟨kind, span, text, children⟩ := n
    have hall (role : Role) : ∀ c ∈ children, Covered [c] (events role c []) :=
      fun c hc => ih c hc role
    have hplain : Covered children (eventsOfEach .plain children []) := .each (hall .plain)
    have hnothing : ∀ x, (marksOf []).count x ≤
        (mark? ⟨kind, span, text, children⟩).toList.count x := fun _ => Nat.zero_le _
    have hone (x : DiagnosticKind × ℕ) : (marks [⟨kind, span, text, children⟩]).count x =
        (mark? ⟨kind, span, text, children⟩).toList.count x + (marks children).count x :=
      count_marks_one _
    unfold events
    split
    case h_1 => exact .between [] [] hnothing rfl rfl (hall _)
    case h_2 inBlock =>
      refine .node hplain rfl fun x => ?_
      have hnamed := count_namedParameter (x := x) span text children inBlock
      rw [List.append_nil, eventsOfEach_eq_append, marksOf_append, List.count_append]
      omega
    case h_3 | h_4 | h_7 => exact .node hplain rfl fun x => Nat.zero_le _
    case h_5 =>
      intro x
      have hstatements := Covered.statements (hall .plain) x
      rw [hone]
      simp only [List.flatMap_cons, List.flatMap_nil, List.append_nil, spare, literalMark?, literal?,
        Option.isSome_none, Bool.false_eq_true, if_false, Option.toList_none, List.count_nil]
      omega
    case h_6 =>
      intro x
      rw [hone, List.flatMap_cons, List.flatMap_nil, List.append_nil]
      exact (Nat.zero_add _).le.trans (Nat.le_add_right _ _)
    case h_8 =>
      refine .between (updatedVariable children) [] (fun x => ?_) rfl rfl (hall _)
      unfold updatedVariable
      split
      · split
        · exact Nat.zero_le _
        · exact Nat.zero_le _
      · exact Nat.zero_le _
    case h_9 =>
      intro x
      have hchildren := hplain x
      have hrepeated : ((repeatedValues ⟨.case_, span, text, children⟩).map Finding.mark).count x ≤
          (children.flatMap spare).count x := count_repeatedValues _
      have hfound : marksOf ((repeatedValues ⟨.case_, span, text, children⟩).map .found) =
          (repeatedValues ⟨.case_, span, text, children⟩).map Finding.mark := by
        rw [marksOf, List.filterMap_map]
        exact congrFun (List.filterMap_eq_map (f := Finding.mark)) _
      rw [marksOf_append, hfound, hone, List.count_append]
      simp only [List.flatMap_cons, List.flatMap_nil, List.append_nil, spare, literalMark?, literal?,
        Option.isSome_none, Bool.false_eq_true, if_false, Option.toList_none, List.count_nil]
      omega
    case h_10 | h_11 | h_14 | h_15 | h_16 =>
      exact .between [.enter _] [.leave] hnothing rfl rfl (hall _)
    case h_12 | h_13 =>
      refine .node hplain rfl fun x => ?_
      rw [marksOf_eventsOfClass]
      exact Nat.le_add_left _ _
    case h_17 =>
      exact .between [.exitHook span.start, .enter .block] [.leave] (fun x => Nat.le_refl _) rfl rfl
        (hall _)
    case h_18 | h_19 => exact .between [] [] hnothing rfl rfl (hall _)
    case h_20 =>
      -- Whatever is left leads to nothing by itself, but may set aside what is below it.
      intro x
      have hchildren := hplain x
      have hbelow := count_filterMap_literalMark? (x := x) children
      rw [hone, List.flatMap_cons, List.flatMap_nil, List.append_nil]
      have hspare : (spare ⟨kind, span, text, children⟩).count x ≤
          (mark? ⟨kind, span, text, children⟩).toList.count x +
            (children.flatMap spare).count x := by
        unfold spare
        split
        · exact Nat.le_add_right _ _
        · exact hbelow.trans (Nat.le_add_left _ _)
        · rename_i hkind
          exact (count_clauseValues hn hkind).trans (Nat.le_add_left _ _)
        · refine Nat.le_trans ?_ (Nat.le_add_right _ _)
          unfold literalMark?
          split
          · exact Nat.le_refl _
          · exact Nat.zero_le _
      omega

/-! ### Unused variables -/

/-- What makes a name a variable and is no parameter may leave it unused. -/
lemma warning?_of_declares (h : n.declares = true) (hkind : n.kind ≠ .parameter) :
    n.warning? = some .unusedVariable := by
  obtain ⟨kind, span, text, children⟩ := n
  unfold declares at h
  split at h
  · rename_i hlocal
    obtain rfl : kind = .localTarget := hlocal
    rfl
  · rename_i hlocal
    obtain rfl : kind = .blockLocal := hlocal
    rfl
  · rename_i hparameter
    exact absurd hparameter hkind
  · cases h

lemma declares_of_binding? {ds : List (ℕ × String)} {p : Scopes × Node} {v : ℕ × String}
    (h : binding? ds p = some v) : p.2.declares = true := by
  unfold binding? declaration at h
  split at h
  · cases h
  · split at h
    · assumption
    · cases h

/-- The first node of a walk that binds a variable is a node of the walk that declares one. -/
lemma exists_of_binder? {v : ℕ × String} {ds : List (ℕ × String)} {ps : List (Scopes × Node)}
    (h : binder? v ds ps = some n) : n ∈ ps.map Prod.snd ∧ n.declares = true := by
  induction ps generalizing ds with
  | nil => cases h
  | cons p ps ih =>
    rw [binder?] at h
    split at h
    · rename_i hbinds
      obtain rfl := Option.some.inj h
      exact ⟨List.mem_cons_self, declares_of_binding? hbinds⟩
    · exact (ih h).imp_left (List.mem_cons_of_mem _)

/-- Where all nodes that may be warned about begin at different places, nodes that bind different
variables do. -/
lemma eq_of_binder? {v w : ℕ × String} {m : Node} {ds : List (ℕ × String)}
    {ps : List (Scopes × Node)} (hps : ((ps.map Prod.snd).filterMap mark?).Nodup)
    (hv : binder? v ds ps = some n) (hw : binder? w ds ps = some m) (hn : n.kind ≠ .parameter)
    (hm : m.kind ≠ .parameter) (hbyte : n.span.start.byte = m.span.start.byte) : v = w := by
  have hmark : ∀ {c : Node}, c.declares = true → c.kind ≠ .parameter →
      c.mark? = some (.unusedVariable, c.span.start.byte) := by
    intro c hdeclares hkind
    rw [mark?, warning?_of_declares hdeclares hkind]
    rfl
  induction ps generalizing ds with
  | nil => cases hv
  | cons p ps ih =>
    rw [binder?] at hv hw
    have hrest : ((ps.map Prod.snd).filterMap mark?).Nodup :=
      ((List.sublist_cons_self _ _).filterMap mark?).nodup hps
    -- A later node does not begin where this one does.
    have hlater : ∀ {c : Node}, p.2.declares = true → p.2.kind ≠ .parameter →
        c ∈ ps.map Prod.snd → c.declares = true → c.kind ≠ .parameter →
        p.2.span.start.byte ≠ c.span.start.byte := by
      intro c hp hkind hc hdeclares hckind heq
      rw [List.map_cons, List.filterMap_cons_some (hmark hp hkind), List.nodup_cons] at hps
      refine hps.1 (List.mem_filterMap.mpr ⟨c, hc, ?_⟩)
      rw [hmark hdeclares hckind, heq]
    split at hv
    · rename_i hbinds
      obtain rfl := Option.some.inj hv
      split at hw
      · rename_i hbinds'
        exact Option.some.inj (hbinds.symm.trans hbinds')
      · obtain ⟨hmem, hdeclares⟩ := exists_of_binder? hw
        exact absurd hbyte (hlater (declares_of_binding? hbinds) hn hmem hdeclares hm)
    · split at hw
      · rename_i hbinds
        obtain rfl := Option.some.inj hw
        obtain ⟨hmem, hdeclares⟩ := exists_of_binder? hv
        exact absurd hbyte.symm (hlater (declares_of_binding? hbinds) hm hmem hdeclares hn)
      · exact ih hrest hv hw

end Analysis

/-! ### Places -/

namespace Position

variable {source : List Char} {p q : Position}

/-- Carried over a text, a position comes to a later line, or that much further on its own. -/
lemma advanceOver_line_lt_or (p : Position) (cs : List Char) :
    p.line < (p.advanceOver cs).line ∨
      (p.advanceOver cs).line = p.line ∧ (p.advanceOver cs).column = p.column + cs.length := by
  induction cs generalizing p with
  | nil => exact .inr ⟨rfl, rfl⟩
  | cons c cs ih =>
    have hrest := ih (p.advance c)
    have hstep : (p.advance c).line = p.line + 1 ∨
        (p.advance c).line = p.line ∧ (p.advance c).column = p.column + 1 := by
      unfold advance
      split
      · exact .inl rfl
      · exact .inr ⟨rfl, rfl⟩
    rw [advanceOver_cons, List.length_cons]
    omega

/-- Exact positions on one line and at one column of it are the same. -/
lemma Exact.eq_of (hp : p.Exact source) (hq : q.Exact source) (hline : p.line = q.line)
    (hcolumn : p.column = q.column) : p = q := by
  obtain ⟨before, hbefore, rfl⟩ := hp
  obtain ⟨before', hbefore', rfl⟩ := hq
  rcases List.prefix_or_prefix_of_prefix hbefore hbefore' with ⟨cs, rfl⟩ | ⟨cs, rfl⟩
  · have hmoved := (behind before).advanceOver_line_lt_or cs
    rw [← behind_append] at hmoved
    obtain rfl : cs = [] := List.eq_nil_of_length_eq_zero (by omega)
    rw [List.append_nil]
  · have hmoved := (behind before').advanceOver_line_lt_or cs
    rw [← behind_append] at hmoved
    obtain rfl : cs = [] := List.eq_nil_of_length_eq_zero (by omega)
    rw [List.append_nil]

end Position

/-- The line, the column and the kind of a diagnostic. -/
def Diagnostic.key (d : Diagnostic) : ℕ × ℕ × DiagnosticKind := (d.line, d.column, d.kind)

/-- Diagnostics either of which may stand before the other are of one kind and at one place. -/
lemma Diagnostic.key_eq_of_before {d e : Diagnostic} (h : d.before e = true)
    (h' : e.before d = true) : d.key = e.key := by
  have hrank : ∀ k k' : DiagnosticKind, k.rank = k'.rank → k = k' := by
    intro k k'
    cases k <;> cases k' <;> decide
  simp only [before, Bool.or_eq_true, Bool.and_eq_true, decide_eq_true_eq, beq_iff_eq] at h h'
  have hkind := hrank d.kind e.kind (by omega)
  rw [key, key, hkind]
  have hline : d.line = e.line := by omega
  have hcolumn : d.column = e.column := by omega
  rw [hline, hcolumn]

/-- Diagnostics with different keys are sorted into the same order, however they stand. -/
lemma Report.sorted_eq_of_perm {ds es : List Diagnostic} (hds : (ds.map Diagnostic.key).Nodup)
    (h : ds.Perm es) : Report.sorted ds = Report.sorted es := by
  have hperm := ((List.mergeSort_perm ds Diagnostic.before).trans h).trans
    (List.mergeSort_perm es Diagnostic.before).symm
  refine hperm.eq_of_pairwise (fun d e hd he hde hed => ?_)
    (pairwise_sorted ds) (pairwise_sorted es)
  have hmem : e ∈ ds := h.symm.subset (List.mem_mergeSort.mp he)
  exact List.inj_on_of_nodup_map hds (List.mem_mergeSort.mp hd) hmem
    (Diagnostic.key_eq_of_before hde hed)

namespace Reading

open Analysis

variable {limits : Limits} {source : List Char}

/-- No two nodes of one sort begin at the same place. -/
lemma nodup_marks (limits : Limits) (hsource : ¬ "<<".toList <:+: source) :
    (Node.marks [(ofText limits source).tree.root]).Nodup := by
  obtain ⟨ns, s', hreads, -, -, htree⟩ :=
    SyntaxTree.exists_reads limits (TokenStream.ofText source).tokens
  have hroot : (ofText limits source).tree.root = .inner .program ⟨_, _⟩ ns :=
    congrArg SyntaxTree.root htree
  have hbelow := hreads.nodup_marks (TokenStream.rises_ofText source hsource)
  rw [hroot]
  exact Node.nodup_marks_of_none rfl hbelow

/-- No two findings about the tree but unused variables are of one kind and at one place. -/
lemma nodup_otherMarks (limits : Limits) (hsource : ¬ "<<".toList <:+: source) :
    (otherMarks (treeFindings (ofText limits source).tree)).Nodup := by
  set root := (ofText limits source).tree.root
  have hlaid : root.Everywhere Node.LaidOut :=
    (sound_ofText limits source).mono fun _ h => h.1
  have hnodup := nodup_marks limits hsource
  have hreverse : otherMarks (treeFindings (ofText limits source).tree) =
      (otherMarks (State.initial.run (eventsOfProgram (ofText limits source).tree)).found).reverse := by
    rw [treeFindings, otherMarks, List.filter_reverse, List.map_reverse, otherMarks]
  rw [hreverse, List.nodup_reverse, List.nodup_iff_count_le_one]
  intro x
  have hrun := State.initial.count_run (x := x) (eventsOfProgram (ofText limits source).tree)
  have hevents : (marksOf (eventsOfProgram (ofText limits source).tree)).count x ≤
      (Node.marks root.children).count x :=
    Covered.statements (fun c hc => covered (hlaid.children c hc) .plain) x
  have hone : root.mark?.toList.count x + (Node.marks root.children).count x ≤ 1 := by
    rw [← count_marks_one]
    exact List.nodup_iff_count_le_one.mp hnodup x
  have hinitial : otherMarks State.initial.found = [] := rfl
  rw [hinitial, List.count_nil] at hrun
  omega

/-- No two unused variables are found at one place. -/
lemma nodup_unusedMarks (limits : Limits) (hsource : ¬ "<<".toList <:+: source) :
    (((ofText limits source).findings.filter (·.isUnusedVariable)).map Finding.mark).Nodup := by
  obtain ⟨unused, hnodup, hmem, hperm⟩ := unused_perm_leftUnused limits source
  set root := (ofText limits source).tree.root
  have hwalked : ((root.walked.map Prod.snd).filterMap Node.mark?).Nodup := by
    have hlisted : (root.walked.map Prod.snd).Perm (Node.parts [root]) := by
      have hsame : Node.parts [root] = (root.outline 0).map Prod.snd := by
        rw [Node.parts, Node.outlineEach_eq_flatMap, List.flatMap_cons, List.flatMap_nil,
          List.append_nil]
      rw [hsame, ← Node.map_situate]
      exact (Node.walk_perm root).map Prod.snd
    exact (hlisted.filterMap Node.mark?).nodup_iff.mpr (nodup_marks limits hsource)
  refine (hperm.map Finding.mark).nodup_iff.mpr ?_
  rw [List.map_map]
  refine (List.Nodup.of_map Prod.fst hnodup).map_on fun x hx y hy hxy => ?_
  obtain ⟨n, hn, hnkind, hnat⟩ := ((hmem x).mp hx).first
  obtain ⟨m, hm, hmkind, hmat⟩ := ((hmem y).mp hy).first
  have hbyte : x.2.byte = y.2.byte := congrArg Prod.snd hxy
  have hsame : x.1 = y.1 :=
    eq_of_binder? hwalked hn hm hnkind hmkind (by rw [hnat, hmat, hbyte])
  exact List.inj_on_of_nodup_map hnodup hx hy hsame

/-- No two findings about tokens are at one place. -/
lemma nodup_tokenMarks (hsource : ¬ "<<".toList <:+: source) (given : List Span) :
    ((tokenFindings given (TokenStream.ofText source).tokens).map Finding.mark).Nodup := by
  have horder := (TokenStream.before_ofText source hsource).pairwise
  have hdistinct : (TokenStream.ofText source).tokens.Pairwise fun t u =>
      ∀ f ∈ tokenFinding? t, ∀ g ∈ tokenFinding? u, f.mark ≠ g.mark := by
    refine horder.imp_of_mem fun {t u} ht _ h f hf g hg heq => ?_
    have hlt := TokenStream.written_ofText source t ht (isWritten_of_tokenFinding? hf)
    have hle := h.2.1
    have hbyte : f.position.byte = g.position.byte := congrArg Prod.snd heq
    rw [position_of_tokenFinding? hf, position_of_tokenFinding? hg] at hbyte
    omega
  rw [tokenFindings, List.Nodup, List.pairwise_map, List.pairwise_filterMap]
  exact (hdistinct.filter _).imp fun h f hf g hg => h f hf g hg

/-- No two findings in a text are of one kind and at one place. -/
lemma nodup_marks_findings (limits : Limits) (hsource : ¬ "<<".toList <:+: source) :
    ((ofText limits source).findings.map Finding.mark).Nodup := by
  set r := ofText limits source
  set tokens := tokenFindings r.tree.errorSpans r.stream.tokens
  have hofToken : ∀ f ∈ tokens, f.cause.isOfToken = true := isOfToken_of_mem_tokenFindings
  have hofTree : ∀ f ∈ treeFindings r.tree, f.cause.isOfToken = false :=
    isOfToken_of_mem_treeFindings
  have hothers : r.findings.filter (fun f => !f.isUnusedVariable) =
      (treeFindings r.tree).filter (fun f => !f.isUnusedVariable) ++ tokens := by
    rw [findings, Analysis.findings, List.filter_append]
    congr 1
    refine List.filter_eq_self.mpr fun f hf => ?_
    have hkind := Finding.isOfToken_iff.mp (hofToken f hf)
    rw [Bool.not_eq_true', Bool.eq_false_iff, Ne, Finding.isUnusedVariable_iff]
    rcases hkind with hkind | hkind
    · simp [hkind]
    · simp [hkind]
  have hperm := (List.filter_append_perm (·.isUnusedVariable) r.findings).symm
  refine (hperm.map Finding.mark).nodup_iff.mpr ?_
  rw [hothers, List.map_append, List.map_append]
  -- The kinds tell findings of the three sorts apart.
  have hpair : ((treeFindings r.tree).filter (fun f => !f.isUnusedVariable)).map Finding.mark |>.Disjoint
      (tokens.map Finding.mark) := by
    intro x hx hx'
    obtain ⟨f, hf, rfl⟩ := List.mem_map.mp hx
    obtain ⟨g, hg, hmark⟩ := List.mem_map.mp hx'
    have htoken := Finding.isOfToken_iff.mp (hofToken g hg)
    rw [hmark, ← Finding.isOfToken_iff, hofTree f (List.mem_filter.mp hf).1] at htoken
    cases htoken
  have hrest : (((treeFindings r.tree).filter (fun f => !f.isUnusedVariable)).map Finding.mark ++
      tokens.map Finding.mark).Nodup :=
    (nodup_otherMarks limits hsource).append (nodup_tokenMarks hsource _) hpair
  refine (nodup_unusedMarks limits hsource).append hrest fun x hx hx' => ?_
  rw [← List.map_append, ← hothers] at hx'
  obtain ⟨f, hf, rfl⟩ := List.mem_map.mp hx
  obtain ⟨g, hg, hmark⟩ := List.mem_map.mp hx'
  have hunused := Finding.isUnusedVariable_iff.mp (List.mem_filter.mp hf).2
  rw [← hmark, ← Finding.isUnusedVariable_iff] at hunused
  have hnot := (List.mem_filter.mp hg).2
  rw [hunused] at hnot
  cases hnot

/-- In a text without two angle brackets in a row, no two warnings are of one kind and at one line
and column, so the report shows the same warnings in the same order however they stand when they are
found. -/
theorem warnings_distinct (limits : Limits) (source : List Char)
    (hsource : ¬ "<<".toList <:+: source) :
    (((ofText limits source).findings.map Diagnostic.ofFinding).map fun d =>
      (d.line, d.column, d.kind)).Nodup ∧
    ∀ found : List Diagnostic,
      found.Perm ((ofText limits source).findings.map Diagnostic.ofFinding) →
        ∀ (errors : List Diagnostic) (dump : Option String) (withDump : Bool),
          (Report.of errors found dump).warnings =
            ((ofText limits source).report withDump).warnings := by
  have hkeys : (((ofText limits source).findings.map Diagnostic.ofFinding).map
      Diagnostic.key).Nodup := by
    have hmarks := nodup_marks_findings limits hsource
    rw [List.map_map]
    refine (List.Nodup.of_map _ hmarks).map_on fun f hf g hg hkey => ?_
    obtain ⟨hline, hplace⟩ := Prod.mk.inj hkey
    obtain ⟨hcolumn, hkind⟩ := Prod.mk.inj hplace
    have hposition : f.position = g.position :=
      (exact_of_mem_findings limits source f hf).eq_of (exact_of_mem_findings limits source g hg)
        (Nat.succ.inj hline) (Nat.succ.inj hcolumn)
    refine List.inj_on_of_nodup_map hmarks hf hg (Prod.ext hkind ?_)
    exact congrArg Position.byte hposition
  refine ⟨hkeys, fun found hperm errors dump withDump => ?_⟩
  exact (Report.sorted_eq_of_perm hkeys hperm.symm).symm

/-- A variable that is not used and an octal integer, found in either order. -/
theorem warnings_distinct_method :
    ¬ "<<".toList <:+: "def f\nx = 010\nend".toList ∧
      (ofText .standard "def f\nx = 010\nend".toList).findings.length = 2 ∧
      (((ofText .standard "def f\nx = 010\nend".toList).findings.map Diagnostic.ofFinding).map
        fun d => (d.line, d.column, d.kind)).Nodup ∧
      (Report.of [] ((ofText .standard "def f\nx = 010\nend".toList).findings.map
        Diagnostic.ofFinding).reverse none).warnings =
          (check "def f\nx = 010\nend".toList false).warnings := by
  set source := "def f\nx = 010\nend".toList
  have hsource : ¬ "<<".toList <:+: source := by decide
  have hlength : (ofText .standard source).findings.length = 2 := by decide +kernel
  obtain ⟨hdistinct, hsame⟩ := warnings_distinct .standard source hsource
  exact ⟨hsource, hlength, hdistinct, hsame _ (List.reverse_perm _) [] none false⟩

end Reading

end RubyCheck
