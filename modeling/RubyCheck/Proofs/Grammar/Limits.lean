import Mathlib.Data.List.Infix
import RubyCheck.Proofs.Grammar.Composing

/-!
# Reading under two limits

The same tokens are read twice, the second time under limits that allow at least as much.  Up to
the point where the first reading is stopped by its limits, both are in the same state but for the
limits (`Abreast`).  From there on they are `Parted`: either as many faults as may be were reported
by the first one, and then it reports no more, or a fault of nesting was reported by it.  Between a
refusal to go deeper and the list of statements that reports it, the first reading is failing while
the second one goes on (`Joint.refused`).

Behind the last fault that may be reported both readings stand at the end of the text.  A refusal to
go deeper is never reported there, and nothing depends on it: what would have been read one level
deeper fails at the end of the text as well (`Joint.moot`).
-/

namespace RubyCheck

/-- Limits that allow no more than others do. -/
structure Limits.Within (limits limits' : Limits) : Prop where
  faults : limits.maxFaults ≤ limits'.maxFaults
  depth : limits.maxDepth ≤ limits'.maxDepth

namespace Grammar

variable {α β : Type} {s s' t t' : State} {l l' : Limits}

/-! ### Faults along a reading -/

/-- The state behind a production, whether it gives a result or fails. -/
def stateBehind : EStateM.Result Failure State α → State
  | .ok _ s => s
  | .error _ s => s

namespace State

/-- A state gave up once as many faults as may be are reported. -/
lemma gaveUp_iff : s.gaveUp = true ↔ s.limits.maxFaults ≤ s.faults.size := by
  rw [gaveUp, decide_eq_true_iff]

/-- No more faults than may be are reported. -/
lemma report_eq_of_gaveUp (h : s.gaveUp = true) (f : Fault) : s.report f = s := if_pos h

/-- Until then there is room for one more. -/
lemma gaveUp_eq_false_iff : s.gaveUp = false ↔ s.faults.size < s.limits.maxFaults := by
  rw [← Bool.not_eq_true, gaveUp_iff, Nat.not_le]

/-- The last fault that may be reported ends reading. -/
lemma report_last (h : s.faults.size + 1 = s.limits.maxFaults) (f : Fault) :
    s.report f = { s with tape := s.tape.toLast, faults := s.faults.push f } := by
  have hgoesOn : s.gaveUp = false := gaveUp_eq_false_iff.mpr (by omega)
  have hends : ({ s with faults := s.faults.push f } : State).gaveUp = true :=
    gaveUp_iff.mpr (by simp [h])
  simp [report, hgoesOn, hends]

/-- Behind any other one reading goes on. -/
lemma report_more (h : s.faults.size + 1 < s.limits.maxFaults) (f : Fault) :
    s.report f = { s with faults := s.faults.push f } := by
  have hgoesOn : s.gaveUp = false := gaveUp_eq_false_iff.mpr (by omega)
  have hends : ({ s with faults := s.faults.push f } : State).gaveUp = false :=
    gaveUp_eq_false_iff.mpr (by simpa using h)
  simp [report, hgoesOn, hends]

/-- While there is room, a fault is put behind the others. -/
lemma faults_report (h : s.gaveUp = false) (f : Fault) :
    (s.report f).faults = s.faults.push f := by
  rw [gaveUp_eq_false_iff] at h
  rcases Nat.lt_or_eq_of_le h with hmore | hlast
  · rw [report_more hmore]
  · rw [report_last hlast]

/-- Reporting leaves the limits as they are. -/
lemma limits_report (s : State) (f : Fault) : (s.report f).limits = s.limits := by
  unfold report
  split
  · rfl
  · simp only
    split
    · rfl
    · rfl

/-- What is reported stays. -/
lemma faults_grow_report (s : State) (f : Fault) :
    s.faults.toList <+: (s.report f).faults.toList := by
  cases hgaveUp : s.gaveUp with
  | true =>
    rw [report_eq_of_gaveUp hgaveUp]
  | false =>
    rw [faults_report hgaveUp, Array.toList_push]
    exact List.prefix_append _ _

/-- A report never goes beyond the limit. -/
lemma size_report_le (h : s.faults.size ≤ s.limits.maxFaults) (f : Fault) :
    (s.report f).faults.size ≤ s.limits.maxFaults := by
  cases hgaveUp : s.gaveUp with
  | true => rwa [report_eq_of_gaveUp hgaveUp]
  | false =>
    rw [faults_report hgaveUp, Array.size_push]
    exact gaveUp_eq_false_iff.mp hgaveUp

end State

namespace Passes

/-- Reading leaves the limits as they are. -/
theorem limits (h : Passes s s') : s'.limits = s.limits := by
  induction h with
  | steps _ => rfl
  | report s f => exact s.limits_report f
  | declare s name => exact s.limits_declare name
  | within c _ ih => rw [c.limits_leave, ih, c.limits_enter]
  | inScope closed _ ih => exact ih
  | trans _ _ ih ih' => exact ih'.trans ih

/-- No fault that was reported is taken back. -/
theorem faults_grow (h : Passes s s') : s.faults.toList <+: s'.faults.toList := by
  induction h with
  | steps _ => exact List.prefix_rfl
  | report s f => exact s.faults_grow_report f
  | declare s name =>
    rw [s.faults_declare]
  | within c _ ih =>
    rw [c.faults_leave]
    rwa [c.faults_enter] at ih
  | inScope closed _ ih => exact ih
  | trans _ _ ih ih' => exact ih.trans ih'

/-- Never are more faults reported than may be. -/
theorem size_le (h : Passes s s') (hs : s.faults.size ≤ s.limits.maxFaults) :
    s'.faults.size ≤ s'.limits.maxFaults := by
  induction h with
  | steps _ => exact hs
  | report s f =>
    rw [s.limits_report]
    exact State.size_report_le hs f
  | declare s name => rwa [s.faults_declare, s.limits_declare]
  | within c _ ih =>
    rw [c.faults_leave, c.limits_leave]
    exact ih (by rwa [c.faults_enter, c.limits_enter])
  | inScope closed _ ih => exact ih hs
  | trans _ _ ih ih' => exact ih' (ih hs)

/-- Once as many faults as may be were reported, no other one is. -/
theorem faults_eq_of_full (h : Passes s s') (hsize : s.faults.size = s.limits.maxFaults) :
    s'.faults = s.faults := by
  have hle : s'.faults.size ≤ s.faults.size := by
    rw [hsize, ← h.limits]
    exact h.size_le (Nat.le_of_eq hsize)
  exact Array.toList_inj.mp (h.faults_grow.eq_of_length_le hle).symm

end Passes

/-! ### Two readings -/

/-- The same state under other limits. -/
def State.under (limits : Limits) (s : State) : State := { s with limits := limits }

/-- A reading under some limits that was not stopped by anything that others would allow: if it was
given up, the others give up as well. -/
structure Abreast (l l' : Limits) (s : State) : Prop where
  limits : s.limits = l
  ends : s.tape.Ends
  stopped : s.gaveUp = true → l.maxFaults = l'.maxFaults ∧ s.tape.kind = .eof

/-- Two readings, the first of which was stopped by its limits. -/
inductive Parted (l l' : Limits) (s t : State) : Prop
  /-- The first one gave up, and up to there the second one had reported the same. -/
  | capped : l.maxFaults < l'.maxFaults → s.limits = l → s.faults.size = l.maxFaults →
      s.faults.toList <+: t.faults.toList → Parted l l' s t
  /-- The first one was refused to go deeper, and up to there the second one had reported the
  same. -/
  | cut {before after : List Fault} {f : Fault} : l.maxDepth < l'.maxDepth →
      s.faults.toList = before ++ f :: after → f.cause = .nestingTooDeep l.maxDepth →
      before <+: t.faults.toList → Parted l l' s t

/-- What a production comes to in two readings. -/
inductive Joint (l l' : Limits) : (r r' : EStateM.Result Failure State α) → Prop
  | ok (a : α) {s : State} : Abreast l l' s → Joint l l' (.ok a s) (.ok a (s.under l'))
  | error (e : Failure) {s : State} :
      Abreast l l' s → Joint l l' (.error e s) (.error e (s.under l'))
  /-- Both fail, and neither fault will be reported. -/
  | moot (f f' : Fault) {s : State} : Abreast l l' s → s.gaveUp = true →
      Joint l l' (.error (.fault f) s) (.error (.fault f') (s.under l'))
  | parted {r r' : EStateM.Result Failure State α} :
      Parted l l' (stateBehind r) (stateBehind r') → Joint l l' r r'
  /-- The first one fails because it was refused to go deeper, the second one went on. -/
  | refused {f : Fault} {s : State} {r' : EStateM.Result Failure State α} :
      l.maxDepth < l'.maxDepth → f.cause = .nestingTooDeep l.maxDepth → s.gaveUp = false →
      s.faults.toList <+: (stateBehind r').faults.toList → Joint l l' (.error (.fault f) s) r'
  /-- The rounds did not suffice; from that nothing recovers. -/
  | exhausted {r : EStateM.Result Failure State α} {t : State} : Joint l l' r (.error .exhausted t)

namespace Abreast

/-- What changes neither the tape nor the faults. -/
lemma congr (h : Abreast l l' s) (htape : s'.tape = s.tape) (hfaults : s'.faults = s.faults)
    (hlimits : s'.limits = s.limits) : Abreast l l' s' where
  limits := hlimits.trans h.limits
  ends := by
    rw [htape]
    exact h.ends
  stopped hgaveUp := by
    rw [State.gaveUp, hlimits, hfaults] at hgaveUp
    rw [htape]
    exact h.stopped hgaveUp

/-- From the end of the text nothing moves on. -/
lemma steps (h : Abreast l l' s) {tape : Tape} (hsteps : s.tape.Steps tape) :
    Abreast l l' { s with tape := tape } where
  limits := h.limits
  ends := Tape.onward_ends.steps hsteps h.ends
  stopped hgaveUp := by
    obtain ⟨hmax, hkind⟩ := h.stopped hgaveUp
    refine ⟨hmax, ?_⟩
    change tape.kind = .eof
    generalize s.tape = tape₀ at hsteps hkind
    cases hsteps with
    | refl => exact hkind
    | next hnot _ => exact absurd hkind hnot

/-- If the first reading was given up, so was the second one. -/
lemma gaveUp_under (h : Abreast l l' s) (hgaveUp : s.gaveUp = true) :
    (s.under l').gaveUp = true := by
  have hsize := State.gaveUp_iff.mp hgaveUp
  rw [h.limits, (h.stopped hgaveUp).1] at hsize
  exact State.gaveUp_iff.mpr hsize

/-- Two readings abreast stay so when both declare a name. -/
lemma declare (h : Abreast l l' s) (name : String) : Abreast l l' (s.declare name) :=
  h.congr (s.tape_declare name) (s.faults_declare name) (s.limits_declare name)

end Abreast

/-- Declaring a name does not depend on the limits. -/
lemma State.declare_under (limits : Limits) (s : State) (name : String) :
    (s.under limits).declare name = (s.declare name).under limits := by
  obtain ⟨tape, faults, limits', depth, doWithheld, scopes⟩ := s
  cases scopes with
  | nil => rfl
  | cons scope outer =>
    simp only [State.declare, State.under]
    split
    · rfl
    · rfl

namespace Parted

/-- Once two readings are parted they stay so, whatever each of them goes on with. -/
theorem passes (h : Parted l l' s t) (hs : Passes s s') (ht : Passes t t') : Parted l l' s' t' := by
  cases h with
  | capped hmax hlimits hsize hgrows =>
    have hfaults : s'.faults = s.faults := hs.faults_eq_of_full (by rw [hsize, hlimits])
    refine .capped hmax (hs.limits.trans hlimits) (by rw [hfaults, hsize]) ?_
    rw [hfaults]
    exact hgrows.trans ht.faults_grow
  | cut hmax hfaults hcause hgrows =>
    obtain ⟨more, hmore⟩ := hs.faults_grow
    have hfaults' := hmore.symm
    rw [hfaults, List.append_assoc, List.cons_append] at hfaults'
    exact .cut hmax hfaults' hcause (hgrows.trans ht.faults_grow)

/-- Scopes and the like play no part in it. -/
lemma congr (h : Parted l l' s t) (hs : s'.faults = s.faults) (hlimits : s'.limits = s.limits)
    (ht : t'.faults = t.faults) : Parted l l' s' t' := by
  cases h with
  | capped hmax hlimit hsize hgrows =>
    exact .capped hmax (hlimits.trans hlimit) (by rw [hs, hsize]) (by rwa [hs, ht])
  | cut hmax hfaults hcause hgrows => exact .cut hmax (by rw [hs, hfaults]) hcause (by rwa [ht])

end Parted

/-! ### Productions in two readings -/

/-- What a result leaves behind in a context that is left. -/
def leaving (leave : State → State) :
    EStateM.Result Failure State α → EStateM.Result Failure State α
  | .ok a s => .ok a (leave s)
  | .error e s => .error e (leave s)

/-- What is put back behind a production is put back whether or not it fails. -/
lemma stateBehind_leaving (leave : State → State) (r : EStateM.Result Failure State α) :
    stateBehind (leaving leave r) = leave (stateBehind r) := by
  cases r with
  | ok a s => rfl
  | error e s => rfl

/-- A production with something around it is what comes before it, itself, and what comes behind. -/
lemma around_eq (enter leave : State → State) (p : Parser α) (s : State) :
    around enter leave p s = leaving leave (p (enter s)) := by
  unfold around
  cases p (enter s) with
  | ok a s' => rfl
  | error e s' => rfl

/-- What is read behind a production, whatever it came to. -/
def continuing (f : α → Parser β) :
    EStateM.Result Failure State α → EStateM.Result Failure State β
  | .ok a s => f a s
  | .error e s => .error e s

/-- Two parts in a row: the second goes on from the result of the first. -/
lemma bind_eq (p : Parser α) (f : α → Parser β) (s : State) :
    (p >>= f) s = continuing f (p s) := by
  change EStateM.bind p f s = _
  unfold EStateM.bind
  cases p s with
  | ok a s' => rfl
  | error e s' => rfl

/-- After a first part that gives a result, the second begins where it ended. -/
lemma bind_eq_of_ok {p : Parser α} {a : α} (h : p s = .ok a s') (f : α → Parser β) :
    (p >>= f) s = f a s' := by
  rw [bind_eq, h]
  rfl

/-- What gave a result gave one step by step. -/
lemma exists_of_bind {f : β → Parser α} {q : Parser β} {y : α} {s'' : State}
    (h : (q >>= f) s = .ok y s'') :
    ∃ x s', q s = .ok x s' ∧ f x s' = .ok y s'' := by
  rw [bind_eq] at h
  cases hrun : q s with
  | ok x s' =>
    rw [hrun] at h
    exact ⟨x, s', rfl, h⟩
  | error e s' =>
    rw [hrun] at h
    cases h

/-- A look ahead of a production hands it what is seen and moves nothing. -/
lemma view_bind_eq (f : State → β) (g : β → Parser α) (s : State) :
    (view f >>= g) s = g (f s) s := rfl

/-- What is read behind a production that may have failed, if a fault is reported. -/
def recovering (f : Except Fault α → Parser β) :
    EStateM.Result Failure State α → EStateM.Result Failure State β
  | .ok a s => f (.ok a) s
  | .error (.fault e) s => f (.error e) s
  | .error .exhausted s => .error .exhausted s

/-- A production that is attempted hands on its result or its failure. -/
lemma attempt_bind_eq (p : Parser α) (f : Except Fault α → Parser β) (s : State) :
    (attempt p >>= f) s = recovering f (p s) := by
  rw [bind_eq]
  unfold attempt
  cases p s with
  | ok a s' => rfl
  | error e s' =>
    cases e with
    | fault e => rfl
    | exhausted => rfl

/-- If each part passes states on, so does one behind the other. -/
lemma passes_continuing {f : α → Parser β} (hf : ∀ a s, Passes s (stateBehind (f a s)))
    (r : EStateM.Result Failure State α) :
    Passes (stateBehind r) (stateBehind (continuing f r)) := by
  cases r with
  | ok a s => exact hf a s
  | error e s => exact .refl s

/-- A fault that is reported before anything else. -/
lemma reporting_eq {f : Except Fault α → Parser β} {q : Parser β}
    (hf : ∀ e, f (.error e) = Grammar.report e >>= fun _ => q) (e : Fault) (s : State) :
    f (.error e) s = q (s.report e) := by
  rw [hf e]
  rfl

/-- A production passes states on with its recovery, which reports the failure first. -/
lemma passes_recovering {f : Except Fault α → Parser β} {q : Parser β}
    (hf : ∀ e, f (.error e) = Grammar.report e >>= fun _ => q)
    (hok : ∀ a s, Passes s (stateBehind (f (.ok a) s))) (hq : ∀ s, Passes s (stateBehind (q s)))
    (r : EStateM.Result Failure State α) :
    Passes (stateBehind r) (stateBehind (recovering f r)) := by
  cases r with
  | ok a s => exact hok a s
  | error e s =>
    cases e with
    | fault e =>
      rw [recovering, reporting_eq hf]
      exact .trans (.report s e) (hq _)
    | exhausted => exact .refl s

/-- Whatever a production comes to, it does nothing else to the state. -/
theorem Composed.passes {p : Parser α} (h : Composed p) (s : State) :
    Passes s (stateBehind (p s)) := by
  induction h generalizing s with
  | pure a => exact .refl s
  | bind _ _ ihp ihf =>
    rw [bind_eq]
    exact (ihp s).trans (passes_continuing (fun a => ihf a) _)
  | view _ => exact .refl s
  | move hf => exact .steps (hf s.tape)
  | report f => exact .report s f
  | declare name => exact .declare s name
  | fail e => exact .refl s
  | recover _ _ _ hreports ihp ihf ihq =>
    rw [attempt_bind_eq]
    exact (ihp s).trans (passes_recovering hreports ihf ihq _)
  | nested _ _ ih =>
    unfold Grammar.nested
    split
    · rw [around_eq, stateBehind_leaving]
      exact .within .deeper (ih _)
    · exact .refl s
  | allowingDo _ ih =>
    unfold Grammar.allowingDo
    rw [around_eq, stateBehind_leaving]
    exact .within .allowingDo (ih _)
  | withholdingDo _ ih =>
    unfold Grammar.withholdingDo
    rw [around_eq, stateBehind_leaving]
    exact .within (s := s) .withholdingDo (ih _)
  | inScope closed _ ih =>
    unfold Grammar.inScope
    rw [around_eq, stateBehind_leaving]
    exact .inScope closed (ih _)

/-- What is left alone on the way into and out of a context. -/
structure Surrounds (f : State → State) : Prop where
  tape (s : State) : (f s).tape = s.tape
  faults (s : State) : (f s).faults = s.faults
  limits (s : State) : (f s).limits = s.limits

/-- Entering a context changes neither limits nor faults. -/
lemma Context.surrounds_enter (c : Context) : Surrounds c.enter :=
  ⟨c.tape_enter, c.faults_enter, c.limits_enter⟩

/-- Leaving a context changes neither limits nor faults. -/
lemma Context.surrounds_leave (c : Context) (outer : State) : Surrounds (c.leave outer) :=
  ⟨c.tape_leave outer, c.faults_leave outer, c.limits_leave outer⟩

/-- Entering a scope changes neither limits nor faults. -/
lemma surrounds_enterScope (closed : Bool) : Surrounds (State.enterScope closed) :=
  ⟨fun _ => rfl, fun _ => rfl, fun _ => rfl⟩

/-- Leaving a scope changes neither limits nor faults. -/
lemma surrounds_leaveScope : Surrounds State.leaveScope :=
  ⟨fun _ => rfl, fun _ => rfl, fun _ => rfl⟩

/-- So two readings abreast go in and out of contexts abreast. -/
lemma Abreast.surround {f : State → State} (hf : Surrounds f) (h : Abreast l l' s) :
    Abreast l l' (f s) :=
  h.congr (hf.tape s) (hf.faults s) (hf.limits s)

/-- A report is the same in both readings, unless it is the last one that the first of them may
make. -/
lemma Abreast.report (h : Abreast l l' s) (hwithin : l.Within l') (f : Fault) :
    Abreast l l' (s.report f) ∧ (s.under l').report f = (s.report f).under l' ∨
      Parted l l' (s.report f) ((s.under l').report f) := by
  have hmax : s.limits.maxFaults ≤ (s.under l').limits.maxFaults := by
    rw [h.limits]
    exact hwithin.faults
  cases hgaveUp : s.gaveUp with
  | true =>
    rw [State.report_eq_of_gaveUp hgaveUp, State.report_eq_of_gaveUp (h.gaveUp_under hgaveUp)]
    exact .inl ⟨h, rfl⟩
  | false =>
    rcases Nat.lt_or_eq_of_le (State.gaveUp_eq_false_iff.mp hgaveUp) with hmore | hlast
    · -- Both go on.
      have hmore' : (s.under l').faults.size + 1 < (s.under l').limits.maxFaults :=
        Nat.lt_of_lt_of_le hmore hmax
      rw [State.report_more hmore, State.report_more hmore']
      refine .inl ⟨⟨h.limits, h.ends, fun hends => ?_⟩, rfl⟩
      rw [State.gaveUp_iff, Array.size_push] at hends
      exact absurd hmore (Nat.not_lt_of_le hends)
    · rcases Nat.lt_or_eq_of_le hmax with hless | hsame
      · -- The first one gives up, the second one goes on.
        have hsize : (s.report f).faults.size = l.maxFaults := by
          rw [State.report_last hlast, Array.size_push, ← h.limits]
          exact hlast
        refine .inr (.capped ?_ ((s.limits_report f).trans h.limits) hsize ?_)
        · rwa [h.limits] at hless
        · have hmore' : (s.under l').faults.size + 1 < (s.under l').limits.maxFaults :=
            Nat.lt_of_le_of_lt (Nat.le_of_eq hlast) hless
          rw [State.report_last hlast, State.report_more hmore']
          exact List.prefix_rfl
      · -- Both give up.
        have hlast' : (s.under l').faults.size + 1 = (s.under l').limits.maxFaults :=
          hlast.trans hsame
        rw [State.report_last hlast, State.report_last hlast']
        refine .inl ⟨⟨h.limits, Tape.onward_ends.toLast h.ends, fun _ => ⟨?_, ?_⟩⟩, rfl⟩
        · rw [h.limits] at hsame
          exact hsame
        · have hends := Tape.onward_ends.toLast h.ends
          rwa [Tape.Ends, s.tape.ahead_toLast] at hends

namespace Joint

variable {r r' : EStateM.Result Failure State α}

/-- What is put around a production, and taken back behind it, is the same in both readings. -/
lemma leave {f f' : State → State} (hf : Surrounds f) (hf' : Surrounds f')
    (hunder : ∀ s, f' (s.under l') = (f s).under l') (h : Joint l l' r r') :
    Joint l l' (leaving f r) (leaving f' r') := by
  cases h with
  | ok a hs =>
    rw [leaving, leaving, hunder]
    exact .ok a (hs.surround hf)
  | error e hs =>
    rw [leaving, leaving, hunder]
    exact .error e (hs.surround hf)
  | @moot e e' s hs hgaveUp =>
    rw [leaving, leaving, hunder]
    refine .moot e e' (hs.surround hf) ?_
    rwa [State.gaveUp, hf.faults, hf.limits]
  | parted h =>
    refine .parted ?_
    rw [stateBehind_leaving, stateBehind_leaving]
    exact h.congr (hf.faults _) (hf.limits _) (hf'.faults _)
  | refused hmax hcause hgoesOn hgrows =>
    refine .refused hmax hcause ?_ ?_
    · rwa [State.gaveUp, hf.faults, hf.limits]
    · rwa [stateBehind_leaving, hf.faults, hf'.faults]
  | exhausted => exact .exhausted

/-- What follows goes on from wherever the two readings have come to. -/
lemma continue_ {f : α → Parser β} (hpasses : ∀ a s, Passes s (stateBehind (f a s)))
    (hf : ∀ a s, Abreast l l' s → Joint l l' (f a s) (f a (s.under l'))) (h : Joint l l' r r') :
    Joint l l' (continuing f r) (continuing f r') := by
  cases h with
  | ok a hs => exact hf a _ hs
  | error e hs => exact .error e hs
  | moot e e' hs hgaveUp => exact .moot e e' hs hgaveUp
  | parted h => exact .parted (h.passes (passes_continuing hpasses _) (passes_continuing hpasses _))
  | refused hmax hcause hgoesOn hgrows =>
    exact .refused hmax hcause hgoesOn
      (hgrows.trans (passes_continuing hpasses _).faults_grow)
  | exhausted => exact .exhausted

/-- A refusal that is reported parts the two readings; one that comes too late to be reported is
forgotten. -/
lemma recover {f : Except Fault α → Parser β} {q : Parser β} (hwithin : l.Within l')
    (hreports : ∀ e, f (.error e) = Grammar.report e >>= fun _ => q)
    (hok : ∀ a, Composed (f (.ok a))) (hq : Composed q)
    (hjoint : ∀ a s, Abreast l l' s → Joint l l' (f (.ok a) s) (f (.ok a) (s.under l')))
    (hjoint' : ∀ s, Abreast l l' s → Joint l l' (q s) (q (s.under l'))) (h : Joint l l' r r') :
    Joint l l' (recovering f r) (recovering f r') := by
  have hpasses (r : EStateM.Result Failure State α) :
      Passes (stateBehind r) (stateBehind (recovering f r)) :=
    passes_recovering hreports (fun a => (hok a).passes) hq.passes r
  cases h with
  | ok a hs => exact hjoint a _ hs
  | @error e s hs =>
    cases e with
    | exhausted => exact .exhausted
    | fault e =>
      rw [recovering, recovering, reporting_eq hreports, reporting_eq hreports]
      rcases hs.report hwithin e with ⟨hsame, hunder⟩ | hparted
      · rw [hunder]
        exact hjoint' _ hsame
      · exact .parted (hparted.passes (hq.passes _) (hq.passes _))
  | @moot e e' s hs hgaveUp =>
    rw [recovering, recovering, reporting_eq hreports, reporting_eq hreports,
      State.report_eq_of_gaveUp hgaveUp, State.report_eq_of_gaveUp (hs.gaveUp_under hgaveUp)]
    exact hjoint' s hs
  | parted h => exact .parted (h.passes (hpasses _) (hpasses _))
  | @refused e s r' hmax hcause hgoesOn hgrows =>
    have hcut : Parted l l' (s.report e) (stateBehind r') := by
      have hfaults : (s.report e).faults.toList = s.faults.toList ++ [e] := by
        rw [State.faults_report hgoesOn, Array.toList_push]
      exact .cut hmax hfaults hcause hgrows
    rw [recovering, reporting_eq hreports]
    exact .parted (hcut.passes (hq.passes _) (hpasses r'))
  | exhausted => exact .exhausted

end Joint

/-- What a refusal to go deeper comes to. -/
lemma Abreast.refuse {p : Parser α} (hs : Abreast l l' s) (hp : Composed (nested p))
    (hfails : FailsAtEnd p) (hwithin : l.Within l') (hdeep : ¬ s.depth < l.maxDepth) :
    Joint l l' (nested p s) (nested p (s.under l')) := by
  have hrun : nested p s =
      .error (.fault ⟨.nestingTooDeep l.maxDepth, s.tape.current.span⟩) s := by
    rw [← hs.limits] at hdeep ⊢
    exact if_neg hdeep
  rw [hrun]
  rcases Nat.lt_or_eq_of_le hwithin.depth with hless | hsame
  · cases hgaveUp : s.gaveUp with
    | false => exact .refused hless rfl hgaveUp (hp.passes (s.under l')).faults_grow
    | true =>
      -- No fault is reported any more, and at the end of the text the second reading fails too.
      obtain ⟨e, hrun'⟩ := hfails.nested (s.under l') (hs.stopped hgaveUp).2
      rw [hrun']
      cases e with
      | fault f => exact .moot _ f hs hgaveUp
      | exhausted => exact .exhausted
  · have hrun' : nested p (s.under l') =
        .error (.fault ⟨.nestingTooDeep l'.maxDepth, s.tape.current.span⟩) (s.under l') := by
      rw [hsame] at hdeep
      exact if_neg hdeep
    rw [hrun', ← hsame]
    exact .error _ hs

/-- What a reading comes to, if its limits allow at least as much as those of another one. -/
theorem Composed.joint {p : Parser α} (h : Composed p) (hwithin : l.Within l')
    (hs : Abreast l l' s) : Joint l l' (p s) (p (s.under l')) := by
  induction h generalizing s with
  | pure a => exact .ok a hs
  | bind hp hf ihp ihf =>
    rw [bind_eq, bind_eq]
    exact (ihp hs).continue_ (fun a => (hf a).passes) fun a s hs => ihf a hs
  | @view _ f hf =>
    have hview : f (s.under l') = f s := hf s l' s.depth s.faults
    change Joint l l' (.ok (f s) s) (.ok (f (s.under l')) (s.under l'))
    rw [hview]
    exact .ok _ hs
  | move hf => exact .ok () (hs.steps (hf s.tape))
  | report f =>
    rcases hs.report hwithin f with ⟨hsame, hunder⟩ | hparted
    · change Joint l l' (.ok () (s.report f)) (.ok () ((s.under l').report f))
      rw [hunder]
      exact .ok () hsame
    · exact .parted hparted
  | declare name =>
    change Joint l l' (.ok () (s.declare name)) (.ok () ((s.under l').declare name))
    rw [State.declare_under]
    exact .ok () (hs.declare name)
  | fail e => exact .error e hs
  | recover _ hok hq hreports ihp ihf ihq =>
    rw [attempt_bind_eq, attempt_bind_eq]
    exact (ihp hs).recover hwithin hreports hok hq (fun a s hs => ihf a hs) fun s hs => ihq hs
  | @nested _ p hp hfails ih =>
    by_cases hdeeper : s.depth < l.maxDepth
    · have hfits : s.depth < s.limits.maxDepth := by rwa [hs.limits]
      have hfits' : s.depth < l'.maxDepth := Nat.lt_of_lt_of_le hdeeper hwithin.depth
      have hrun : Grammar.nested p s =
          leaving (Context.deeper.leave s) (p (Context.deeper.enter s)) := by
        rw [← around_eq]
        exact if_pos hfits
      have hrun' : Grammar.nested p (s.under l') =
          leaving (Context.deeper.leave s) (p ((Context.deeper.enter s).under l')) := by
        rw [← around_eq]
        exact if_pos hfits'
      rw [hrun, hrun']
      exact (ih (hs.surround (Context.surrounds_enter .deeper))).leave
        (Context.surrounds_leave .deeper s) (Context.surrounds_leave .deeper s) fun _ => rfl
    · exact hs.refuse (.nested hp hfails) hfails hwithin hdeeper
  | allowingDo _ ih =>
    unfold Grammar.allowingDo
    rw [around_eq, around_eq]
    exact (ih (hs.surround (Context.surrounds_enter .allowingDo))).leave
      (Context.surrounds_leave .allowingDo s) (Context.surrounds_leave .allowingDo s) fun _ => rfl
  | withholdingDo _ ih =>
    unfold Grammar.withholdingDo
    rw [around_eq, around_eq]
    exact (ih (hs.surround (Context.surrounds_enter .withholdingDo))).leave
      (Context.surrounds_leave .withholdingDo s) (Context.surrounds_leave .withholdingDo s)
      fun _ => rfl
  | inScope closed _ ih =>
    unfold Grammar.inScope
    rw [around_eq, around_eq]
    exact (ih (hs.surround (surrounds_enterScope closed))).leave surrounds_leaveScope
      surrounds_leaveScope fun _ => rfl

end Grammar

end RubyCheck
