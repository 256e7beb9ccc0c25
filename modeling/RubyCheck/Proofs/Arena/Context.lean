import RubyCheck.Proofs.Arena.Nodes

/-!
# Contexts and recovery

What is entered is left again: the depth and the number of constructs that withhold a `do` are positive where
they go down, because what is read in between puts back what it changed.  Where a statement fails, what was
read of it is taken out of the arena, and nothing that stays names any of it.  So a list of statements reads
the same over an arena if a statement does: the nodes of one that fails lie behind those that are in the list
already, and taking them out leaves those as they are.
-/

namespace RubyCheck.Arena

open Grammar (State Round)

variable {greatest : Option ℕ} {m : Machine} {α β γ δ : Type} {w : Array Cell} {base : ℕ}
  {V : Array Cell → γ → δ → Prop} {p : Parser γ} {q : Grammar.Parser δ}

/-! ### Contexts -/

/-- Nothing about a machine at work depends on how deep it is, on who withholds a `do` or on the scopes. -/
lemma Machine.Sane.within (h : m.Sane greatest) (depth doWithheld : ℕ)
    (scopes : List Grammar.LocalScope) :
    Machine.Sane greatest { m with depth := depth, doWithheld := doWithheld, scopes := scopes } :=
  ⟨h.greatestId, h.ends, h.current_lt, h.closed, h.gaveUp⟩

namespace Runs

/-- A production that runs alike does so while `do` is withheld. -/
lemma withholdingDo (hp : Runs greatest w base V p q) :
    Runs greatest w base V (Arena.withholdingDo p) (Grammar.withholdingDo q) := by
  rintro hbase m hm rfl
  refine .around rfl (fun m' hm' => ?_) (hp hbase _ (hm.within _ _ _) rfl)
  refine ⟨{ m' with doWithheld := m'.doWithheld - 1 }, ?_, ⟨hm'.sane.within _ _ _, hm'.tokens,
    hm'.limits, hm'.depth, ?_, hm'.current_le, hm'.grown⟩, rfl, rfl⟩
  · rw [Number.minus?, if_pos (by rw [hm'.doWithheld]; exact Nat.succ_pos _)]
    rfl
  · exact congrArg (· - 1) hm'.doWithheld

/-- A production that runs alike does so while `do` is allowed. -/
lemma allowingDo (hp : Runs greatest w base V p q) :
    Runs greatest w base V (Arena.allowingDo p) (Grammar.allowingDo q) := by
  rintro hbase m hm rfl
  change Outcome greatest base V m (Arena.around ({ · with doWithheld := 0 }) (some { · with
    doWithheld := m.doWithheld }) p m) (Grammar.around _ _ q m.state)
  refine .around rfl (fun m' hm' => ?_) (hp hbase _ (hm.within _ _ _) rfl)
  exact ⟨{ m' with doWithheld := m.doWithheld }, rfl, ⟨hm'.sane.within _ _ _, hm'.tokens,
    hm'.limits, hm'.depth, rfl, hm'.current_le, hm'.grown⟩, rfl, rfl⟩

/-- A production that runs alike does so in a scope of its own. -/
lemma inScope {closed : Bool} (hp : Runs greatest w base V p q) :
    Runs greatest w base V (Arena.inScope closed p) (Grammar.inScope closed q) := by
  rintro hbase m hm rfl
  refine .around rfl (fun m' hm' => ?_) (hp hbase _ (hm.within _ _ _) rfl)
  exact ⟨{ m' with scopes := m'.scopes.tail }, rfl, ⟨hm'.sane.within _ _ _, hm'.tokens,
    hm'.limits, hm'.depth, hm'.doWithheld, hm'.current_le, hm'.grown⟩, rfl, rfl⟩

/-- A production that runs alike does so one level deeper. -/
lemma nested (hp : Runs greatest w base V p q) :
    Runs greatest w base V (Arena.nested p) (Grammar.nested q) := by
  rintro hbase m hm rfl
  change Outcome greatest base V m ((if m.depth < m.limits.maxDepth then
      Arena.around (fun m => { m with depth := m.depth + 1 })
        (fun m => (Number.minus? m.depth 1).map fun depth => { m with depth := depth }) p
    else do Arena.fail ⟨.nestingTooDeep m.limits.maxDepth, (← Arena.current).span⟩) m)
    (if m.depth < m.limits.maxDepth then Grammar.around _ _ q m.state
      else .error (.fault ⟨.nestingTooDeep m.limits.maxDepth, m.state.tape.current.span⟩) m.state)
  split
  · refine .around rfl (fun m' hm' => ?_) (hp hbase _ (hm.within _ _ _) rfl)
    refine ⟨{ m' with depth := m'.depth - 1 }, ?_, ⟨hm'.sane.within _ _ _, hm'.tokens,
      hm'.limits, ?_, hm'.doWithheld, hm'.current_le, hm'.grown⟩, rfl, rfl⟩
    · rw [Number.minus?, if_pos (by rw [hm'.depth]; exact Nat.succ_pos _)]
      rfl
    · exact congrArg (· - 1) hm'.depth
  · change Outcome greatest base V m (EStateM.bind Arena.current _ m) _
    rw [EStateM.bind, Arena.current, peek_zero hm]
    exact .fault (hm.reaches base) fun _ => rfl

end Runs

section Yields

variable {U : Array Cell → ℕ → γ → δ → Prop}

/-- A production that yields alike does so while `do` is withheld. -/
lemma Yields.withholdingDo (h : Yields greatest U p q) :
    Yields greatest U (Arena.withholdingDo p) (Grammar.withholdingDo q) :=
  fun w => .withholdingDo (h w)

/-- A production that yields alike does so while `do` is allowed. -/
lemma Yields.allowingDo (h : Yields greatest U p q) :
    Yields greatest U (Arena.allowingDo p) (Grammar.allowingDo q) :=
  fun w => .allowingDo (h w)

/-- A production that yields alike does so in a scope of its own. -/
lemma Yields.inScope {closed : Bool} (h : Yields greatest U p q) :
    Yields greatest U (Arena.inScope closed p) (Grammar.inScope closed q) :=
  fun w => .inScope (h w)

/-- A production that yields alike does so one level deeper. -/
lemma Yields.nested (h : Yields greatest U p q) :
    Yields greatest U (Arena.nested p) (Grammar.nested q) :=
  fun w => .nested (h w)

end Yields

/-! ### Regions that are given up -/

/-- What is skipped is more than nothing, unless the text ends. -/
lemma Machine.Sane.synchronize_lt (h : m.Sane greatest) {i : ℕ} (hi : i < m.tokens.length)
    (htape : (m.at_ i).state.tape = m.state.tape.synchronize) :
    if m.state.tape.current.isEof then i = m.current else m.current < i := by
  have hlt := h.current_lt
  have hleft : m.tokens.length - (i + 1) = m.state.tape.synchronize.left := by
    rw [← htape, ← List.length_drop]
    rfl
  have hleft' : m.tokens.length - (m.current + 1) = m.state.tape.left := by
    rw [← List.length_drop]
    rfl
  split
  · rename_i heof
    rw [Tape.synchronize_of_isEof heof] at hleft
    omega
  · rename_i heof
    rw [Bool.not_eq_true] at heof
    have hconsumable : m.state.tape.Consumable := by
      obtain ⟨u, us, hahead⟩ := h.exists_ahead heof
      exact ⟨beq_eq_false_iff_ne.mp heof, by rw [hahead]; exact List.cons_ne_nil u us⟩
    have := Tape.left_synchronize hconsumable
    omega

/-- The node for what is given up from the index `first` on, where the token `u` stands. -/
lemma Outcome.errorNode (hm : m.Sane greatest) {first : ℕ} {u : Token}
    (hu : m.tokens[first]? = some u) (hfirst : first ≤ m.current)
    (heof : if u.isEof then m.current = first else first < m.current) :
    Outcome greatest m.nodes.size (fun w' id t => Own greatest w' m.nodes.size id t) m
      (Arena.errorNode first m) (.ok (m.state.errorNode u) m.state) := by
  have hlt := hm.current_lt
  have htoken : m.tokens[min first (m.tokens.length - 1)]? = some u := by
    rwa [Nat.min_eq_left (by omega)]
  have herror : Arena.errorNode first m = (do
      let span ← if first < m.current then spanFrom u.span.start else pure (.point u.span.start)
      add ⟨.error, span, none, []⟩ : Parser NodeId) m := by
    change EStateM.bind lastIndex _ m = _
    rw [EStateM.bind, lastIndex_eq hm.length_pos]
    change EStateM.bind (tokenAt (min first (m.tokens.length - 1))) _ m = _
    rw [EStateM.bind, tokenAt_eq htoken]
    change (if first < m.current then _ else _ : Parser NodeId) m = _
    split <;> rfl
  rw [herror, State.errorNode]
  split at heof
  · rename_i hend
    rw [if_neg (by omega), if_pos hend]
    exact Runs.add .nil _ _ _ le_rfl m hm rfl
  · rename_i hend
    rw [if_pos heof, if_neg hend]
    exact Runs.finish .nil le_rfl m hm rfl

/-- What is given up from the index `first` on, if the machine stands there or behind it. -/
lemma Outcome.giveUp (hm : m.Sane greatest) {first : ℕ} {u : Token}
    (hu : m.tokens[first]? = some u) (hfirst : first ≤ m.current)
    (heof : u.isEof = true → m.current = first) :
    Outcome greatest m.nodes.size (fun w' id t => Own greatest w' m.nodes.size id t) m
      (Arena.giveUp first m) (Grammar.giveUp u m.state) := by
  obtain ⟨i, hle, hi, hskip, htape⟩ :=
    synchronizeFrom_moves (m.tokens.length + 1) 0 hm le_rfl (ahead_lt m)
  rw [decide_eq_false (Nat.lt_irrefl _)] at htape
  have hmoved := hm.synchronize_lt hi htape
  have hgiveUp : Arena.giveUp first m = Arena.errorNode first (m.at_ i) := by
    change EStateM.bind (synchronizeFrom m.current 0 (m.tokens.length + 1)) _ m = _
    rw [EStateM.bind, hskip]
  have hgiveUp' : Grammar.giveUp u m.state =
      .ok ((m.at_ i).state.errorNode u) (m.at_ i).state := by
    have hstate : (m.at_ i).state = { m.state with tape := m.state.tape.synchronize } := by
      rw [Tape.synchronize, ← htape]
      rfl
    rw [hstate]
    rfl
  have hend : if u.isEof then i = first else first < i := by
    have hcurrent := hm.getElem?_current
    split
    · rename_i hend
      have hsame := heof hend
      rw [hsame, hu] at hcurrent
      rw [← Option.some.inj hcurrent, if_pos hend] at hmoved
      rw [hmoved, hsame]
    · rename_i hend
      rcases hfirst.lt_or_eq with hless | hsame
      · exact hless.trans_le hle
      · rw [← hsame, hu] at hcurrent
        rw [← Option.some.inj hcurrent, if_neg hend] at hmoved
        rwa [hsame]
  rw [hgiveUp, hgiveUp']
  exact .along (hm.reaches_at hle hi)
    (.errorNode (hm.at_ hi) hu (hfirst.trans hle) hend) fun _ => rfl

section GivenUp

variable {f : NodeId → Parser γ} {g : Node → Grammar.Parser δ}

/-- What is done with the node for what is given up. -/
lemma Outcome.behindGiveUp (hm : m.Sane greatest) {first : ℕ} {u : Token}
    (hu : m.tokens[first]? = some u) (hfirst : first ≤ m.current)
    (heof : u.isEof = true → m.current = first) (hbase : base ≤ m.nodes.size)
    (hf : ∀ w' id t, Grown greatest m.nodes.size m.nodes w' → Own greatest w' base id t →
      Runs greatest w' base V (f id) (g t)) :
    Outcome greatest base V m ((Arena.giveUp first >>= f) m) ((Grammar.giveUp u >>= g) m.state) := by
  have hgiven : Outcome greatest base
      (fun w' id t => Grown greatest m.nodes.size m.nodes w' ∧ Own greatest w' base id t) m
      (Arena.giveUp first m) (Grammar.giveUp u m.state) :=
    (Outcome.giveUp hm hu hfirst heof).imp hbase fun _ _ _ hw hid => ⟨hw, hid.mono hbase⟩
  exact hgiven.bind fun m' id t hm' hid =>
    hf m'.nodes id t hid.1 hid.2 (hbase.trans hm'.grown.size_le) m' hm'.sane rfl

/-- What is done with the node of a region that was given up runs alike. -/
lemma Runs.behindGiveUp
    (hf : ∀ w' id t, Grown greatest w.size w w' → Own greatest w' base id t →
      Runs greatest w' base V (f id) (g t)) :
    Runs greatest w base V (do f (← Arena.giveUp (← index)))
      (do g (← Grammar.giveUp (← Grammar.current))) := by
  rintro hbase m hm rfl
  exact .behindGiveUp hm hm.getElem?_current le_rfl (fun _ => rfl) hbase hf

end GivenUp

/-! ### Lists of statements -/

section Statements

variable {g : Productions} {g' : Grammar} {stops : List TokenKind} {seen : List ℕ}
  {seen' : List Node}

/-- Behind a statement the list ends, goes on, or gives up the rest of the line. -/
lemma Runs.behindStatement (hseen : Owns greatest w base seen seen') :
    Runs greatest w base (fun w' => Rounds greatest w' base) (Arena.behindStatement stops seen)
      (Grammar.behindStatement stops seen') := by
  refine Exact.kind.runs fun k => .ite (.pure (.again hseen)) ?_
  refine (Exact.reportUnexpected _).runs fun _ => ?_
  exact .behindGiveUp fun w' id t hw hid => .pure (.again (.cons hid (hseen.grown hw)))

/-- The nodes behind a mark are taken out of a machine. -/
def Machine.cut (m : Machine) (mark : ℕ) : Machine := { m with nodes := m.nodes.take mark }

/-- What is taken out again behind a failure leaves a machine at work. -/
lemma Machine.Reaches.cut {m' : Machine} (hm : m.Sane greatest)
    (h : m.Reaches greatest m.nodes.size m') :
    m.Reaches greatest m.nodes.size (m'.cut m.nodes.size) := by
  have hgrown := h.grown.take rfl
  have hsize : (m'.nodes.take m.nodes.size).size = m.nodes.size := by
    have := h.grown.size_le
    simp only [Array.take_eq_extract, Array.size_extract]
    omega
  refine ⟨⟨h.sane.greatestId, h.sane.ends, h.sane.current_lt, ?_, h.sane.gaveUp⟩, h.tokens,
    h.limits, h.depth, h.doWithheld, h.current_le, hgrown⟩
  change Closed (m'.nodes.take m.nodes.size) (m'.nodes.take m.nodes.size).size
  rw [hsize]
  exact hgrown.closed _ le_rfl hm.closed

/-- A statement of a list is made alike, or fails alike. -/
lemma Outcome.listedStatement (hstatement : Makes greatest (Arena.statement g) (Grammar.statement g'))
    (hm : m.Sane greatest) (heof : m.state.tape.current.isEof = false) (hbase : base ≤ m.nodes.size)
    (hseen : Owns greatest m.nodes base seen seen') :
    Outcome greatest base (fun w' => Rounds greatest w' base) m
      (Arena.listedStatement g stops seen m) (Grammar.listedStatement g' stops seen' m.state) := by
  have hread := hstatement m.nodes le_rfl m hm rfl
  change Outcome greatest base _ m (EStateM.bind (Arena.attempt (Arena.statement g)) _ m)
    (EStateM.bind (Grammar.attempt (Grammar.statement g')) _ m.state)
  unfold EStateM.bind Arena.attempt Grammar.attempt
  generalize Arena.statement g m = r at hread ⊢
  generalize Grammar.statement g' m.state = r' at hread ⊢
  cases hread with
  | @ok id t m' _ hreaches hid hr =>
    have hbehind := @Runs.behindStatement greatest _ base stops _ _
      (.cons (hid.mono hbase) (hseen.grown hreaches.grown))
      (hbase.trans hreaches.grown.size_le) m' hreaches.sane rfl
    exact .along (hreaches.mono hbase) hbehind fun hnone => by rw [hr hnone]
  | @fault f m' _ hreaches hr =>
    obtain ⟨m'', hreport, hreaches', -, hstate⟩ := report_eq hreaches.sane f
    have hcut := (hreaches.trans (hreaches'.mono hreaches.grown.size_le)).cut hm
    have hfirst : (m''.cut m.nodes.size).tokens[m.current]? = some m.state.tape.current := by
      rw [hcut.tokens]
      exact hm.getElem?_current
    have hround : Outcome greatest base (fun w' => Rounds greatest w' base) (m''.cut m.nodes.size)
        ((do return Round.again ((← Arena.giveUp m.current) :: seen)) (m''.cut m.nodes.size))
        ((do return Round.again ((← Grammar.giveUp m.state.tape.current) :: seen'))
          (m''.cut m.nodes.size).state) := by
      refine .behindGiveUp hcut.sane hfirst hcut.current_le (fun hend => ?_)
        (hbase.trans hcut.grown.size_le) fun w' id t hw hid => ?_
      · rw [heof] at hend
        exact absurd hend (by decide)
      · exact .pure (.again (.cons hid ((hseen.grown hcut.grown).grown hw)))
    change Outcome greatest base _ m (EStateM.bind (Arena.report f) _ m') _
    rw [EStateM.bind, hreport]
    refine hround.along (hcut.mono hbase) fun hnone => ?_
    have hstate' : (m''.cut m.nodes.size).state = m'.state.report f := hstate
    rw [hr hnone, hstate']
    rfl
  | exhausted hr =>
    refine .exhausted fun hnone => ?_
    obtain ⟨s, hs⟩ := hr hnone
    exact ⟨s, by rw [hs]⟩

/-- A round of the list adds one statement or one region. -/
lemma Runs.statementRound (hstatement : Makes greatest (Arena.statement g) (Grammar.statement g'))
    (hseen : Owns greatest w base seen seen') :
    Runs greatest w base (fun w' => Rounds greatest w' base) (Arena.statementRound g stops seen)
      (Grammar.statementRound g' stops seen') := by
  refine Exact.skipTerminators.runs fun _ => ?_
  rintro hbase m hm rfl
  change Outcome greatest base _ m (EStateM.bind Arena.kind _ m) _
  rw [EStateM.bind, kind_eq hm]
  change Outcome greatest base _ m
    ((if m.state.tape.kind == .eof || stops.contains m.state.tape.kind then
        return .done seen.reverse
      else if Grammar.closesConstruct m.state.tape.kind then do
        Arena.reportUnexpected "statement"
        drop
        return .again seen
      else Arena.listedStatement g stops seen : Parser _) m)
    ((if m.state.tape.kind == .eof || stops.contains m.state.tape.kind then
        return .done seen'.reverse
      else if Grammar.closesConstruct m.state.tape.kind then do
        Grammar.reportUnexpected "statement"
        Grammar.drop
        return .again seen'
      else Grammar.listedStatement g' stops seen' : Grammar.Parser _) m.state)
  split
  · exact Runs.pure (.done (List.rel_reverse hseen)) hbase m hm rfl
  · rename_i hstops
    split
    · exact ((Exact.reportUnexpected _).runs fun _ => Exact.drop.runs fun _ =>
        .pure (.again hseen)) hbase m hm rfl
    · refine .listedStatement hstatement hm ?_ hbase hseen
      by_contra heof
      rw [Bool.not_eq_false] at heof
      exact hstops (by rw [show (m.state.tape.kind == .eof) = true from heof, Bool.true_or])

/-- A list of statements is made alike if its statements are. -/
lemma Makes.statements (hrounds : g.rounds = g'.rounds)
    (hstatement : Makes greatest (Arena.statement g) (Grammar.statement g')) :
    Makes greatest (Arena.statements g stops) (Grammar.statements g' stops) := by
  intro w
  refine Exact.here.runs fun start => ?_
  rw [hrounds]
  refine .seq (V := fun w' ids ts => Owns greatest w' w.size ids ts)
    (.iterate (I := fun w' ids ts => Owns greatest w' w.size ids ts)
      (fun _ _ _ hseen => .statementRound hstatement hseen) _ .nil) fun w' ids ts _ hids => ?_
  refine .sights (q := fun ts => Pure.pure (Node.inner .statements (Grammar.spanOfEach start ts) ts)) hids
    fun ts' hids' hpeeks => ?_
  exact .known (fun m hnodes => spanOfEach_eq (hnodes ▸ hpeeks)) (.add hids' _ _ _)

end Statements

end RubyCheck.Arena
