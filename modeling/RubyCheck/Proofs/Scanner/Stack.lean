import RubyCheck.Proofs.Scanner.Effect

/-!
# The stacks of the scanner

A checkpoint keeps lengths only, so going back to one is sound only because nothing below those
lengths changes while it can still be gone back to.  Here this is shown move by move: each move but
going back itself leaves the snapshot that an old checkpoint would restore as it is
(`restored_eq_of_grows`), and a new checkpoint would restore the present
(`restored_checkpoint`).  `Relayers` lists the ways in which a move changes the modes and, with
them, the checkpoints that can be gone back to.
-/

namespace RubyCheck.Scanner

variable {s s' t : Scanner} {nested : Scanner → Option Scanner} {c : Checkpoint}

/-! ### The stacks of a scanner -/

/-- Open literals are numbered from the outermost on. -/
def Numbered : List Checkpoint → Prop
  | [] => True
  | c :: outer => c.depth = outer.length ∧ Numbered outer

/-- Without the innermost literal the others keep their numbers. -/
lemma Numbered.tail {cs : List Checkpoint} (h : Numbered cs) : Numbered cs.tail := by
  cases cs with
  | nil => trivial
  | cons c cs => exact h.2

/-- Every open literal is numbered below their count. -/
lemma Numbered.depth_lt {cs : List Checkpoint} (h : Numbered cs) (hc : c ∈ cs) :
    c.depth < cs.length := by
  induction cs with
  | nil => simp at hc
  | cons d cs ih =>
    rw [List.length_cons]
    rcases List.mem_cons.mp hc with rfl | hc
    · rw [h.1]
      exact Nat.lt_succ_self _
    · exact (ih h.2 hc).trans (Nat.lt_succ_self _)

/-- The stacks of a snapshot are at least as high as a checkpoint says they were. -/
structure Fits (r : Snapshot) (c : Checkpoint) : Prop where
  tokens_le : c.tokens ≤ r.tokens.length
  faults_le : c.faults ≤ r.faults.length
  depth_le : c.depth ≤ r.openLiterals.length
  /-- Below an opener stands the outermost code, and a literal and code for each literal around
  it. -/
  modes_eq : c.modes = 2 * c.depth + 1
  topModes_length : c.topModes.length = min 2 c.modes
  opener_eq : c.opener = c.cursor.position.byte
  line_eq : c.line = c.cursor.position.line

/-- The stacks of a snapshot outside heredoc bodies belong together. -/
structure Stacked (r : Snapshot) : Prop where
  alternates : Alternates r.modes
  /-- Every literal among the modes has its checkpoint. -/
  open_length : r.openLiterals.length = r.modes.length / 2
  numbered : Numbered r.openLiterals
  /-- Outside heredoc bodies every literal has a delimiter. -/
  delimited : ∀ l, .literal l ∈ r.modes → l.close.isSome = true
  fits : ∀ c ∈ r.openLiterals, Fits r c

/-- Modes are odd in number inside code and even inside a literal. -/
lemma Alternates.length_mod_two {ms : List Mode} (h : Alternates ms) :
    ms.length % 2 = 1 ∧ (∃ d outer, ms = .code d :: outer) ∨
      ms.length % 2 = 0 ∧ ∃ l outer, ms = .literal l :: outer := by
  induction h with
  | outermost d => exact .inl ⟨rfl, d, [], rfl⟩
  | literal l d outer _ ih =>
    refine .inr ⟨?_, l, _, rfl⟩
    rcases ih with ⟨hlength, -⟩ | ⟨-, l', outer', heq⟩
    · rw [List.length_cons]
      omega
    · simp at heq
  | code d l outer _ ih =>
    refine .inl ⟨?_, d, _, rfl⟩
    rcases ih with ⟨-, d', outer', heq⟩ | ⟨hlength, -⟩
    · simp at heq
    · rw [List.length_cons]
      omega

/-- Around code there is an even number of modes. -/
lemma Alternates.length_of_code {d : ℕ} {outer : List Mode} (h : Alternates (.code d :: outer)) :
    (outer.length + 1) % 2 = 1 := by
  rcases h.length_mod_two with ⟨hlength, -⟩ | ⟨-, l, outer', heq⟩
  · exact hlength
  · simp at heq

/-- Around a literal there is an odd number of modes. -/
lemma Alternates.length_of_literal {l : OpenLiteral} {outer : List Mode}
    (h : Alternates (.literal l :: outer)) : (outer.length + 1) % 2 = 0 := by
  rcases h.length_mod_two with ⟨-, d, outer', heq⟩ | ⟨hlength, -⟩
  · simp at heq
  · exact hlength

/-! ### Restoring after a move -/

/-- What every move but going back does to the stacks: they grow, or lose no more than their newest
entry. -/
structure Grows (s s' : Scanner) : Prop where
  tokens : s.tokens <:+ s'.tokens
  faults : s.faults <:+ s'.faults
  modes : s.modes.tail <:+ s'.modes
  openLiterals : s.openLiterals <:+ s'.openLiterals ∨ s'.openLiterals <:+ s.openLiterals
  inBody : s'.inBody = s.inBody

/-- Stacks that grow restore an old checkpoint to what it was. -/
theorem restored_eq_of_grows (h : Grows s s') (hfits : Fits s.snapshot c)
    (hmodes : c.modes ≤ s.modes.length + 1) (hdepth : c.depth ≤ s'.openLiterals.length) :
    s'.restored c = s.restored c := by
  have htokens : keepOldest c.tokens s'.tokens = keepOldest c.tokens s.tokens :=
    keepOldest_of_suffix h.tokens hfits.tokens_le
  have hfaults : keepOldest c.faults s'.faults = keepOldest c.faults s.faults :=
    keepOldest_of_suffix h.faults hfits.faults_le
  have hopen : keepOldest c.depth s'.openLiterals = keepOldest c.depth s.openLiterals :=
    keepOldest_of_suffix_or h.openLiterals hfits.depth_le hdepth
  have hkept : keepOldest (c.modes - c.topModes.length) s'.modes =
      keepOldest (c.modes - c.topModes.length) s.modes := by
    have hlow : c.modes - c.topModes.length ≤ s.modes.tail.length := by
      rw [hfits.topModes_length, List.length_tail]
      omega
    rw [keepOldest_of_suffix h.modes hlow, keepOldest_of_suffix (List.tail_suffix _) hlow]
  simp only [restored, restore, snapshot, htokens, hfaults, hopen, hkept, h.inBody]

/-- A checkpoint just taken restores the present. -/
theorem restored_checkpoint {spaced : Bool} (h : Grows s s') (hmodes : s.modes <:+ s'.modes)
    (hopen : s.openLiterals <:+ s'.openLiterals) :
    s'.restored (s.checkpoint spaced) = s.snapshot := by
  have htokens : keepOldest s.tokens.length s'.tokens = s.tokens := by
    rw [keepOldest_of_suffix h.tokens le_rfl, keepOldest_length]
  have hfaults : keepOldest s.faults.length s'.faults = s.faults := by
    rw [keepOldest_of_suffix h.faults le_rfl, keepOldest_length]
  have hopen' : keepOldest s.openLiterals.length s'.openLiterals = s.openLiterals := by
    rw [keepOldest_of_suffix hopen le_rfl, keepOldest_length]
  have hmodes' : s.modes.take 2 ++ keepOldest (s.modes.length - (s.modes.take 2).length) s'.modes =
      s.modes := by
    rw [keepOldest_of_suffix hmodes (Nat.sub_le _ _), keepOldest, List.length_take]
    rw [show s.modes.length - (s.modes.length - min 2 s.modes.length) =
      min 2 s.modes.length by omega]
    have hsplit := List.take_append_drop (min 2 s.modes.length) s.modes
    rwa [← List.take_eq_take_min] at hsplit
  simp only [restored, restore, snapshot, checkpoint, htokens, hfaults, hopen', hmodes', h.inBody]

/-- Going back twice is going back once. -/
theorem restored_restore {c c' : Checkpoint} (hfits : Fits s.snapshot c)
    (hfits' : Fits (s.restored c) c') (hmodes : c'.modes + 2 ≤ c.modes)
    (hlow : c.modes ≤ s.modes.length + 1) :
    (s.restore c).restored c' = s.restored c' := by
  have htokens : keepOldest c'.tokens (keepOldest c.tokens s.tokens) =
      keepOldest c'.tokens s.tokens := by
    refine keepOldest_keepOldest ?_ hfits.tokens_le
    have := hfits'.tokens_le
    rwa [show (s.restored c).tokens.length = c.tokens from
      length_keepOldest hfits.tokens_le] at this
  have hfaults : keepOldest c'.faults (keepOldest c.faults s.faults) =
      keepOldest c'.faults s.faults := by
    refine keepOldest_keepOldest ?_ hfits.faults_le
    have := hfits'.faults_le
    rwa [show (s.restored c).faults.length = c.faults from
      length_keepOldest hfits.faults_le] at this
  have hopen : keepOldest c'.depth (keepOldest c.depth s.openLiterals) =
      keepOldest c'.depth s.openLiterals := by
    refine keepOldest_keepOldest ?_ hfits.depth_le
    have := hfits'.depth_le
    rwa [show (s.restored c).openLiterals.length = c.depth from
      length_keepOldest hfits.depth_le] at this
  have hkept : keepOldest (c'.modes - c'.topModes.length)
      (c.topModes ++ keepOldest (c.modes - c.topModes.length) s.modes) =
        keepOldest (c'.modes - c'.topModes.length) s.modes := by
    have h2 := hfits.topModes_length
    have h2' := hfits'.topModes_length
    have hlow' : c.modes - c.topModes.length ≤ s.modes.length := by omega
    have hle : c'.modes - c'.topModes.length ≤ c.modes - c.topModes.length := by omega
    rw [keepOldest_of_suffix (List.suffix_append _ _) (by rwa [length_keepOldest hlow']),
      keepOldest_keepOldest hle hlow']
  simp only [restored, restore, snapshot, htokens, hfaults, hopen, hkept]

/-! ### The moves and the stacks -/

/-- A snapshot tells how the stacks have grown. -/
lemma Grows.of_snapshot (htokens : s.tokens <:+ s'.snapshot.tokens)
    (hfaults : s.faults <:+ s'.snapshot.faults)
    (hmodes : s.modes.tail <:+ s'.snapshot.modes)
    (hopen : s.openLiterals <:+ s'.snapshot.openLiterals ∨
      s'.snapshot.openLiterals <:+ s.openLiterals)
    (hbody : s'.snapshot.inBody = s.inBody) : Grows s s' :=
  ⟨htokens, hfaults, hmodes, hopen, hbody⟩

/-- Reading content only adds to the stacks. -/
lemma Content.grows (h : Content s t) : Grows s t := by
  obtain ⟨l, l', outer, stop, n, hmodes, -, rfl⟩ := h
  have htail : s.modes.tail <:+ .literal l' :: outer := by
    rw [hmodes]
    exact List.suffix_cons _ _
  have hemit := snapshot_emitContent (s := { s with modes := .literal l' :: outer }) n
  rcases hemit with ⟨hsnap, -⟩ | ⟨-, hsnap⟩
  · refine .of_snapshot ?_ ?_ ?_ ?_ ?_ <;> rw [hsnap]
    exacts [List.suffix_rfl, List.suffix_rfl, htail, .inl List.suffix_rfl, rfl]
  · refine .of_snapshot ?_ ?_ ?_ ?_ ?_ <;> rw [hsnap]
    exacts [List.suffix_cons _ _, List.suffix_rfl, htail, .inl List.suffix_rfl, rfl]

/-- Counting braces leaves the outer modes alone. -/
lemma SameLayers.tail_suffix {ms ms' : List Mode} (h : SameLayers ms ms') : ms.tail <:+ ms' := by
  cases h with
  | refl => exact List.tail_suffix _
  | braces => exact List.suffix_cons _ _

/-- A move forward adds to the stacks, or takes off the newest entry. -/
theorem Forward.grows (h : Forward nested s s') : Grows s s' := by
  have htail := List.tail_suffix s.modes
  cases h with
  | blank n code piece core_eq =>
    refine .of_snapshot ?_ ?_ ?_ ?_ ?_ <;> rw [snapshot_eq_of_core core_eq]
    exacts [List.suffix_rfl, List.suffix_rfl, htail, .inl List.suffix_rfl, rfl]
  | document n code top word ended core_eq =>
    refine .of_snapshot ?_ ?_ ?_ ?_ ?_ <;> rw [snapshot_eq_of_core core_eq]
    exacts [List.suffix_rfl, List.suffix_rfl, htail, .inl List.suffix_rfl, rfl]
  | stray cause n code pos ahead core_eq =>
    refine .of_snapshot ?_ ?_ ?_ ?_ ?_ <;> rw [snapshot_eq_of_core core_eq]
    exacts [List.suffix_rfl, List.suffix_cons _ _, htail, .inl List.suffix_rfl, rfl]
  | token ms kind n spaced code layers plain pos ahead core_eq =>
    refine .of_snapshot ?_ ?_ ?_ ?_ ?_ <;> rw [snapshot_eq_of_core core_eq]
    exacts [List.suffix_cons _ _, List.suffix_rfl, layers.tail_suffix, .inl List.suffix_rfl, rfl]
  | faulty cause k kind n spaced code plain pos ahead core_eq =>
    refine .of_snapshot ?_ ?_ ?_ ?_ ?_ <;> rw [snapshot_eq_of_core core_eq]
    exacts [List.suffix_cons _ _, List.suffix_cons _ _, htail, .inl List.suffix_rfl, rfl]
  | jump t resume rest code lineBreak read pending core_eq =>
    rcases read with rfl | rfl
    · refine .of_snapshot ?_ ?_ ?_ ?_ ?_ <;> rw [snapshot_eq_of_core core_eq]
      exacts [List.suffix_cons _ _, List.suffix_rfl, htail, .inl List.suffix_rfl, rfl]
    · refine .of_snapshot ?_ ?_ ?_ ?_ ?_ <;> rw [snapshot_eq_of_core core_eq]
      exacts [List.suffix_rfl, List.suffix_rfl, htail, .inl List.suffix_rfl, rfl]
  | heredoc o spaced body code opener read core_eq =>
    refine .of_snapshot ?_ ?_ ?_ ?_ ?_ <;> rw [snapshot_eq_of_core core_eq]
    · exact (List.suffix_cons _ _).trans ((List.suffix_append _ _).trans (List.suffix_cons _ _))
    · exact (List.suffix_append _ _).trans (List.suffix_append _ _)
    exacts [htail, .inl List.suffix_rfl, rfl]
  | begin o spaced code pos ahead core_eq =>
    refine .of_snapshot ?_ ?_ ?_ ?_ ?_ <;> rw [snapshot_eq_of_core core_eq, snapshot_beginLiteral]
    exacts [List.suffix_cons _ _, List.suffix_rfl, htail.trans (List.suffix_cons _ _),
      .inl (List.suffix_cons _ _), rfl]
  | endInterpolation spaced mode outer rest modes brace core_eq =>
    refine .of_snapshot ?_ ?_ ?_ ?_ ?_ <;> rw [snapshot_eq_of_core core_eq]
    exacts [List.suffix_cons _ _, List.suffix_rfl, by rw [modes]; exact List.suffix_rfl,
      .inl List.suffix_rfl, rfl]
  | beginInterpolation l outer modes stop core_eq =>
    refine .of_snapshot ?_ ?_ ?_ ?_ ?_ <;> rw [snapshot_eq_of_core core_eq]
    exacts [List.suffix_cons _ _, List.suffix_rfl, htail.trans (List.suffix_cons _ _),
      .inl List.suffix_rfl, rfl]
  | abandon l outer modes stop core_eq =>
    refine .of_snapshot ?_ ?_ ?_ ?_ ?_ <;> rw [snapshot_eq_of_core core_eq, snapshot_abandonLiteral]
    exacts [List.suffix_cons _ _, List.suffix_cons _ _, by rw [modes]; exact List.suffix_rfl,
      .inr (List.tail_suffix _), rfl]
  | close l outer modes stop core_eq =>
    refine .of_snapshot ?_ ?_ ?_ ?_ ?_ <;> rw [snapshot_eq_of_core core_eq, snapshot_closeLiteral]
    exacts [List.suffix_cons _ _, List.suffix_rfl, by rw [modes]; exact List.suffix_rfl,
      .inr (List.tail_suffix _), rfl]
  | endBody l outer modes open_ stop core_eq =>
    refine .of_snapshot ?_ ?_ ?_ ?_ ?_ <;> rw [snapshot_eq_of_core core_eq]
    exacts [List.suffix_rfl, List.suffix_rfl, by rw [modes]; exact List.suffix_rfl,
      .inl List.suffix_rfl, rfl]

/-- How a move forward changes the modes, and with them the checkpoints that can be gone back to. -/
inductive Relayers (s s' : Scanner) : Prop
  | same (layers : SameLayers s.modes s'.modes) (opens : s'.openLiterals = s.openLiterals)
      (last : s'.lastMultiline = s.lastMultiline)
  | opened (l : OpenLiteral) (spaced : Bool) (code : s.InCode) (delimited : l.close.isSome = true)
      (modes : s'.modes = .literal l :: s.modes)
      (opens : s'.openLiterals = s.checkpoint spaced :: s.openLiterals)
      (last : s'.lastMultiline = s.lastMultiline)
  | entered (l : OpenLiteral) (outer : List Mode) (modes : s.modes = .literal l :: outer)
      (modes' : s'.modes = .code 0 :: s.modes) (opens : s'.openLiterals = s.openLiterals)
      (last : s'.lastMultiline = s.lastMultiline)
  | left (mode : Mode) (outer : List Mode) (modes : s.modes = .code 0 :: mode :: outer)
      (modes' : s'.modes = mode :: outer) (opens : s'.openLiterals = s.openLiterals)
      (last : s'.lastMultiline = s.lastMultiline)
  | closed (l : OpenLiteral) (outer : List Mode) (modes : s.modes = .literal l :: outer)
      (modes' : s'.modes = outer) (opens : s'.openLiterals = s.openLiterals.tail)
      (live : ∀ x ∈ s'.live, x ∈ s.live ∧ (x ∈ s.openLiterals ∨
        ∀ c ∈ s.openLiterals.head?, x.depth ≤ c.depth))
  | body (l : OpenLiteral) (outer : List Mode) (modes : s.modes = .literal l :: outer)
      (open_ : l.close = none) (modes' : s'.modes = outer)
      (opens : s'.openLiterals = s.openLiterals)

/-- Closing a literal gives the checkpoint of the innermost one. -/
lemma fst_popLiteral (promote : Bool) : (s.popLiteral promote).1 = s.openLiterals.head? := by
  unfold popLiteral
  split <;> rename_i h <;> simp [h]

/-- Forgetting the innermost literal leaves no checkpoint that is nested more deeply. -/
lemma live_popLiteral {promote : Bool} {x : Checkpoint} (hx : x ∈ (s.popLiteral promote).2.live) :
    x ∈ s.live ∧ (x ∈ s.openLiterals ∨ ∀ c ∈ s.openLiterals.head?, x.depth ≤ c.depth) := by
  rw [mem_live] at hx ⊢
  unfold popLiteral at hx
  split at hx
  · rename_i hnil
    exact ⟨hx, .inr (by simp [hnil])⟩
  · rename_i c outer hcons
    rw [hcons]
    dsimp only at hx
    rcases hx with hx | hx
    · split at hx
      · split at hx
        · obtain rfl := Option.some.inj hx
          exact ⟨.inr (by simp), .inl (by simp)⟩
        · simp at hx
      · rename_i hdeeper
        refine ⟨.inl hx, .inr fun d hd => ?_⟩
        obtain rfl : c = d := by simpa using hd
        simpa [hx] using hdeeper
    · exact ⟨.inr (List.mem_cons_of_mem _ hx), .inl (List.mem_cons_of_mem _ hx)⟩

/-- Behind a literal that was closed no newer checkpoint is live than its own. -/
lemma live_closeLiteral {l : OpenLiteral} {outer : List Mode} {x : Checkpoint}
    (hx : x ∈ (s.closeLiteral l outer).live) :
    x ∈ s.live ∧ (x ∈ s.openLiterals ∨ ∀ c ∈ s.openLiterals.head?, x.depth ≤ c.depth) := by
  have hpop : ∀ x ∈ (({ s with modes := outer }.emit .stringEnd (s.closingWidth l) false).popLiteral
      (l.flavor == Flavor.string)).2.live,
      x ∈ s.live ∧ (x ∈ s.openLiterals ∨ ∀ c ∈ s.openLiterals.head?, x.depth ≤ c.depth) :=
    fun x hx => (live_popLiteral hx :)
  unfold closeLiteral at hx
  dsimp only at hx
  generalize ht : ({ s with modes := outer }.emit .stringEnd _ false).popLiteral
    (l.flavor == Flavor.string) = r at hx
  replace hpop : ∀ x ∈ r.2.live, _ := ht ▸ hpop
  split at hx
  · -- The literal just closed is remembered.
    rcases mem_live.mp hx with hx | hx
    · have hpopped : r.1 = s.openLiterals.head? := by
        rw [← ht, fst_popLiteral]
        rfl
      have hmem := List.mem_of_mem_head? (hpopped.symm.trans hx)
      exact ⟨mem_live.mpr (.inr hmem), .inl hmem⟩
    · exact hpop x (mem_live.mpr (.inr hx))
  · exact hpop x hx

/-- A scanner of the core of one with the same layers and checkpoints relayers in the same way. -/
lemma Relayers.same_of_core (h : s'.core = t.core) (layers : SameLayers s.modes t.modes)
    (opens : t.openLiterals = s.openLiterals) (last : t.lastMultiline = s.lastMultiline) :
    Relayers s s' :=
  .same (modes_eq_of_core h ▸ layers) ((openLiterals_eq_of_core h).trans opens)
    ((lastMultiline_eq_of_core h).trans last)

/-- Every move forward changes the modes in one of these ways. -/
theorem Forward.relayers (h : Forward nested s s') : Relayers s s' := by
  cases h with
  | blank n code piece core_eq =>
    exact .same_of_core core_eq (.refl _) rfl rfl
  | document n code top word ended core_eq =>
    exact .same_of_core core_eq (.refl _) rfl rfl
  | stray cause n code pos ahead core_eq =>
    exact .same_of_core core_eq (.refl _) rfl rfl
  | token ms kind n spaced code layers plain pos ahead core_eq =>
    exact .same_of_core core_eq layers rfl rfl
  | faulty cause k kind n spaced code plain pos ahead core_eq =>
    exact .same_of_core core_eq (.refl _) rfl rfl
  | jump t resume rest code lineBreak read pending core_eq =>
    rcases read with rfl | rfl
    · exact .same_of_core core_eq (.refl _) rfl rfl
    · exact .same_of_core core_eq (.refl _) rfl rfl
  | heredoc o spaced body code opener read core_eq =>
    exact .same_of_core core_eq (.refl _) rfl rfl
  | begin o spaced code pos ahead core_eq =>
    have hsnap := (snapshot_eq_of_core core_eq).trans (snapshot_beginLiteral o spaced)
    refine .opened (s.openedLiteral o) spaced code rfl (congrArg Snapshot.modes hsnap :)
      (congrArg Snapshot.openLiterals hsnap :) ((lastMultiline_eq_of_core core_eq).trans ?_)
    simp only [beginLiteral, endOnItsLine]
    split_ifs <;> rfl
  | endInterpolation spaced mode outer rest modes brace core_eq =>
    exact .left mode outer modes (modes_eq_of_core core_eq :) (openLiterals_eq_of_core core_eq :)
      (lastMultiline_eq_of_core core_eq :)
  | beginInterpolation l outer modes stop core_eq =>
    exact .entered l outer modes (modes_eq_of_core core_eq :) (openLiterals_eq_of_core core_eq :)
      (lastMultiline_eq_of_core core_eq :)
  | abandon l outer modes stop core_eq =>
    have hsnap := (snapshot_eq_of_core core_eq).trans (snapshot_abandonLiteral l outer)
    refine .closed l outer modes (congrArg Snapshot.modes hsnap :)
      (congrArg Snapshot.openLiterals hsnap :) ?_
    rw [live_eq_of_core core_eq]
    exact fun x hx => (live_popLiteral hx :)
  | close l outer modes stop core_eq =>
    have hsnap := (snapshot_eq_of_core core_eq).trans (snapshot_closeLiteral l outer)
    refine .closed l outer modes (congrArg Snapshot.modes hsnap :)
      (congrArg Snapshot.openLiterals hsnap :) ?_
    rw [live_eq_of_core core_eq]
    exact fun x hx => live_closeLiteral hx
  | endBody l outer modes open_ stop core_eq =>
    exact .body l outer modes open_ (modes_eq_of_core core_eq :) (openLiterals_eq_of_core core_eq :)

/-- Counting braces keeps modes alternating. -/
lemma SameLayers.alternates {ms ms' : List Mode} (h : SameLayers ms ms') (halt : Alternates ms) :
    Alternates ms' := by
  cases h with
  | refl => exact halt
  | braces d d' outer =>
    cases halt with
    | outermost => exact .outermost _
    | code _ l outer halt => exact .code _ l outer halt

/-- Counting braces keeps the number of modes. -/
lemma SameLayers.length_eq {ms ms' : List Mode} (h : SameLayers ms ms') :
    ms'.length = ms.length := by
  cases h <;> rfl

/-- Moves forward keep code and literals alternating. -/
theorem Forward.alternates (halt : Alternates s.modes) (h : Forward nested s s') :
    Alternates s'.modes := by
  cases h.relayers with
  | same layers => exact layers.alternates halt
  | opened l spaced code delimited modes =>
    obtain ⟨d, outer, hmodes⟩ := code
    rw [modes, hmodes]
    exact .literal l d outer (hmodes ▸ halt)
  | entered l outer modes modes' =>
    rw [modes', modes]
    exact .code 0 l outer (modes ▸ halt)
  | left mode outer modes modes' =>
    rw [modes']
    exact (modes ▸ halt).tail (List.cons_ne_nil _ _)
  | closed l outer modes modes' | body l outer modes _ modes' =>
    obtain ⟨d, outer', rfl⟩ := (modes ▸ halt).of_literal
    rw [modes']
    exact (modes ▸ halt).tail (List.cons_ne_nil _ _)

/-- Reading content keeps modes alternating. -/
lemma Content.alternates (halt : Alternates s.modes) (h : Content s t) : Alternates t.modes := by
  obtain ⟨l, l', outer, hmodes, hmodes', -⟩ := h.modes_eq
  obtain ⟨d, outer', rfl⟩ := (hmodes ▸ halt).of_literal
  rw [hmodes']
  exact .literal l' d outer' ((hmodes ▸ halt).tail (List.cons_ne_nil _ _))

end RubyCheck.Scanner
