import Mathlib.Data.List.Infix
import RubyCheck.Token.Scanner.Rewind

/-!
# What a checkpoint brings back

A checkpoint keeps the lengths of the stacks and `restore` cuts the stacks to those lengths.  This
file names the part of a scanner that is brought back in this way, its `snapshot`, and the larger
part that says what was read, its `core`; what only guides the scanner (the expectation and the
names it knows) belongs to neither.  The lemmas on `keepOldest` say when cutting two stacks to one
length gives the same entries.
-/

namespace RubyCheck.Scanner

/-! ### The oldest entries of a stack -/

section KeepOldest

variable {α : Type} {m n : ℕ} {xs ys : List α}

/-- The oldest entries are the end of a stack. -/
lemma keepOldest_suffix (n : ℕ) (xs : List α) : keepOldest n xs <:+ xs :=
  List.drop_suffix _ _

@[simp] lemma keepOldest_length (xs : List α) : keepOldest xs.length xs = xs := by
  simp [keepOldest]

/-- The oldest entries are as many as are kept. -/
lemma length_keepOldest (hn : n ≤ xs.length) : (keepOldest n xs).length = n := by
  rw [keepOldest, List.length_drop]
  omega

/-- Entries above the oldest `n` do not matter. -/
lemma keepOldest_of_suffix (h : xs <:+ ys) (hn : n ≤ xs.length) :
    keepOldest n ys = keepOldest n xs := by
  obtain ⟨newer, rfl⟩ := h
  rw [keepOldest, keepOldest, List.length_append, Nat.add_sub_assoc hn, List.drop_append,
    List.drop_eq_nil_of_le (Nat.le_add_right _ _), List.nil_append, Nat.add_sub_cancel_left]

/-- Of two stacks the older one of which lies in the other, the entries in the older one do not
change. -/
lemma keepOldest_of_suffix_or (h : xs <:+ ys ∨ ys <:+ xs) (hx : n ≤ xs.length)
    (hy : n ≤ ys.length) : keepOldest n ys = keepOldest n xs := by
  rcases h with h | h
  · exact keepOldest_of_suffix h hx
  · exact (keepOldest_of_suffix h hy).symm

/-- Of the oldest entries, the oldest are those of the stack. -/
lemma keepOldest_keepOldest (hmn : m ≤ n) (hn : n ≤ xs.length) :
    keepOldest m (keepOldest n xs) = keepOldest m xs :=
  (keepOldest_of_suffix (keepOldest_suffix n xs) (by rwa [length_keepOldest hn])).symm

end KeepOldest

/-! ### The core of a scanner -/

/-- A scanner without what only guides it: what it expects next, and the names it knows. -/
def core (s : Scanner) : Scanner :=
  { s with
    expects := .operand
    spaceSeen := false
    definingName := false
    inBlockParameters := false
    locals := [] }

section Core

variable {s t : Scanner} (h : s.core = t.core)

include h

/-- Scanners of one core have one cursor. -/
lemma cursor_eq_of_core : s.cursor = t.cursor := (congrArg cursor h :)

/-- Scanners of one core have the same modes. -/
lemma modes_eq_of_core : s.modes = t.modes := (congrArg modes h :)

/-- Scanners of one core are both in a body or both outside. -/
lemma inBody_eq_of_core : s.inBody = t.inBody := (congrArg inBody h :)

/-- Scanners of one core have the same literals open. -/
lemma openLiterals_eq_of_core : s.openLiterals = t.openLiterals := (congrArg openLiterals h :)

/-- Scanners of one core have the same last literal over several lines. -/
lemma lastMultiline_eq_of_core : s.lastMultiline = t.lastMultiline := (congrArg lastMultiline h :)

/-- Scanners of one core have the same openers that end on their lines. -/
lemma singleLine_eq_of_core : s.singleLine = t.singleLine := (congrArg singleLine h :)

/-- Scanners of one core have the same place to resume at. -/
lemma resume_eq_of_core : s.resume = t.resume := (congrArg resume h :)

end Core

/-! ### Snapshots -/

/-- What going back to a checkpoint brings back, and whether the body of a heredoc is read. -/
structure Snapshot where
  cursor : Cursor
  tokens : List Token
  faults : List Fault
  modes : List Mode
  openLiterals : List Checkpoint
  resume : Option Cursor
  inBody : Bool

/-- The snapshot of a scanner as it is. -/
def snapshot (s : Scanner) : Snapshot where
  cursor := s.cursor
  tokens := s.tokens
  faults := s.faults
  modes := s.modes
  openLiterals := s.openLiterals
  resume := s.resume
  inBody := s.inBody

section Fields

variable (s : Scanner)

@[simp] lemma snapshot_cursor : s.snapshot.cursor = s.cursor := rfl

@[simp] lemma snapshot_tokens : s.snapshot.tokens = s.tokens := rfl

@[simp] lemma snapshot_faults : s.snapshot.faults = s.faults := rfl

@[simp] lemma snapshot_modes : s.snapshot.modes = s.modes := rfl

@[simp] lemma snapshot_openLiterals : s.snapshot.openLiterals = s.openLiterals := rfl

@[simp] lemma snapshot_resume : s.snapshot.resume = s.resume := rfl

@[simp] lemma snapshot_inBody : s.snapshot.inBody = s.inBody := rfl

end Fields

/-- Scanners of one core have one snapshot. -/
lemma snapshot_eq_of_core {s t : Scanner} (h : s.core = t.core) : s.snapshot = t.snapshot :=
  (congrArg snapshot h :)

/-- The snapshot that going back to a checkpoint would give. -/
def restored (s : Scanner) (c : Checkpoint) : Snapshot := (s.restore c).snapshot

/-- The checkpoints that can still be gone back to. -/
def live (s : Scanner) : List Checkpoint := s.lastMultiline.toList ++ s.openLiterals

/-- Scanners of one core can go back to the same checkpoints. -/
lemma live_eq_of_core {s t : Scanner} (h : s.core = t.core) : s.live = t.live :=
  (congrArg live h :)

/-- A checkpoint is live if it is that of the last literal over several lines, or of an open one. -/
lemma mem_live {s : Scanner} {c : Checkpoint} :
    c ∈ s.live ↔ s.lastMultiline = some c ∨ c ∈ s.openLiterals := by
  simp [live]

end RubyCheck.Scanner
