/-!
# Limits

Two bounds protect the reading of a source text: how many faults of the grammar are reported before reading
stops, and how deep constructs may nest. A bound that would allow nothing at all is refused.
-/

namespace RubyCheck

/-- The bounds on reading one source text. -/
structure Limits where
  /-- Faults of the grammar that are reported before reading stops. -/
  maxFaults : Nat
  /-- The deepest nesting that is read. -/
  maxDepth : Nat
  /-- At least one fault can be reported. -/
  faults_pos : 0 < maxFaults
  /-- A statement and its expression fit. -/
  two_le_depth : 2 ≤ maxDepth

/-- Why limits are refused. -/
inductive Limits.Refusal where
  /-- No fault could be reported. -/
  | faultCap (given : Nat)
  /-- Not even one statement could be read. -/
  | nestingDepth (given : Nat)
deriving DecidableEq, Repr

namespace Limits

/-- The limits used unless others are given. -/
def standard : Limits := ⟨100, 512, by decide, by decide⟩

instance : Inhabited Limits := ⟨standard⟩

/-- Limits with the given bounds. The fault cap is looked at first. -/
def of (maxFaults maxDepth : Nat) : Except Refusal Limits :=
  if faults : 0 < maxFaults then
    if depth : 2 ≤ maxDepth then .ok ⟨maxFaults, maxDepth, faults, depth⟩
    else .error (.nestingDepth maxDepth)
  else .error (.faultCap maxFaults)

/-- The wording of a refusal. -/
def Refusal.message : Refusal → String
  | faultCap given => s!"max_syntax_errors must be positive: {given}"
  | nestingDepth given => s!"max_nesting_depth must be >= 2: {given}"

end Limits

end RubyCheck
