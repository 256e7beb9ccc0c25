import RubyCheck.Token.Kind

/-!
# Levels of binary operators

The binary operators bind at nine levels. Operators of one level group to the left; a power and the prefix
operators bind tighter than all of them.
-/

namespace RubyCheck.Grammar

/-- How tightly a binary operator binds, loosest first. -/
inductive Level where
  | disjunction
  | conjunction
  | equality
  | comparison
  /-- Bitwise "or" and "exclusive or". -/
  | union
  /-- Bitwise "and". -/
  | intersection
  | shift
  | sum
  | product
deriving DecidableEq, Inhabited, Repr

namespace Level

/-- The place of a level, counted from the loosest one. -/
def rank : Level → Nat
  | disjunction => 1 | conjunction => 2 | equality => 3 | comparison => 4 | union => 5
  | intersection => 6 | shift => 7 | sum => 8 | product => 9

/-- The next level that binds tighter. -/
def tighter? : Level → Option Level
  | disjunction => some conjunction | conjunction => some equality | equality => some comparison
  | comparison => some union | union => some intersection | intersection => some shift
  | shift => some sum | sum => some product | product => none

/-- The level of a mark that is a binary operator. -/
def ofPunct? : Punct → Option Level
  | .pipePipe => some disjunction
  | .ampAmp => some conjunction
  | .cmp | .eqEq | .eqEqEq | .notEq | .matches_ | .notMatches => some equality
  | .lt | .gt | .ltEq | .gtEq => some comparison
  | .pipe | .caret => some union
  | .amp => some intersection
  | .shl | .shr => some shift
  | .plus | .minus => some sum
  | .star | .slash | .percent => some product
  | _ => none

/-- The level of a token that is a binary operator, and the operator. -/
def ofToken? : TokenKind → Option (Level × Punct)
  | .punct mark => (ofPunct? mark).map (·, mark)
  | _ => none

theorem rank_of_tighter? {l m : Level} (h : l.tighter? = some m) : m.rank = l.rank + 1 := by
  cases l <;> cases h <;> rfl

end Level

end RubyCheck.Grammar
