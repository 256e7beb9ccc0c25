import RubyCheck.Finding
import RubyCheck.Tree.LiteralValue

/-!
# Repeated values of a `case`

A value that an earlier clause has already is never compared with. Values count as equal if they denote the
same, in whatever clauses they stand.
-/

namespace RubyCheck.Analysis

/-- The values that a clause compares with. -/
def clauseValues (clause : Node) : List Node :=
  if clause.kind = .when_ then (clause.children.head?.map (·.children)).getD [] else []

/-- The literals that the clauses of a `case` compare with, in order, with what they denote. -/
def caseLiterals (choice : Node) : List (LiteralValue × Node) :=
  (choice.children.flatMap clauseValues).filterMap fun n => n.literal?.map (·, n)

/-- The repeated ones of some literals, behind literals seen before with their lines. -/
def repeatedAmong (seen : List (LiteralValue × Nat)) : List (LiteralValue × Node) → List Finding
  | [] => []
  | (value, n) :: rest =>
    match seen.lookup value with
    | some firstLine =>
      ⟨.duplicateValue n.spelling firstLine, n.span.start⟩ :: repeatedAmong seen rest
    | none => repeatedAmong ((value, n.span.start.shownLine) :: seen) rest

/-- The repeated values of a `case`. -/
def repeatedValues (choice : Node) : List Finding := repeatedAmong [] (caseLiterals choice)

end RubyCheck.Analysis
