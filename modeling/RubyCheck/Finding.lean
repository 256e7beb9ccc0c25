import RubyCheck.Source.Position

/-!
# Findings

What a rule finds in a text that can be read all the same: a cause and the place it is reported at.
-/

namespace RubyCheck

/-- What a rule finds. -/
inductive Finding.Cause where
  /-- A value of a `case` that an earlier clause has already; it was first seen on a line. -/
  | duplicateValue (spelling : String) (firstLine : Nat)
  /-- A local variable that is assigned and never read. -/
  | unusedVariable (name : String)
  /-- A variable that stands as a statement and is not the value of its body. -/
  | voidValue (name : String)
  /-- A block parameter that hides a variable around the block, declared on a line. -/
  | shadowedVariable (name : String) (outerLine : Nat)
  /-- A regular expression that could also have been read as a division. -/
  | ambiguousRegex
  /-- An integer that a leading zero makes octal. -/
  | legacyOctal (text : String)
  /-- An exit hook inside a method. -/
  | endInMethod
deriving DecidableEq, Inhabited, Repr

/-- What a rule finds and where. -/
structure Finding where
  cause : Finding.Cause
  position : Position
deriving DecidableEq, Inhabited, Repr

namespace Finding

/-- The digits of an integer behind its leading zeros. -/
def octalDigits (text : String) : String :=
  match text.toList.dropWhile fun c => c == '0' || c == '_' with
  | [] => "0"
  | digits => String.ofList digits

/-- The wording of a finding. -/
def Cause.message : Cause → String
  | duplicateValue spelling firstLine =>
    s!"duplicated `when` clause value `{spelling}` (first seen on line {firstLine}) is ignored"
  | unusedVariable name => s!"variable `{name}` assigned but never used"
  | voidValue name => s!"possibly useless use of variable `{name}` in void context"
  | shadowedVariable name outerLine =>
    s!"shadowing outer local variable `{name}` (declared on line {outerLine})"
  | ambiguousRegex =>
    "ambiguous first argument; put parentheses or a space even after `/` operator"
  | legacyOctal text =>
    s!"integer literal `{text}` has a leading zero and is read as octal; " ++
      s!"write `0o{octalDigits text}` if that is intended"
  | endInMethod => "END in method; use at_exit"

end Finding

end RubyCheck
