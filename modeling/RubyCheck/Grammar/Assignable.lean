import RubyCheck.Grammar.State

/-!
# What can be assigned to

The left side of an assignment is read as an expression first. Variables, constants, elements and
attributes of a receiver are targets; a bare name that looks like a variable becomes a local variable; all
else is refused.
-/

namespace RubyCheck.Grammar

/-- Whether a name could be that of a local variable: it begins in lower case or beyond ASCII, and ends in
none of the marks that only methods have. -/
def isVariableName (name : String) : Bool :=
  startsLow name.toList.head? && !endsInMark name.toList.getLast?
where
  /-- Whether a name may begin so. -/
  startsLow : Option Char → Bool
    | some c => c == '_' || c.isLower || 127 < c.toNat
    | none => false
  /-- Whether a name ends in a mark. -/
  endsInMark : Option Char → Bool
    | some c => c == '?' || c == '!' || c == '='
    | none => false

/-- What a message calls something that cannot be assigned to. -/
def targetName : NodeKind → String
  | .call => "method call"
  | .self_ => "self"
  | .nil_ => "nil"
  | .true_ | .false_ => "boolean literal"
  | k => if k.isLiteral then "literal" else "expression"

/-- Whether a call is the attribute of a receiver and no more. -/
def isAttribute (n : Node) : Bool :=
  match n.children with
  | [receiver] => receiver.kind != .arguments && receiver.kind != .block
  | _ => false

/-- Makes a node that was read as an expression the target of an assignment. A bare name is declared before
the value is read, so the value may refer to it. -/
def assignable (n : Node) : Parser Node :=
  match n.kind with
  | .localVariable | .localTarget => return { n with kind := .localTarget }
  | .instanceVariable | .classVariable | .globalVariable | .constant | .scopedConstant | .index =>
    return n
  | .call =>
    if n.children.isEmpty && isVariableName n.name then do
      declare n.name
      return { n with kind := .localTarget }
    else if isAttribute n then return n
    else fail ⟨.cannotAssign (targetName n.kind), n.span⟩
  | k => fail ⟨.cannotAssign (targetName k), n.span⟩

end RubyCheck.Grammar
