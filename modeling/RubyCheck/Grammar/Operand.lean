import RubyCheck.Grammar.Control
import RubyCheck.Grammar.Definition

/-!
# Operands

An operand is a literal, a variable, a bare call, something between brackets, or a construct that a keyword
begins.
-/

namespace RubyCheck.Grammar

/-- A constant of the outermost scope. -/
def outermostConstant : Parser Node := do
  let start ← here
  drop
  let name := (← expect .constant).text
  finishNamed .scopedConstant start name []

/-- A negation by keyword inside an expression. -/
def negation (g : Grammar) : Parser Node := do
  let start ← here
  drop
  finish .not_ start [← g.parse .expression]

/-- What a keyword begins. -/
def keywordOperand (g : Grammar) : Keyword → Parser Node
  | .nil_ => takeAs .nil_ "nil"
  | .true_ => takeAs .true_ "true"
  | .false_ => takeAs .false_ "false"
  | .self_ => takeAs .self_ "self"
  | .redo_ => takeAs .redo_ "redo"
  | .retry_ => takeAs .retry_ "retry"
  | .def_ => method g
  | .class_ => classDefinition g
  | .module_ => moduleDefinition g
  | .alias_ => alias_
  | .undef_ => undef g
  | .beginHook => hook g .beginBlock
  | .endHook => hook g .endBlock
  | .if_ => conditional g
  | .unless_ => negatedConditional g
  | .while_ => conditionLoop g .while_
  | .until_ => conditionLoop g .until_
  | .for_ => iteration g
  | .case_ => choice g
  | .begin_ => protectedBody g
  | .return_ => jump g .return_
  | .break_ => jump g .break_
  | .next_ => jump g .next_
  | .yield_ => keywordCall g .yield_
  | .super_ => keywordCall g .super_
  | .defined_ => definedTest g
  | .not_ => negation g
  | .and_ | .do_ | .else_ | .elsif_ | .end_ | .ensure_ | .in_ | .or_ | .rescue_ | .then_
  | .when_ => refuse "expression"

/-- What a mark begins. -/
def markOperand (g : Grammar) : Punct → Parser Node
  | .colonColon => outermostConstant
  | .lBracket => array g
  | .lBrace => hash g
  | .lParen => paren g
  | .arrow => lambda g
  | _ => refuse "expression"

/-- An operand. -/
def operand (g : Grammar) : Parser Node := do
  match ← kind with
  | .integer | .legacyOctal => takeLeaf .integer
  | .float => takeLeaf .float
  | .character => takeLeaf .character
  | .percentLiteral => percentLiteral
  | .stringBegin => quoted g .string
  | .regexBegin => quoted g .regex
  | .symbol => symbol
  | .identifier => bareName g
  | .constant => constant g
  | .instanceVariable => takeLeaf .instanceVariable
  | .classVariable => takeLeaf .classVariable
  | .globalVariable => takeLeaf .globalVariable
  | .keyword word => keywordOperand g word
  | .punct mark => markOperand g mark
  | .stringContent | .stringEnd | .interpolationBegin | .interpolationEnd | .label | .opAssign
  | .newline | .eof => refuse "expression"

end RubyCheck.Grammar
