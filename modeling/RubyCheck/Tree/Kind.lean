/-!
# Kinds of tree nodes

The constructs of the language, each with the children it has where these are not just its operands in
source order.
-/

namespace RubyCheck

/-- What a node of the syntax tree is. -/
inductive NodeKind where
  /-- The root, with the top-level statements. -/
  | program
  /-- A sequence of statements. -/
  | statements
  /-- A region that was given up after a fault; it has no children. -/
  | error
  /-- An integer; its text is as written. -/
  | integer
  | float
  /-- A string or heredoc; its text is the content if no code stands in it. -/
  | string
  | regex
  /-- A symbol; its text is the name. -/
  | symbol
  | character
  /-- A percent literal of words or symbols. -/
  | words
  | array
  | hash
  /-- A key and its value. -/
  | pair
  /-- A range; its text is the operator. -/
  | range
  | nil_
  | true_
  | false_
  | self_
  /-- A use of a local variable. -/
  | localVariable
  /-- A local variable as the target of an assignment. -/
  | localTarget
  | instanceVariable
  | classVariable
  | globalVariable
  | constant
  /-- A constant in a scope; its child is the scope, unless that is the outermost one. -/
  | scopedConstant
  /-- A method call; its text is the name, its children a receiver, arguments and a block, each of
  which may be missing. -/
  | call
  | arguments
  | splat
  | doubleSplat
  | blockPass
  /-- A block: its parameters, if any, and its body. -/
  | block
  | blockParameters
  | parameters
  /-- A parameter; its text is the bare name, its child the default value. -/
  | parameter
  /-- A variable of a block, declared behind its parameters. -/
  | blockLocal
  /-- An anonymous function: its parameters, if any, and its body. -/
  | lambda
  | assignment
  /-- An assignment with an operator, which is its text. -/
  | opAssignment
  /-- An assignment to several targets: the targets and the value. -/
  | multipleAssignment
  | multiTargets
  /-- An element: the receiver and the arguments between brackets. -/
  | index
  | binary
  | unary
  | not_
  | and_
  | or_
  | defined
  | ternary
  /-- A condition, a body, and an `else` branch or another `if` for `elsif`. -/
  | if_
  /-- A condition, a body and perhaps an `else` branch. -/
  | unless_
  | ifModifier
  | unlessModifier
  | whileModifier
  | untilModifier
  | rescueModifier
  | while_
  | until_
  /-- A target, what is iterated over, and a body. -/
  | for_
  /-- A subject, which may be missing, clauses, and perhaps an `else` branch. -/
  | case_
  /-- The values of a clause and its body. -/
  | when_
  /-- The pattern of a clause and its body. -/
  | in_
  | else_
  | begin_
  /-- Exception classes, perhaps a target, and a body. -/
  | rescueClause
  | ensureClause
  /-- A method definition: parameters and body; its text is the name. -/
  | methodDef
  /-- A class definition: the superclass, if any, and the body. -/
  | classDef
  | moduleDef
  /-- The body of an object's own class: the object and the body. -/
  | singletonClass
  | return_
  | break_
  | next_
  | redo_
  | retry_
  | yield_
  | super_
  | alias_
  | undef_
  | beginBlock
  | endBlock
  /-- Code inside a literal. -/
  | interpolation
  /-- Statements between parentheses. -/
  | paren
deriving DecidableEq, Inhabited, Repr

namespace NodeKind

/-- The name of a kind in a tree that is written out. -/
def name : NodeKind → String
  | program => "Program" | statements => "Statements" | error => "Error"
  | integer => "Integer" | float => "Float" | string => "String" | regex => "Regex"
  | symbol => "Symbol" | character => "Character" | words => "Words" | array => "Array"
  | hash => "Hash" | pair => "Pair" | range => "Range" | nil_ => "Nil" | true_ => "True"
  | false_ => "False" | self_ => "SelfNode" | localVariable => "LocalVariable"
  | localTarget => "LocalTarget" | instanceVariable => "InstanceVariable"
  | classVariable => "ClassVariable" | globalVariable => "GlobalVariable"
  | constant => "Constant" | scopedConstant => "ScopedConstant" | call => "Call"
  | arguments => "Arguments" | splat => "Splat" | doubleSplat => "DoubleSplat"
  | blockPass => "BlockPass" | block => "Block" | blockParameters => "BlockParameters"
  | parameters => "Parameters" | parameter => "Parameter" | blockLocal => "BlockLocal"
  | lambda => "Lambda" | assignment => "Assignment" | opAssignment => "OpAssignment"
  | multipleAssignment => "MultipleAssignment" | multiTargets => "MultiTargets"
  | index => "Index" | binary => "Binary" | unary => "Unary" | not_ => "Not" | and_ => "And"
  | or_ => "Or" | defined => "Defined" | ternary => "Ternary" | if_ => "If"
  | unless_ => "Unless" | ifModifier => "IfModifier" | unlessModifier => "UnlessModifier"
  | whileModifier => "WhileModifier" | untilModifier => "UntilModifier"
  | rescueModifier => "RescueModifier" | while_ => "While" | until_ => "Until" | for_ => "For"
  | case_ => "Case" | when_ => "When" | in_ => "In" | else_ => "Else" | begin_ => "Begin"
  | rescueClause => "RescueClause" | ensureClause => "EnsureClause" | methodDef => "MethodDef"
  | classDef => "ClassDef" | moduleDef => "ModuleDef" | singletonClass => "SingletonClass"
  | return_ => "Return" | break_ => "Break" | next_ => "Next" | redo_ => "Redo"
  | retry_ => "Retry" | yield_ => "Yield" | super_ => "Super" | alias_ => "Alias"
  | undef_ => "Undef" | beginBlock => "BeginBlock" | endBlock => "EndBlock"
  | interpolation => "Interpolation" | paren => "Paren"

/-- Whether a node of this kind is a literal. -/
def isLiteral : NodeKind → Bool
  | integer | float | string | regex | symbol | character | words | nil_ | true_ | false_ => true
  | _ => false

/-- Whether a node of this kind is a definition, which opens a scope of its own. -/
def isDefinition : NodeKind → Bool
  | methodDef | classDef | moduleDef | singletonClass => true
  | _ => false

/-- Whether a node of this kind is a statement with a modifier behind it. -/
def isModifier : NodeKind → Bool
  | ifModifier | unlessModifier | whileModifier | untilModifier | rescueModifier => true
  | _ => false

end NodeKind

end RubyCheck
