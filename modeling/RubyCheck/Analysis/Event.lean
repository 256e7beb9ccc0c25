import RubyCheck.Analysis.Duplicate
import RubyCheck.Scope.Stack

/-!
# Events of a walk

What happens to the variables of a program, in the order of a walk over its tree: frames are entered and left,
variables are bound, written and used. Findings that need no frame are events as well. A region that was given
up has no children, so nothing in it happens.
-/

namespace RubyCheck.Analysis

/-- Something that happens during the walk. -/
inductive Event where
  | enter (kind : FrameKind)
  | leave
  /-- A variable is used. -/
  | use (name : String)
  /-- A variable is used by an assignment with an operator, which may also declare it. -/
  | useForUpdate (name : String)
  | write (name : String) (at_ : Position)
  | parameter (name : String) (at_ : Position) (inBlock : Bool)
  | blockLocal (name : String) (at_ : Position)
  /-- An exit hook stands here. -/
  | exitHook (at_ : Position)
  | found (finding : Finding)
deriving DecidableEq, Inhabited, Repr

/-- How a node is come upon. -/
inductive Role where
  /-- As a statement or a part of one. -/
  | plain
  /-- Among parameters, which may be those of a block. -/
  | parameter (inBlock : Bool)
deriving DecidableEq, Inhabited, Repr

/-- A variable that stands as a statement though another one follows. -/
def voidStatement (n : Node) : List Event :=
  if n.kind = .localVariable then [.found ⟨.voidValue n.name, n.span.start⟩] else []

/-- The use of a variable that an assignment with an operator updates. -/
def updatedVariable : List Node → List Event
  | target :: _ => if target.kind = .localTarget then [.useForUpdate target.name] else []
  | [] => []

/-- The parameter of a name, unless it has none. -/
def namedParameter (name : String) (at_ : Position) (inBlock : Bool) : List Event :=
  if name == "" || name == "..." then [] else [.parameter name at_ inBlock]

mutual

/-- The events of a tree, in front of the events behind it. -/
def events (role : Role) : Node → List Event → List Event
  | ⟨kind, span, text, children⟩, rest =>
    match role, kind with
    | .parameter inBlock, .multiTargets => eventsOfEach (.parameter inBlock) children rest
    | .parameter inBlock, .parameter =>
      eventsOfEach .plain children
        (namedParameter (text.getD "") span.start inBlock ++ rest)
    | .parameter _, .blockLocal => .blockLocal (text.getD "") span.start :: rest
    | _, .error => rest
    | _, .statements => eventsOfStatements children rest
    | _, .localVariable => .use (text.getD "") :: rest
    | _, .localTarget => .write (text.getD "") span.start :: rest
    | _, .opAssignment => updatedVariable children ++ eventsOfEach .plain children rest
    | _, .case_ =>
      (repeatedValues ⟨.case_, span, text, children⟩).map .found ++
        eventsOfEach .plain children rest
    | _, .methodDef => .enter .method :: eventsOfEach .plain children (.leave :: rest)
    | _, .moduleDef => .enter .class_ :: eventsOfEach .plain children (.leave :: rest)
    | _, .classDef => eventsOfClass children rest
    | _, .singletonClass => eventsOfClass children rest
    | _, .block => .enter .block :: eventsOfEach .plain children (.leave :: rest)
    | _, .lambda => .enter .block :: eventsOfEach .plain children (.leave :: rest)
    | _, .beginBlock => .enter .block :: eventsOfEach .plain children (.leave :: rest)
    | _, .endBlock =>
      .exitHook span.start :: .enter .block :: eventsOfEach .plain children (.leave :: rest)
    | _, .parameters => eventsOfEach (.parameter false) children rest
    | _, .blockParameters => eventsOfEach (.parameter true) children rest
    | _, _ => eventsOfEach .plain children rest

/-- The events of several trees, in front of the events behind them. -/
def eventsOfEach (role : Role) : List Node → List Event → List Event
  | [], rest => rest
  | n :: ns, rest => events role n (eventsOfEach role ns rest)

/-- The events of statements, in front of the events behind them. -/
def eventsOfStatements : List Node → List Event → List Event
  | [], rest => rest
  | [n], rest => events .plain n rest
  | n :: m :: ns, rest =>
    voidStatement n ++ events .plain n (eventsOfStatements (m :: ns) rest)

/-- The events of a class: what it inherits from, or whose class it is, stands outside its frame. -/
def eventsOfClass : List Node → List Event → List Event
  | [], rest => .enter .class_ :: .leave :: rest
  | n :: ns, rest =>
    if n.kind = .statements then
      .enter .class_ :: events .plain n (eventsOfEach .plain ns (.leave :: rest))
    else events .plain n (.enter .class_ :: eventsOfEach .plain ns (.leave :: rest))

end

/-- The events of a program. -/
def eventsOfProgram (t : SyntaxTree) : List Event := eventsOfStatements t.root.children []

end RubyCheck.Analysis
