import RubyCheck.Analysis.Event
import RubyCheck.Analysis.Token

/-!
# Analysis of a program

The events of a program are played over a stack of frames. What the rules for variables find depends on the
frames at that point; it stands in the order in which it is found, the findings of single tokens last.
-/

namespace RubyCheck.Analysis

/-- The open frames and what was found so far. -/
structure State where
  scopes : ScopeStack
  /-- The findings, the latest first. -/
  found : List Finding
deriving Inhabited, Repr

namespace State

/-- The state at the beginning of a program. -/
def initial : State := ⟨.initial, []⟩

/-- The state with something found. -/
def find (s : State) (f : Finding) : State := { s with found := f :: s.found }

/-- The innermost frame is left; its unused variables are found. -/
def leave (s : State) : State :=
  match s.scopes.pop? with
  | some (frame, scopes) => ⟨scopes, frame.unused.reverse ++ s.found⟩
  | none => s

/-- The variable that a block parameter of some name hides is found, and counts as used. -/
def hide (s : State) (name : String) (at_ : Position) : State :=
  match s.scopes.outer? name with
  | some outer =>
    { s with scopes := s.scopes.touchOuter name }.find
      ⟨.shadowedVariable name outer.declaredAt.shownLine, at_⟩
  | none => s

/-- A parameter is bound. -/
def bind (s : State) (name : String) (at_ : Position) (inBlock : Bool) : State :=
  let s := if inBlock then s.hide name at_ else s
  { s with scopes := s.scopes.bindParameter name at_ }

end State

/-- What an exit hook shows that stands in a definition of some kind. -/
def exitHookFinding? (enclosing : FrameKind) (at_ : Position) : Option Finding :=
  if enclosing = .method then some ⟨.endInMethod, at_⟩ else none

/-- One event happens. -/
def State.step (s : State) : Event → State
  | .enter kind => { s with scopes := s.scopes.push kind }
  | .leave => s.leave
  | .use name => { s with scopes := s.scopes.read name }
  | .useForUpdate name => { s with scopes := s.scopes.read name }
  | .write name at_ => { s with scopes := s.scopes.write name at_ }
  | .parameter name at_ inBlock => s.bind name at_ inBlock
  | .blockLocal name at_ => { s with scopes := s.scopes.bindBlockLocal name at_ }
  | .exitHook at_ =>
    ((exitHookFinding? s.scopes.enclosingDefinition at_).map s.find).getD s
  | .found f => s.find f

/-- Some events happen one after another. -/
def State.run (s : State) (es : List Event) : State := es.foldl State.step s

/-- What is found in a tree. -/
def treeFindings (t : SyntaxTree) : List Finding :=
  (State.initial.run (eventsOfProgram t)).found.reverse

/-- What is found in a program, given its tree and its tokens. -/
def findings (t : SyntaxTree) (tokens : List Token) : List Finding :=
  treeFindings t ++ tokenFindings t.errorSpans tokens

end RubyCheck.Analysis
