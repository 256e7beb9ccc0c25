import RubyCheck.Limits
import RubyCheck.Token.Tape
import RubyCheck.Tree.Basic

/-!
# Reading with recovery

A production reads tokens from a tape and gives a result, or fails with a fault that the nearest list of
statements reports. What it keeps besides the tape is the faults reported so far, how deep constructs are
nested, whether a `do` belongs to a construct around, and the local variables of each scope around. Only
the tape, the faults and the names in the innermost scopes outlive a production; `nested`, `allowingDo`,
`withholdingDo` and `inScope` put the rest back, also behind a failure.
-/

namespace RubyCheck.Grammar

/-- The local variables of one scope. -/
structure LocalScope where
  names : List String
  /-- The scope of a definition: variables of the scopes around are not seen. -/
  closed : Bool
deriving DecidableEq, Inhabited, Repr

/-- What reading keeps. -/
structure State where
  tape : Tape
  /-- The faults reported so far, in the order they were found. -/
  faults : Array Fault
  limits : Limits
  /-- How many constructs are open around. -/
  depth : Nat
  /-- While positive, a `do` belongs to a construct around. -/
  doWithheld : Nat
  /-- The scopes around, innermost first. -/
  scopes : List LocalScope
deriving Inhabited

/-- Why a production gives no result. -/
inductive Failure where
  /-- The tokens are faulty. -/
  | fault (f : Fault)
  /-- The rounds it was given did not suffice; nothing recovers from that. -/
  | exhausted
deriving DecidableEq, Inhabited, Repr

/-- Reading that gives a result of some type. -/
abbrev Parser : Type → Type := EStateM Failure State

namespace State

/-- The state before the first of some tokens. -/
def ofTokens (limits : Limits) (tokens : List Token) : State where
  tape := .ofTokens tokens
  faults := #[]
  limits := limits
  depth := 0
  doWithheld := 0
  scopes := []

/-- Whether as many faults were reported as may be. -/
def gaveUp (s : State) : Bool := s.limits.maxFaults ≤ s.faults.size

/-- Reports a fault. The last one that may be reported ends reading: every other token is passed over. -/
def report (s : State) (f : Fault) : State :=
  if s.gaveUp then s
  else
    let s := { s with faults := s.faults.push f }
    if s.gaveUp then { s with tape := s.tape.toLast } else s

/-- The fault of the current token where something else was expected. -/
def unexpected (s : State) (expected : String) : Fault :=
  if s.tape.atEnd then ⟨.unexpectedEnd expected, .point s.tape.previous.span.stop⟩
  else ⟨.unexpectedToken s.tape.current.describe expected, s.tape.current.span⟩

/-- The span from a position up to the end of the token that was consumed last. -/
def spanFrom (s : State) (start : Position) : Span :=
  ⟨start, s.tape.previous.span.stop.later start⟩

/-- Makes a name a local variable of the innermost scope. -/
def declare (s : State) (name : String) : State :=
  match s.scopes with
  | [] => s
  | scope :: outer =>
    if scope.names.contains name then s
    else { s with scopes := { scope with names := name :: scope.names } :: outer }

/-- Whether a name is a local variable in the innermost of some scopes, looking outwards up to the first
closed scope. -/
def visibleIn (name : String) : List LocalScope → Bool
  | [] => false
  | scope :: outer => scope.names.contains name || (!scope.closed && visibleIn name outer)

/-- Whether a name is a local variable here. -/
def isLocal (s : State) (name : String) : Bool := visibleIn name s.scopes

/-- The node that stands for tokens given up, from `first` up to the current one. Whatever is given up
contains its first token, unless that is the end of the text. -/
def errorNode (s : State) (first : Token) : Node :=
  .inner .error
    (if first.isEof then .point first.span.start else s.spanFrom first.span.start) []

end State

/-! ### Tokens -/

/-- Something about the state. -/
def view {α : Type} (f : State → α) : Parser α := do return f (← get)

/-- The current token. -/
def current : Parser Token := view (·.tape.current)

/-- The kind of the current token. -/
def kind : Parser TokenKind := view (·.tape.kind)

/-- Whether the current token is of a kind. -/
def check (k : TokenKind) : Parser Bool := view (·.tape.kind == k)

/-- Whether no token is left. -/
def atEnd : Parser Bool := view (·.tape.atEnd)

/-- Where the current token begins. -/
def here : Parser Position := view (·.tape.current.span.start)

/-- Changes where reading stands. -/
def move (f : Tape → Tape) : Parser Unit := modify fun s => { s with tape := f s.tape }

/-- Consumes the current token. -/
def advance : Parser Token := do
  move Tape.advance
  view (·.tape.previous)

/-- Consumes the current token and forgets it. -/
def drop : Parser Unit := move Tape.advance

/-- Consumes the current token if it is of a kind, and says whether it was. -/
def accept (k : TokenKind) : Parser Bool := do
  let found ← check k
  if found then drop
  return found

/-- Passes over line breaks. -/
def skipBreaks : Parser Unit := move (Tape.passOver (· == .newline))

/-- Passes over line breaks and semicolons. -/
def skipTerminators : Parser Unit := move (Tape.passOver Tape.endsStatement)

/-! ### Faults -/

/-- Reports a fault and goes on. -/
def report (f : Fault) : Parser Unit := modify (·.report f)

/-- Reports that the current token stands where something else was expected. -/
def reportUnexpected (expected : String) : Parser Unit := modify fun s => s.report (s.unexpected expected)

/-- Fails with a fault. -/
def fail {α : Type} (f : Fault) : Parser α := throw (.fault f)

/-- Fails because something else was expected. -/
def refuse {α : Type} (expected : String) : Parser α := do
  fail (← view (·.unexpected expected))

/-- The fault of a construct whose closer never came. -/
def unclosed (opener : Token) (closer : TokenKind) (atEnd : Bool) : Fault :=
  ⟨.unclosed opener.text closer.display atEnd, opener.span⟩

/-- Consumes a token that has to be of a kind. -/
def expect (k : TokenKind) : Parser Token := do
  if ← check k then advance else refuse k.display

/-- Consumes the token that closes a construct. -/
def expectCloser (opener : Token) (closer : TokenKind) : Parser Unit := do
  if ← atEnd then fail (unclosed opener closer true)
  discard <| expect closer

/-- The result of a production, or the fault that it fails with. -/
def attempt {α : Type} (p : Parser α) : Parser (Except Fault α) := fun s =>
  match p s with
  | .ok a s => .ok (.ok a) s
  | .error (.fault f) s => .ok (.error f) s
  | .error .exhausted s => .error .exhausted s

/-! ### Nodes -/

/-- A node from a position up to the token that was consumed last. -/
def finish (k : NodeKind) (start : Position) (children : List Node) : Parser Node :=
  view fun s => .inner k (s.spanFrom start) children

/-- A node with a text from a position up to the token that was consumed last. -/
def finishNamed (k : NodeKind) (start : Position) (text : String) (children : List Node) :
    Parser Node := do
  return (← finish k start children).withText text

/-- A leaf for the token that was consumed last. -/
def leaf (k : NodeKind) (text : String) : Parser Node :=
  view fun s => .leaf k s.tape.previous.span text

/-- Consumes the current token as a leaf. -/
def takeLeaf (k : NodeKind) : Parser Node := do
  leaf k (← advance).text

/-- Consumes the current token as a leaf with a text of its own. -/
def takeAs (k : NodeKind) (text : String) : Parser Node := do
  drop
  leaf k text

/-! ### Context -/

/-- Reads in a changed context that is changed back behind success and failure. -/
def around {α : Type} (enter leave : State → State) (p : Parser α) : Parser α := fun s =>
  match p (enter s) with
  | .ok a s => .ok a (leave s)
  | .error e s => .error e (leave s)

/-- Reads one level deeper, unless that is past the limit. -/
def nested {α : Type} (p : Parser α) : Parser α := fun s =>
  if s.depth < s.limits.maxDepth then
    around (fun s => { s with depth := s.depth + 1 }) (fun s => { s with depth := s.depth - 1 }) p s
  else .error (.fault ⟨.nestingTooDeep s.limits.maxDepth, s.tape.current.span⟩) s

/-- Reads between brackets, where a `do` begins a block again. -/
def allowingDo {α : Type} (p : Parser α) : Parser α := fun s =>
  around (fun s => { s with doWithheld := 0 }) ({ · with doWithheld := s.doWithheld }) p s

/-- Reads where a `do` belongs to the construct around. -/
def withholdingDo {α : Type} (p : Parser α) : Parser α :=
  around (fun s => { s with doWithheld := s.doWithheld + 1 })
    (fun s => { s with doWithheld := s.doWithheld - 1 }) p

/-- Reads in a scope of its own. -/
def inScope {α : Type} (closed : Bool) (p : Parser α) : Parser α :=
  around (fun s => { s with scopes := ⟨[], closed⟩ :: s.scopes })
    (fun s => { s with scopes := s.scopes.tail }) p

/-- Makes a name a local variable. -/
def declare (name : String) : Parser Unit := modify (·.declare name)

end RubyCheck.Grammar
