import RubyCheck.Grammar.State
import RubyCheck.Number.Bounded

/-!
# Reading into an arena

The grammar once more, as a machine runs it: tokens stand in an array and are looked up by index, nodes lie
in an arena and name their children by id, and what may go wrong in such a look-up is written down. An index
that does not exist and a difference that would be negative end everything with `outOfRange`; no production
does anything about that.

Where `Grammar` hands on trees, the productions here hand on ids, and where it builds a node anew they change
the one in the arena. A statement that fails is taken out of the arena again. An id has a width in the
memory of a machine: a node beyond the greatest id gets that one.
-/

namespace RubyCheck.Arena

open Grammar (LocalScope State)
open Number (minus?)

/-- Names a node in an arena. -/
abbrev NodeId : Type := Nat

/-- The id of the node at an index, if there is a greatest id. -/
def idAt : Option Nat → Nat → NodeId
  | none, i => i
  | some greatest, i => min i greatest

/-- A node in an arena. -/
structure Cell where
  kind : NodeKind
  span : Span
  text : Option String
  children : List NodeId
deriving Inhabited, Repr

/-- What reading keeps. -/
structure Machine where
  tokens : List Token
  /-- The index of the current token. -/
  current : Nat
  nodes : Array Cell
  /-- The greatest id, if ids have a width. -/
  greatestId : Option Nat
  /-- The faults reported so far, in the order they were found. -/
  faults : Array Fault
  limits : Limits
  /-- How many constructs are open around. -/
  depth : Nat
  /-- While positive, a `do` belongs to a construct around. -/
  doWithheld : Nat
  /-- The scopes around, innermost first. -/
  scopes : List LocalScope
  /-- As many faults were reported as may be. -/
  gaveUp : Bool
deriving Inhabited

/-- Why a production gives no result. -/
inductive Stop where
  /-- The tokens are faulty. -/
  | fault (f : Fault)
  /-- The rounds it was given did not suffice. -/
  | exhausted
  /-- Something was looked up that does not exist. -/
  | outOfRange
deriving DecidableEq, Inhabited, Repr

/-- Reading that gives a result of some type. -/
abbrev Parser : Type → Type := EStateM Stop Machine

namespace Machine

/-- The machine in front of the first of some tokens. A missing end of the text is supplied. -/
def ofTokens (greatestId : Option Nat) (limits : Limits) (tokens : List Token) : Machine where
  tokens :=
    match tokens.getLast? with
    | some last => if last.isEof then tokens else tokens ++ [.empty .eof last.span.stop]
    | none => [.empty .eof .origin]
  current := 0
  nodes := #[]
  greatestId := greatestId
  faults := #[]
  limits := limits
  depth := 0
  doWithheld := 0
  scopes := []
  gaveUp := false

/-- What a production of the grammar sees of a machine. -/
def state (m : Machine) : State where
  tape :=
    { consumed := (m.tokens.take m.current).getLast?
      current := m.tokens.getD m.current default
      ahead := m.tokens.drop (m.current + 1) }
  faults := m.faults
  limits := m.limits
  depth := m.depth
  doWithheld := m.doWithheld
  scopes := m.scopes

end Machine

/-! ### What may be out of range -/

/-- What was looked up. -/
def inRange {α : Type} : Option α → Parser α
  | some a => pure a
  | none => throw .outOfRange

/-- The token at an index. -/
def tokenAt (i : Nat) : Parser Token := do inRange (← get).tokens[i]?

/-- The index of the last token. -/
def lastIndex : Parser Nat := do inRange (minus? (← get).tokens.length 1)

/-- The node of an id. -/
def node (id : NodeId) : Parser Cell := do inRange (← get).nodes[id]?

/-- Changes the node of an id. -/
def change (id : NodeId) (f : Cell → Cell) : Parser Unit := do
  discard <| node id
  modify fun m => { m with nodes := m.nodes.modify id f }

/-! ### Tokens -/

/-- The index of the current token. -/
def index : Parser Nat := return (← get).current

/-- The token some places ahead; the last token follows itself. -/
def peek (offset : Nat) : Parser Token := do
  let last ← lastIndex
  tokenAt (min ((← index) + offset) last)

/-- The current token. -/
def current : Parser Token := peek 0

/-- The token that was consumed last, or the first one if none was. -/
def previous : Parser Token := do tokenAt ((← index) - 1)

/-- The kind of the current token. -/
def kind : Parser TokenKind := return (← current).kind

/-- Whether the current token is of a kind. -/
def check (k : TokenKind) : Parser Bool := return (← kind) == k

/-- Whether no token is left. -/
def atEnd : Parser Bool := return (← current).isEof

/-- Where the current token begins. -/
def here : Parser Position := return (← current).span.start

/-- Consumes the current token and forgets it. -/
def drop : Parser Unit := do
  unless ← atEnd do modify fun m => { m with current := m.current + 1 }

/-- Consumes the current token. -/
def advance : Parser Token := do
  drop
  previous

/-- Consumes the current token if it is of a kind, and says whether it was. -/
def accept (k : TokenKind) : Parser Bool := do
  let found ← check k
  if found then drop
  return found

/-- Passes over tokens as long as their kinds satisfy a condition. -/
def passOver (p : TokenKind → Bool) : Nat → Parser Unit
  | 0 => throw .exhausted
  | rounds + 1 => do
    if p (← kind) then
      drop
      passOver p rounds

/-- Enough rounds to go over all tokens. -/
def lookRounds : Parser Nat := return (← get).tokens.length + 1

/-- Passes over line breaks. -/
def skipBreaks : Parser Unit := do passOver (· == .newline) (← lookRounds)

/-- Passes over line breaks and semicolons. -/
def skipTerminators : Parser Unit := do passOver Tape.endsStatement (← lookRounds)

/-- The kind of the first token that is no line break, some places ahead and on. -/
def kindBehindBreaksFrom (offset : Nat) : Nat → Parser TokenKind
  | 0 => throw .exhausted
  | rounds + 1 => do
    let t ← peek offset
    if t.kind == .newline then kindBehindBreaksFrom (offset + 1) rounds else return t.kind

/-- The kind of the first token that is no line break, from the current one on. -/
def kindBehindBreaks : Parser TokenKind := do kindBehindBreaksFrom 0 (← lookRounds)

/-- Skips the rest of a faulty statement whose skipping began at the token `first`. -/
def synchronizeFrom (first : Nat) (depth : Nat) : Nat → Parser Unit
  | 0 => throw .exhausted
  | rounds + 1 => do
    let t ← current
    if t.isEof || (depth == 0 && first < (← index) && Tape.beginsDefinition t.kind) then return ()
    else if depth == 0 && Tape.endsStatement t.kind then drop
    else
      drop
      synchronizeFrom first (Tape.bracketDepth depth t.kind) rounds

/-- Skips the rest of a faulty statement. -/
def synchronize : Parser Unit := do synchronizeFrom (← index) 0 (← lookRounds)

/-! ### Faults -/

/-- Reports a fault and goes on. The last one that may be reported ends reading: every other token is passed
over. -/
def report (f : Fault) : Parser Unit := do
  let m ← get
  unless m.gaveUp do
    let faults := m.faults.push f
    if m.limits.maxFaults ≤ faults.size then
      let last ← lastIndex
      set { m with faults := faults, gaveUp := true, current := last }
    else set { m with faults := faults }

/-- The fault of the current token where something else was expected. -/
def unexpected (expected : String) : Parser Fault := do
  let t ← current
  if t.isEof then return ⟨.unexpectedEnd expected, .point (← previous).span.stop⟩
  else return ⟨.unexpectedToken t.describe expected, t.span⟩

/-- Reports that the current token stands where something else was expected. -/
def reportUnexpected (expected : String) : Parser Unit := do report (← unexpected expected)

/-- Fails with a fault. -/
def fail {α : Type} (f : Fault) : Parser α := throw (.fault f)

/-- Fails because something else was expected. -/
def refuse {α : Type} (expected : String) : Parser α := do fail (← unexpected expected)

/-- Consumes a token that has to be of a kind. -/
def expect (k : TokenKind) : Parser Token := do
  if ← check k then advance else refuse k.display

/-- Consumes the token that closes a construct. -/
def expectCloser (opener : Token) (closer : TokenKind) : Parser Unit := do
  if ← atEnd then fail (Grammar.unclosed opener closer true)
  discard <| expect closer

/-- The result of a production, or the fault that it fails with. -/
def attempt {α : Type} (p : Parser α) : Parser (Except Fault α) := fun m =>
  match p m with
  | .ok a m => .ok (.ok a) m
  | .error (.fault f) m => .ok (.error f) m
  | .error e m => .error e m

/-! ### Nodes -/

/-- A new node. -/
def add (c : Cell) : Parser NodeId := do
  let m ← get
  set { m with nodes := m.nodes.push c }
  return idAt m.greatestId m.nodes.size

/-- The span from a position up to the end of the token that was consumed last. -/
def spanFrom (start : Position) : Parser Span :=
  return ⟨start, (← previous).span.stop.later start⟩

/-- A node from a position up to the token that was consumed last. -/
def finish (k : NodeKind) (start : Position) (children : List NodeId) : Parser NodeId := do
  add ⟨k, ← spanFrom start, none, children⟩

/-- A node with a text from a position up to the token that was consumed last. -/
def finishNamed (k : NodeKind) (start : Position) (text : String) (children : List NodeId) :
    Parser NodeId := do
  let id ← finish k start children
  change id fun c => { c with text := some text }
  return id

/-- A leaf for the token that was consumed last. -/
def leaf (k : NodeKind) (text : String) : Parser NodeId := do
  add ⟨k, (← previous).span, some text, []⟩

/-- Consumes the current token as a leaf. -/
def takeLeaf (k : NodeKind) : Parser NodeId := do
  leaf k (← advance).text

/-- Consumes the current token as a leaf with a text of its own. -/
def takeAs (k : NodeKind) (text : String) : Parser NodeId := do
  drop
  leaf k text

/-- How many nodes there are. -/
def mark : Parser Nat := return (← get).nodes.size

/-- Takes the nodes out again that came behind a mark. -/
def truncate (mark : Nat) : Parser Unit := modify fun m => { m with nodes := m.nodes.take mark }

/-- The node that stands for tokens given up, from the index `first` up to the current one. -/
def errorNode (first : Nat) : Parser NodeId := do
  let start := (← tokenAt (min first (← lastIndex))).span.start
  let span ← if first < (← index) then spanFrom start else pure (.point start)
  add ⟨.error, span, none, []⟩

/-! ### Context -/

/-- Reads in a changed context that is changed back behind success and failure. -/
def around {α : Type} (enter : Machine → Machine) (leave : Machine → Option Machine) (p : Parser α) :
    Parser α := fun m =>
  match p (enter m) with
  | .ok a m =>
    match leave m with
    | some m => .ok a m
    | none => .error .outOfRange m
  | .error (.fault f) m =>
    match leave m with
    | some m => .error (.fault f) m
    | none => .error .outOfRange m
  | .error e m => .error e m

/-- Reads one level deeper, unless that is past the limit. -/
def nested {α : Type} (p : Parser α) : Parser α := do
  let m ← get
  if m.depth < m.limits.maxDepth then
    around (fun m => { m with depth := m.depth + 1 })
      (fun m => (minus? m.depth 1).map fun depth => { m with depth := depth }) p
  else fail ⟨.nestingTooDeep m.limits.maxDepth, (← current).span⟩

/-- Reads between brackets, where a `do` begins a block again. -/
def allowingDo {α : Type} (p : Parser α) : Parser α := do
  let m ← get
  around ({ · with doWithheld := 0 }) (some { · with doWithheld := m.doWithheld }) p

/-- Reads where a `do` belongs to the construct around. -/
def withholdingDo {α : Type} (p : Parser α) : Parser α :=
  around (fun m => { m with doWithheld := m.doWithheld + 1 })
    (fun m => (minus? m.doWithheld 1).map fun n => { m with doWithheld := n }) p

/-- Reads in a scope of its own. -/
def inScope {α : Type} (closed : Bool) (p : Parser α) : Parser α :=
  around (fun m => { m with scopes := ⟨[], closed⟩ :: m.scopes })
    (fun m => some { m with scopes := m.scopes.tail }) p

/-- Makes a name a local variable. -/
def declare (name : String) : Parser Unit :=
  modify fun m => { m with scopes := (m.state.declare name).scopes }

/-- Whether a name is a local variable here. -/
def isLocal (name : String) : Parser Bool := return (← get).state.isLocal name

/-- Whether a `do` begins a block here. -/
def doAllowed : Parser Bool := return (← get).doWithheld == 0

end RubyCheck.Arena
