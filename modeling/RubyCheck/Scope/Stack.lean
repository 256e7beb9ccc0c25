import RubyCheck.Scope.Frame

/-!
# Stacks of frames

The frames that are open at some point of a program. A block sees the frames around it up to and including
the first one that belongs to no block; every other frame sees only itself. The outermost frame is never
left.
-/

namespace RubyCheck

/-- The open frames. -/
structure ScopeStack where
  /-- The innermost frame. -/
  top : Frame
  /-- The frames around it, innermost first. -/
  below : List Frame
deriving DecidableEq, Inhabited, Repr

namespace ScopeStack

/-- The frame of a program alone. -/
def initial : ScopeStack := ⟨.empty .program, []⟩

/-- All frames, innermost first. -/
def frames (s : ScopeStack) : List Frame := s.top :: s.below

/-- How many frames are open. -/
def depth (s : ScopeStack) : Nat := s.frames.length

/-- The stack with a new frame. -/
def push (s : ScopeStack) (kind : FrameKind) : ScopeStack := ⟨.empty kind, s.frames⟩

/-- The innermost frame and the stack without it; none if it is the outermost one. -/
def pop? (s : ScopeStack) : Option (Frame × ScopeStack) :=
  match s.below with
  | [] => none
  | f :: fs => some (s.top, ⟨f, fs⟩)

/-- The kind of the innermost frame that belongs to no block. -/
def enclosingDefinition (s : ScopeStack) : FrameKind :=
  ((s.frames.find? fun f => f.kind != .block).map (·.kind)).getD .program

/-! ### Visible variables -/

/-- The frames among some that are seen from the first of them. -/
def visible : List Frame → List Frame
  | [] => []
  | f :: fs => if f.kind = .block then f :: visible fs else [f]

/-- The variable of a name that is seen from the first of some frames. -/
def find? (name : String) (fs : List Frame) : Option Variable :=
  (visible fs).findSome? (·.get? name)

/-- Some frames with the variable of a name changed that is seen from the first of them; none if there is
none. -/
def change? (name : String) (g : Variable → Variable) : List Frame → Option (List Frame)
  | [] => none
  | f :: fs =>
    if f.has name then some (f.change name g :: fs)
    else if f.kind = .block then (change? name g fs).map (f :: ·)
    else none

/-- The frames around the innermost one that it sees. -/
def around (s : ScopeStack) : List Frame := if s.top.kind = .block then s.below else []

/-- The variable of a name in a frame around the innermost one that it sees. -/
def outer? (s : ScopeStack) (name : String) : Option Variable := find? name s.around

/-- The stack with the variable of a name changed that is seen in a frame around the innermost one. -/
def changeOuter? (s : ScopeStack) (name : String) (g : Variable → Variable) : Option ScopeStack :=
  (change? name g s.around).map fun fs => { s with below := fs }

/-- The stack with the visible variable of a name changed; none if there is none. -/
def changeVisible? (s : ScopeStack) (name : String) (g : Variable → Variable) : Option ScopeStack :=
  if s.top.has name then some { s with top := s.top.change name g } else s.changeOuter? name g

/-- Whether a variable of a name is visible. -/
def sees (s : ScopeStack) (name : String) : Bool := (find? name s.frames).isSome

/-! ### Frames by index -/

/-- The frames below an index that are seen from the last one there, which comes first; nothing if there
is no frame at an index that is looked up. Here the outermost frame comes first, as a machine keeps them,
and what is seen is looked up downwards. -/
def seenBelow? (frames : List Frame) : Nat → Option (List Frame)
  | 0 => some []
  | i + 1 => do
    let f ← frames[i]?
    if f.kind = .block then return f :: (← seenBelow? frames i) else return [f]

/-- The frames that are seen from the innermost one. -/
def seen? (s : ScopeStack) : Option (List Frame) := seenBelow? s.frames.reverse s.depth

/-! ### Uses -/

/-- The stack with a variable added to the innermost frame. -/
def add (s : ScopeStack) (name : String) (v : Variable) : ScopeStack :=
  { s with top := s.top.add name v }

/-- An assignment: it writes the visible variable of the name, or declares one in the innermost frame. -/
def write (s : ScopeStack) (name : String) (at_ : Position) : ScopeStack :=
  (s.changeVisible? name .write).getD (s.add name (.assigned at_))

/-- A use of a variable, if one of the name is visible. -/
def read (s : ScopeStack) (name : String) : ScopeStack := (s.changeVisible? name .read).getD s

/-- A parameter of the innermost frame. -/
def bindParameter (s : ScopeStack) (name : String) (at_ : Position) : ScopeStack :=
  s.add name (.bound at_)

/-- A variable of a block, declared without a value. -/
def bindBlockLocal (s : ScopeStack) (name : String) (at_ : Position) : ScopeStack :=
  s.add name (.blockLocal at_)

/-- A use of a variable in a frame around the innermost one, if it sees one of the name. -/
def touchOuter (s : ScopeStack) (name : String) : ScopeStack := (s.changeOuter? name .read).getD s

/-! ### Operations -/

/-- What can be done with the open frames. -/
inductive Operation where
  /-- A frame is entered. -/
  | push (kind : FrameKind)
  /-- The innermost frame is left, unless it is the outermost one. -/
  | pop
  | write (name : String) (at_ : Position)
  | read (name : String)
  | bindParameter (name : String) (at_ : Position)
  | bindBlockLocal (name : String) (at_ : Position)
  /-- A variable in a frame around the innermost one is looked up. -/
  | outer (name : String)
  | touchOuter (name : String)
deriving DecidableEq, Inhabited, Repr

/-- The frames after an operation. -/
def after (s : ScopeStack) : Operation → ScopeStack
  | .push kind => s.push kind
  | .pop => (s.pop?.map Prod.snd).getD s
  | .write name at_ => s.write name at_
  | .read name => s.read name
  | .bindParameter name at_ => s.bindParameter name at_
  | .bindBlockLocal name at_ => s.bindBlockLocal name at_
  | .outer _ => s
  | .touchOuter name => s.touchOuter name

/-- The frames after some operations, one after another. -/
def run (s : ScopeStack) (ops : List Operation) : ScopeStack := ops.foldl after s

end ScopeStack

end RubyCheck
