import RubyCheck.Finding

/-!
# Frames

A frame holds the local variables of one scope: where each was declared, how often it was read and written,
and whether it is a parameter.
-/

namespace RubyCheck

/-- What opened a frame. -/
inductive FrameKind where
  /-- The program itself. -/
  | program
  /-- The body of a method. -/
  | method
  /-- The body of a class or module. -/
  | class_
  /-- A block, an anonymous function or a hook. -/
  | block
deriving DecidableEq, Inhabited, Repr

/-- What is known of a local variable. -/
structure Variable where
  /-- Where the name appeared first in its frame. -/
  declaredAt : Position
  reads : Nat
  writes : Nat
  /-- It is bound by a caller, not by an assignment. -/
  parameter : Bool
deriving DecidableEq, Inhabited, Repr

namespace Variable

/-- A variable that an assignment declares. -/
def assigned (at_ : Position) : Variable := ⟨at_, 0, 1, false⟩

/-- A variable that is declared without a value. -/
def blockLocal (at_ : Position) : Variable := ⟨at_, 0, 0, false⟩

/-- A variable that a caller binds. -/
def bound (at_ : Position) : Variable := ⟨at_, 0, 0, true⟩

/-- The variable after one more reading. -/
def read (v : Variable) : Variable := { v with reads := v.reads + 1 }

/-- The variable after one more writing. -/
def write (v : Variable) : Variable := { v with writes := v.writes + 1 }

/-- Whether a variable was written and never read. -/
def isUnused (v : Variable) : Bool := !v.parameter && 0 < v.writes && v.reads == 0

end Variable

/-- The local variables of one scope. -/
structure Frame where
  kind : FrameKind
  /-- The variables by name, the latest first. -/
  entries : List (String × Variable)
deriving DecidableEq, Inhabited, Repr

namespace Frame

/-- A frame without variables. -/
def empty (kind : FrameKind) : Frame := ⟨kind, []⟩

/-- The variable of a name. -/
def get? (f : Frame) (name : String) : Option Variable := f.entries.lookup name

/-- Whether a frame has a variable of a name. -/
def has (f : Frame) (name : String) : Bool := (f.get? name).isSome

/-- The frame with the variable of a name changed. -/
def change (f : Frame) (name : String) (g : Variable → Variable) : Frame :=
  { f with entries := f.entries.map fun p => if p.1 == name then (p.1, g p.2) else p }

/-- The frame with a variable added. A name that the frame has already keeps its variable. -/
def add (f : Frame) (name : String) (v : Variable) : Frame :=
  if f.has name then f else { f with entries := (name, v) :: f.entries }

/-- Whether one variable is listed before another: by the place it was declared, then by name. -/
def listedBefore (p q : String × Variable) : Bool :=
  p.2.declaredAt.byte < q.2.declaredAt.byte ||
    (p.2.declaredAt.byte == q.2.declaredAt.byte && !decide (q.1 < p.1))

/-- The variables in the order of their declarations. -/
def listed (f : Frame) : List (String × Variable) := f.entries.mergeSort listedBefore

/-- Whether a name says that its variable may stay unused. -/
def mayStayUnused (name : String) : Bool := name.toList.head? == some '_'

/-- The variables that were assigned and never read. At the top level a variable may be meant for another
file, so nothing is found there. -/
def unused (f : Frame) : List Finding :=
  if f.kind = .program then []
  else
    (f.listed.filter fun p => p.2.isUnused && !mayStayUnused p.1).map fun p =>
      ⟨.unusedVariable p.1, p.2.declaredAt⟩

end Frame

end RubyCheck
