import RubyCheck.Host

/-!
# The command line

The command takes one file, or else standard input, and prints the report of it as text or encoded. What the
arguments ask for is decided without any input or output; `outcome` says what is printed and how the command
ends.
-/

namespace RubyCheck.Cli

/-- What the arguments ask for. -/
structure Request where
  /-- The file to check; standard input if there is none. -/
  file : Option String
  dump : Bool
  json : Bool
  /-- How much is logged. -/
  verbosity : Nat
deriving DecidableEq, Inhabited, Repr

/-- A request without arguments. -/
def Request.plain : Request := ⟨none, false, false, 0⟩

/-- What reading the arguments comes to. -/
inductive Plan where
  | check (r : Request)
  | help
  /-- The arguments are refused. -/
  | refuse
deriving DecidableEq, Inhabited, Repr

/-- Takes a file to check. Only one can be given, and it has a name. -/
def takeFile (r : Request) (name : String) : Option Request :=
  if name.isEmpty || r.file.isSome then none else some { r with file := some name }

/-- Takes arguments none of which is an option. -/
def takeFiles (r : Request) : List String → Plan
  | [] => .check r
  | name :: names =>
    match takeFile r name with
    | some r => takeFiles r names
    | none => .refuse

/-- Takes options of one letter; whether help was asked for comes with the request. -/
def takeLetters (r : Request) : List Char → Option (Request × Bool)
  | [] => some (r, false)
  | 'v' :: cs => takeLetters { r with verbosity := r.verbosity + 1 } cs
  | 'h' :: _ => some (r, true)
  | _ => none

/-- Reads arguments from left to right. Behind `--` none is an option, and a dash alone is a file. The dump
and the encoding can be asked for once each. -/
def planFrom (r : Request) : List String → Plan
  | [] => .check r
  | "--" :: names => takeFiles r names
  | "--help" :: _ => .help
  | "--dump" :: args => if r.dump then .refuse else planFrom { r with dump := true } args
  | "--json" :: args => if r.json then .refuse else planFrom { r with json := true } args
  | "--verbose" :: args => planFrom { r with verbosity := r.verbosity + 1 } args
  | arg :: args =>
    match arg.toList with
    | '-' :: '-' :: _ => .refuse
    | '-' :: c :: cs =>
      match takeLetters r (c :: cs) with
      | some (r, false) => planFrom r args
      | some (_, true) => .help
      | none => .refuse
    | _ =>
      match takeFile r arg with
      | some r => planFrom r args
      | none => .refuse

/-- What the arguments of a command ask for. -/
def plan (args : List String) : Plan := planFrom .plain args

/-- How a command ends and what it prints. -/
structure Outcome where
  code : Nat
  stdout : String
deriving DecidableEq, Inhabited, Repr

/-- What is printed of a report. -/
def printed (r : Request) (report : Report) : String :=
  if r.json then (ReportLines.ofReport report).encode ++ "\n" else report.text

/-- The outcome of a request whose input has these bytes; there may be no such file. -/
def Request.outcome (r : Request) (bytes : Option (List UInt8)) : Outcome :=
  match bytes.map fun bs => checkBytes bs r.dump with
  | some (.ok report) => ⟨0, printed r report⟩
  | _ => ⟨1, ""⟩

/-- The outcome of a command, given the bytes of files and of standard input. -/
def run (args : List String) (readFile : String → Option (List UInt8)) (stdin : List UInt8) :
    Outcome :=
  match plan args with
  | .refuse => ⟨2, ""⟩
  | .help => ⟨0, ""⟩
  | .check r =>
    r.outcome <| match r.file with
      | some name => readFile name
      | none => some stdin

end RubyCheck.Cli
