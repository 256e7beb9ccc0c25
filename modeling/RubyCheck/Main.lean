import RubyCheck.Cli

/-!
# The command

Reads the input that the arguments ask for and prints the outcome.
-/

namespace RubyCheck.Cli

/-- The bytes of a file, if it can be read. -/
def bytesOfFile (name : String) : IO (Option (List UInt8)) := do
  try
    return some (← IO.FS.readBinFile name).toList
  catch _ => return none

/-- The bytes of standard input, if they can be read. -/
def bytesOfStdin : IO (Option (List UInt8)) := do
  try
    return some (← (← IO.getStdin).readBinToEnd).toList
  catch _ => return none

/-- The bytes that a request is about. -/
def Request.bytes (r : Request) : IO (Option (List UInt8)) :=
  match r.file with
  | some name => bytesOfFile name
  | none => bytesOfStdin

/-- How the command is used. -/
def usage : String :=
  "Report syntax errors and style warnings in Ruby source\n\n" ++
    "Usage: ruby-lint [--dump] [--json] [-v]... [FILE]\n"

/-- Prints an outcome and ends with its code. -/
def Outcome.finish (o : Outcome) : IO UInt32 := do
  let out ← IO.getStdout
  out.putStr o.stdout
  out.flush
  return o.code.toUInt32

/-- Runs the command. -/
def command (args : List String) : IO UInt32 := do
  match plan args with
  | .refuse =>
    IO.eprintln usage
    return 2
  | .help =>
    IO.println usage
    return 0
  | .check r => (r.outcome (← r.bytes)).finish

end RubyCheck.Cli

/-- The command. -/
def main (args : List String) : IO UInt32 := RubyCheck.Cli.command args
