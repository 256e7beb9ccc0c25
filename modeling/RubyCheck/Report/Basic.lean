import RubyCheck.Diagnostic

/-!
# Reports

The errors and warnings of one text in the order of their places, and the tree written out if it was asked
for.
-/

namespace RubyCheck

/-- What a check of one text came to. -/
structure Report where
  errors : List Diagnostic
  warnings : List Diagnostic
  /-- The tree written out. -/
  treeDump : Option String
deriving DecidableEq, Inhabited, Repr

namespace Report

/-- Diagnostics in the order of their places; those of one place and kind keep theirs. -/
def sorted (ds : List Diagnostic) : List Diagnostic := ds.mergeSort Diagnostic.before

/-- A report of diagnostics in any order. -/
def of (errors warnings : List Diagnostic) (treeDump : Option String) : Report :=
  ⟨sorted errors, sorted warnings, treeDump⟩

/-- Whether nothing is reported. -/
def isClean (r : Report) : Bool := r.errors.isEmpty && r.warnings.isEmpty

/-- How many of something were found. -/
def countPhrase (noun : String) : Nat → String
  | 0 => s!"no {noun}s found"
  | 1 => s!"1 {noun} found"
  | n => s!"{n} {noun}s found"

/-- A report in one phrase. -/
def summary (r : Report) : String :=
  countPhrase "error" r.errors.length ++ ", " ++ countPhrase "warning" r.warnings.length

/-- A section of a report: its head, and a line for each diagnostic. -/
def sectionText (title : String) (ds : List Diagnostic) : String :=
  if ds.isEmpty then s!"=== NO {title} ===\n"
  else s!"=== {title} ===\n" ++ String.join (ds.map fun d => d.shown ++ "\n")

/-- The section of the tree, which ends in an empty line. -/
def dumpText : Option String → String
  | none => ""
  | some dump =>
    "=== PARSE DUMP ===\n" ++ dump ++ (if dump.endsWith "\n" then "" else "\n") ++ "\n"

/-- A report as text. -/
def text (r : Report) : String :=
  dumpText r.treeDump ++ sectionText "ERRORS" r.errors ++ "\n" ++
    sectionText "WARNINGS" r.warnings

end Report

end RubyCheck
