import RubyCheck.Fault
import RubyCheck.Finding

/-!
# Diagnostics

A fault or a finding as a report shows it: a kind, a wording, and a line and column counted from one. The
kind decides whether it is an error or a warning.
-/

namespace RubyCheck

/-- How bad a diagnostic is. -/
inductive Severity where
  | error
  | warning
deriving DecidableEq, Inhabited, Repr

/-- What a diagnostic is about. -/
inductive DiagnosticKind where
  /-- A fault of the text as tokens. -/
  | lexical
  /-- A fault of the tokens as a program. -/
  | grammatical
  | duplicateValue
  | unusedVariable
  | voidValue
  | shadowedVariable
  | ambiguousRegex
  | legacyOctal
  | endInMethod
deriving DecidableEq, Inhabited, Repr

namespace DiagnosticKind

/-- The place of a kind among the kinds at one position. -/
def rank : DiagnosticKind → Nat
  | lexical => 0 | grammatical => 1 | duplicateValue => 2 | unusedVariable => 3 | voidValue => 4
  | shadowedVariable => 5 | ambiguousRegex => 6 | legacyOctal => 7 | endInMethod => 8

/-- Faults are errors, findings are warnings. -/
def severity : DiagnosticKind → Severity
  | lexical | grammatical => .error
  | _ => .warning

/-- The kind of a fault. -/
def ofFault (f : Fault) : DiagnosticKind := if f.isLexical then lexical else grammatical

/-- The kind of a finding. -/
def ofFinding (f : Finding) : DiagnosticKind :=
  match f.cause with
  | .duplicateValue .. => duplicateValue
  | .unusedVariable _ => unusedVariable
  | .voidValue _ => voidValue
  | .shadowedVariable .. => shadowedVariable
  | .ambiguousRegex => ambiguousRegex
  | .legacyOctal _ => legacyOctal
  | .endInMethod => endInMethod

end DiagnosticKind

/-- A fault or a finding as a report shows it. -/
structure Diagnostic where
  kind : DiagnosticKind
  message : String
  /-- The line, counted from one. -/
  line : Nat
  /-- The column, counted from one. -/
  column : Nat
deriving DecidableEq, Inhabited, Repr

namespace Diagnostic

/-- Whether a diagnostic is an error or a warning. -/
def severity (d : Diagnostic) : Severity := d.kind.severity

/-- A diagnostic at a position. -/
def at_ (kind : DiagnosticKind) (message : String) (p : Position) : Diagnostic :=
  ⟨kind, message, p.shownLine, p.shownColumn⟩

/-- The diagnostic of a fault. -/
def ofFault (f : Fault) : Diagnostic := .at_ (.ofFault f) f.cause.message f.span.start

/-- The diagnostic of a finding. -/
def ofFinding (f : Finding) : Diagnostic := .at_ (.ofFinding f) f.cause.message f.position

/-- A diagnostic as one line, without its end. -/
def shown (d : Diagnostic) : String := s!"{d.line}:{d.column}: {d.message}"

/-- Whether a diagnostic may stand before another in a report: by line, then column, then kind. -/
def before (d e : Diagnostic) : Bool :=
  d.line < e.line ||
    (d.line == e.line &&
      (d.column < e.column || (d.column == e.column && d.kind.rank ≤ e.kind.rank)))

end Diagnostic

end RubyCheck
