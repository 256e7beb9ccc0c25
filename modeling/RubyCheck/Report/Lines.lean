import RubyCheck.Json.Value
import RubyCheck.Report.Basic

/-!
# Reports as lines

What a host gets of a report: a line for each diagnostic, the summary, and the tree written out if the report
has it. The lines travel as an object of JSON in which a missing tree has no key; reading accepts the keys in
any order, others beside them, and the values in an array instead.
-/

namespace RubyCheck

/-- The lines of a report. -/
structure ReportLines where
  errors : List String
  warnings : List String
  summary : String
  treeDump : Option String
deriving DecidableEq, Inhabited, Repr

namespace ReportLines

/-- The lines of a report. -/
def ofReport (r : Report) : ReportLines :=
  ⟨r.errors.map Diagnostic.shown, r.warnings.map Diagnostic.shown, r.summary, r.treeDump⟩

/-- Whether nothing is reported. -/
def isClean (r : ReportLines) : Bool := r.errors.isEmpty && r.warnings.isEmpty

/-! ### Writing -/

/-- The member for a tree, if there is one. -/
def dumpMember : Option String → List (List Char × Json)
  | some dump => [("parse_dump".toList, .ofText dump)]
  | none => []

/-- Lines as an object. -/
def toJson (r : ReportLines) : Json :=
  .object <|
    ("errors".toList, .ofTexts r.errors) :: ("warnings".toList, .ofTexts r.warnings) ::
      ("summary".toList, .ofText r.summary) :: dumpMember r.treeDump

/-- Lines as text. -/
def encode (r : ReportLines) : String := String.ofList r.toJson.write

/-! ### Reading -/

/-- The text of a string. -/
def text? : Json → Option String
  | .string written => (Json.unescape written).map String.ofList
  | _ => none

/-- The texts of an array of strings. -/
def texts? : Json → Option (List String)
  | .array items => items.mapM text?
  | _ => none

/-- A tree, which is a text or nothing. -/
def dump? : Json → Option (Option String)
  | .null => some none
  | x => (text? x).map some

/-- The value of the only member of a key: no value if there is none, and nothing at all if there are
several. -/
def only? (key : String) (ms : List (List Char × Json)) : Option (Option Json) :=
  match ms.filter fun m => m.1 == key.toList with
  | [] => some none
  | [m] => some (some m.2)
  | _ => none

/-- The value of a key that has to be there once. -/
def required? (key : String) (ms : List (List Char × Json)) : Option Json := (only? key ms).join

/-- Members with the texts of their keys. -/
def readKeys? (ms : List (List Char × Json)) : Option (List (List Char × Json)) :=
  ms.mapM fun m => (Json.unescape m.1).map (·, m.2)

/-- The lines in members whose keys are read. -/
def ofMembers? (ms : List (List Char × Json)) : Option ReportLines := do
  let errors ← texts? (← required? "errors" ms)
  let warnings ← texts? (← required? "warnings" ms)
  let summary ← text? (← required? "summary" ms)
  let treeDump ←
    match ← only? "parse_dump" ms with
    | some x => dump? x
    | none => some none
  return ⟨errors, warnings, summary, treeDump⟩

/-- The lines in an array. -/
def ofItems? (errors warnings summary treeDump : Json) : Option ReportLines := do
  return ⟨← texts? errors, ← texts? warnings, ← text? summary, ← dump? treeDump⟩

/-- The lines in a value. -/
def ofJson? : Json → Option ReportLines
  | .object ms => (readKeys? ms).bind ofMembers?
  | .array [errors, warnings, summary] => ofItems? errors warnings summary .null
  | .array [errors, warnings, summary, treeDump] => ofItems? errors warnings summary treeDump
  | _ => none

/-- The lines in a text. -/
def decode (s : String) : Option ReportLines := (Json.read? s.toList).bind ofJson?

end ReportLines

end RubyCheck
