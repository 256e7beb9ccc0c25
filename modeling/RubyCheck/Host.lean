import RubyCheck.Check
import RubyCheck.Report.Lines
import RubyCheck.Source.Slice
import RubyCheck.Text.Utf8

/-!
# The boundary to a host

A host that shares nothing but memory hands over bytes and gets back the bytes of an encoded report. Between
calls two things are kept for it: how long the latest report was, and what went wrong in the latest call.
Buffers cross the boundary as loans, and a null address is the loan of none.
-/

namespace RubyCheck

/-- Why a call gives no report. -/
inductive HostFault where
  /-- There is no input. -/
  | nullInput
  /-- The input is no text; its longest well-formed prefix has this many bytes. -/
  | malformedText (validUpTo : Nat)
deriving DecidableEq, Inhabited, Repr

/-- The wording of a fault. -/
def HostFault.message : HostFault → String
  | nullInput => "input pointer is null"
  | malformedText validUpTo => s!"source is not valid UTF-8 (valid up to byte {validUpTo})"

/-- Checks bytes, which have to be a text. -/
def checkBytes (bytes : List UInt8) (withDump : Bool) : Except HostFault Report :=
  match Text.Utf8.decode bytes with
  | .ok source => .ok (check source withDump)
  | .error validUpTo => .error (.malformedText validUpTo)

/-- The encoded report of a text. -/
def encodedReport (source : List Char) (withDump : Bool) : String :=
  (ReportLines.ofReport (check source withDump)).encode

namespace Host

/-- Bytes that can be lent to a host. -/
structure Buffer where
  bytes : List UInt8
deriving DecidableEq, Inhabited, Repr

/-- What a host holds of a buffer. -/
inductive Loan where
  /-- The null address. -/
  | null
  /-- The address of a buffer. -/
  | lent (buffer : Buffer)
deriving DecidableEq, Inhabited, Repr

/-- A buffer of zeros. -/
def Buffer.zeroed (length : Nat) : Buffer := ⟨List.replicate length 0⟩

/-- The number of bytes of a buffer. -/
def Buffer.length (b : Buffer) : Nat := b.bytes.length

/-- Lends a buffer to the host. -/
def Buffer.lend (b : Buffer) : Loan := .lent b

/-- Takes back a loan; there is nothing to take back from the null address. -/
def Loan.reclaim? : Loan → Option Buffer
  | null => none
  | lent b => some b

/-- What is kept between the calls of a host. -/
structure Session where
  /-- The length in bytes of the latest report; zero if the latest call gave none. -/
  resultLength : Nat
  /-- What went wrong in the latest call. -/
  lastFault : Option HostFault
deriving DecidableEq, Inhabited, Repr

namespace Session

/-- Before the first call. -/
def fresh : Session := ⟨0, none⟩

/-- The message about the latest call; empty if nothing went wrong. -/
def lastError (s : Session) : String := (s.lastFault.map HostFault.message).getD ""

end Session

/-- What a host can ask for. -/
inductive Call where
  /-- Check bytes. -/
  | check (input : Loan) (withDump : Bool)
  /-- Check a text without the protocol for bytes. -/
  | checkText (source : List Char) (withDump : Bool)
  /-- Lend a buffer of zeros. -/
  | allocate (length : Nat)
  /-- Take back a buffer. -/
  | reclaim (loan : Loan)
  /-- Say what is kept. -/
  | query
deriving Inhabited, Repr

/-- What a host gets. -/
inductive Answer where
  /-- An encoded report, or the null address. -/
  | report (json : Option String)
  | loan (l : Loan)
  | buffer (b : Option Buffer)
  | session (s : Session)
deriving Inhabited, Repr

/-- The encoded report of what a loan holds. -/
def encodedLoan (input : Loan) (withDump : Bool) : Except HostFault String :=
  match input.reclaim? with
  | none => .error .nullInput
  | some b => (checkBytes b.bytes withDump).map fun r => (ReportLines.ofReport r).encode

/-- One call. -/
def Session.step (s : Session) : Call → Answer × Session
  | .check input withDump =>
    match encodedLoan input withDump with
    | .ok json => (.report (some json), ⟨Source.byteLength json.toList, none⟩)
    | .error f => (.report none, ⟨0, some f⟩)
  | .checkText source withDump => (.report (some (encodedReport source withDump)), s)
  | .allocate length => (.loan (Buffer.zeroed length).lend, s)
  | .reclaim l => (.buffer l.reclaim?, s)
  | .query => (.session s, s)

/-- Some calls one after another: the answers, and what is kept behind them. -/
def Session.run (s : Session) : List Call → List Answer × Session
  | [] => ([], s)
  | c :: cs =>
    let (answer, s) := s.step c
    let (answers, s) := s.run cs
    (answer :: answers, s)

end Host

end RubyCheck
