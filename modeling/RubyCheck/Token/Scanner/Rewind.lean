import RubyCheck.Token.Scanner.State

/-!
# Going back to a literal that never closes

When the text runs out inside a literal, the scanner goes back to an opener and ends that literal on its own
line: to the last string that spanned a line break, or else to the outermost open literal. An opener is gone
back to at most once, because afterwards its literal ends on its line. Where nothing can be gone back to,
everything open is closed at the end of the text.
-/

namespace RubyCheck.Scanner

/-- The checkpoint of a literal about to open at the cursor. -/
def checkpoint (s : Scanner) (spaced : Bool) : Checkpoint where
  cursor := s.cursor
  tokens := s.tokens.length
  faults := s.faults.length
  modes := s.modes.length
  topModes := s.modes.take 2
  depth := s.openLiterals.length
  resume := s.resume
  expects := s.expects
  spaced := spaced
  opener := s.cursor.position.byte
  line := s.cursor.position.line

/-- The scanner as it was at a checkpoint, but for what it has learnt: the names of variables and the
literals that end on their own line. -/
def restore (s : Scanner) (c : Checkpoint) : Scanner :=
  { s with
    cursor := c.cursor
    tokens := keepOldest c.tokens s.tokens
    faults := keepOldest c.faults s.faults
    modes := c.topModes ++ keepOldest (c.modes - c.topModes.length) s.modes
    openLiterals := keepOldest c.depth s.openLiterals
    resume := c.resume
    expects := c.expects
    spaceSeen := c.spaced
    lastMultiline := none
    definingName := false
    inBlockParameters := false }

/-- Ends the literal with an opener at this byte offset on its own line from now on. -/
def endOnItsLine (s : Scanner) (opener : Nat) : Scanner :=
  if s.singleLine.contains opener then s else { s with singleLine := opener :: s.singleLine }

/-- Forgets the innermost open literal. A remembered multi-line string inside it can no longer be gone back
to on its own; with `promote` the forgotten literal takes its place. -/
def popLiteral (s : Scanner) (promote : Bool) : Option Checkpoint × Scanner :=
  match s.openLiterals with
  | [] => (none, s)
  | c :: outer =>
    let lastMultiline :=
      if s.lastMultiline.any (fun inner => c.depth < inner.depth) then
        if promote then some c else none
      else s.lastMultiline
    (some c, { s with openLiterals := outer, lastMultiline := lastMultiline })

/-- Whether going back to a checkpoint changes anything: the literal would end before the current line, and
does not already end on its own. -/
def worthRestoring (s : Scanner) (c : Checkpoint) : Bool :=
  c.line < s.cursor.position.line && !s.singleLine.contains c.opener

/-- The checkpoint to go back to when the text runs out. -/
def rewindTarget? (s : Scanner) : Option Checkpoint :=
  match s.lastMultiline.filter s.worthRestoring with
  | some c => some c
  | none => s.openLiterals.reverse.find? s.worthRestoring

/-- Closes the innermost mode at the end of the text. -/
def closeMode (s : Scanner) : Mode → Scanner
  | .code _ => s.emitEmpty .interpolationEnd s.cursor.position
  | .literal l =>
    if l.close.isSome then
      (((s.complain l.flavor.unterminated l.opener).emitEmpty .stringEnd
        s.cursor.position).popLiteral false).2
    else s

/-- Closes every mode but the outermost, from the inside out. -/
def closeModes : List Mode → Scanner → Scanner
  | [], s => s
  | [outermost], s => { s with modes := [outermost] }
  | m :: outer, s => closeModes outer (s.closeMode m)

/-- What comes of one step of the scanner. -/
inductive Step where
  /-- There is more to read. -/
  | more (s : Scanner)
  /-- Everything is read. -/
  | done (s : Scanner)

/-- The scanner after a step. -/
def Step.scanner : Step → Scanner
  | more s | done s => s

/-- What happens where the text runs out. -/
def endOfText (s : Scanner) : Step :=
  match s.modes with
  | [] | [_] => .done s
  | modes =>
    if s.inBody then .done ((closeModes modes s).expecting .operator)
    else match s.rewindTarget? with
      | some c => .more ((s.endOnItsLine c.opener).restore c)
      | none => .done ((closeModes modes { s with lastMultiline := none }).expecting .operator)

end RubyCheck.Scanner
