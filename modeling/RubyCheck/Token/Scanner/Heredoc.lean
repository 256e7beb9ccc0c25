import RubyCheck.Text.Capital
import RubyCheck.Token.Scanner.Rewind

/-!
# Heredocs

The body of a heredoc stands on the lines behind its opener, up to a line that holds its terminator. It is
read in place by a scanner of its own and its tokens stand right behind the opener; the rest of the opener's
line is read afterwards, and the next line break jumps behind the bodies.
-/

namespace RubyCheck.Scanner

open Text

/-- The opener of a heredoc. -/
structure HeredocOpener where
  terminator : List Char
  /-- Blanks may stand before the terminator on its line. -/
  indented : Bool
  interpolates : Bool
  /-- How many characters the opener has. -/
  length : Nat
deriving DecidableEq, Repr

/-- The terminator between quotes, from the characters behind the opening quote. -/
def quotedTerminator? (quote : Char) (cs : List Char) : Option (List Char) :=
  let terminator := cs.takeWhile (· != quote)
  if terminator.length == cs.length || terminator.isEmpty || terminator.contains '\n' then none
  else some terminator

/-- The heredoc opener that the text ahead begins with. In argument position a bare name must look like a
terminator, or else two angle brackets shift. -/
def heredocOpener? (s : Scanner) : Option HeredocOpener :=
  match s.cursor.rest with
  | '<' :: '<' :: after =>
    let indented := after.head?.any fun c => c == '~' || c == '-'
    let marks := if indented then 3 else 2
    match (if indented then after.tail else after) with
    | [] => none
    | c :: cs =>
      if c = '"' || c = '\'' || c = '\x60' then
        (quotedTerminator? c cs).map fun terminator =>
          ⟨terminator, indented, c != '\'', marks + terminator.length + 2⟩
      else if !startsName c then none
      else if !indented && s.expects == .argument && !(isCapital c || c == '_') then none
      else
        let terminator := (c :: cs).takeWhile continuesName
        some ⟨terminator, indented, true, marks + terminator.length⟩
  | _ => none

/-- Whether a line, given from its last character to its first, holds the terminator. Carriage returns at
its end do not count. -/
def HeredocOpener.endsAt (o : HeredocOpener) (reversedLine : List Char) : Bool :=
  let line := (reversedLine.dropWhile (· == '\r')).reverse
  (if o.indented then trimLeft line else line) == o.terminator

/-- The range of a heredoc's body. -/
structure HeredocRange where
  /-- How many characters the body has. -/
  body : Nat
  /-- How many characters the body and the terminator line have together. -/
  whole : Nat
  terminated : Bool
deriving DecidableEq, Repr

/-- Looks for the terminator line. The current line began `start` characters into the range, and the `n`
characters up to here are counted; the current line's are given from last to first. -/
def HeredocOpener.range (o : HeredocOpener) (start n : Nat) (reversedLine : List Char) :
    List Char → HeredocRange
  | [] => if o.endsAt reversedLine then ⟨start, n, true⟩ else ⟨n, n, false⟩
  | '\n' :: cs =>
    if o.endsAt reversedLine then ⟨start, n + 1, true⟩ else o.range (n + 1) (n + 1) [] cs
  | c :: cs => o.range start (n + 1) (c :: reversedLine) cs

/-- A scanner for the body of a heredoc. It knows the variables of the scanner around it. -/
def ofBody (body : Cursor) (interpolates : Bool) (opener : Span) (locals : List String) : Scanner :=
  { Scanner.ofCursor body with
    modes :=
      [.literal
        { flavor := .heredoc
          bracket := none
          close := none
          interpolates := interpolates
          opener := opener
          singleLine := false
          hasNewline := false
          nesting := 0 },
        .code 0]
    inBody := true
    locals := locals }

/-- Reads a heredoc's opener and its body; `nested` reads a text to its end. -/
def scanHeredoc (nested : Scanner → Option Scanner) (s : Scanner) (o : HeredocOpener)
    (spaced : Bool) : Option Scanner := do
  let opener := s.spanOf o.length
  let s := s.emit .stringBegin o.length spaced
  let start := s.resume.getD s.cursor.nextLine
  let range := o.range 0 0 [] start.rest
  let s :=
    if range.terminated then s
    else s.complain (.unterminatedHeredoc (String.ofList o.terminator)) opener
  let body ← nested (.ofBody (start.narrow range.body) o.interpolates opener s.locals)
  let s :=
    { s with
      tokens := body.tokens ++ s.tokens
      faults := body.faults ++ s.faults
      resume := some (Cursor.advanceBy range.whole start) }
  return (s.emitEmpty .stringEnd opener.stop).expecting .operator

end RubyCheck.Scanner
