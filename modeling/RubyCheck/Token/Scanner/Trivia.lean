import RubyCheck.Token.Scanner.State

/-!
# What stands between tokens

Blanks, comments, continued lines and embedded documents are passed over, and a line break becomes a token
only where a statement can end. The line break is also where reading jumps behind the bodies of heredocs
that were opened on the line.
-/

namespace RubyCheck.Scanner

/-- Whether a text begins with the line that ends the program. -/
def atEndMarker (cs : List Char) : Bool :=
  "__END__".toList.isPrefixOf cs &&
    match cs.drop 7 with
    | [] | '\n' :: _ | '\r' :: '\n' :: _ => true
    | _ => false

/-- Whether a text begins with a given word that is followed by a blank or by nothing. -/
def atWord (word cs : List Char) : Bool :=
  word.isPrefixOf cs && (cs.drop word.length).head?.all Text.isBlank

/-- Where an embedded document ends: how many characters it has, counted on from `n`, up to the end of its
last line, and whether that line was found. -/
def documentEnd (n : Nat) : List Char → Nat × Bool
  | [] => (n, false)
  | '\n' :: cs =>
    if atWord "=end".toList cs then (n + 1 + (cs.takeWhile (· != '\n')).length, true)
    else documentEnd (n + 1) cs
  | _ :: cs => documentEnd (n + 1) cs

/-- Whether the next line of code, behind blank lines and comment lines, goes on with a method call
(`.name` or `&.name`) and so continues the current line. -/
def continuesChain (inComment : Bool) : List Char → Bool
  | [] => false
  | c :: cs =>
    if inComment then continuesChain (c != '\n') cs
    else if Text.isBlank c then continuesChain false cs
    else if c = '#' then continuesChain true cs
    else match c, cs with
      | '.', d :: _ => d != '.'
      | '.', [] => true
      | '&', d :: _ => d = '.'
      | _, _ => false

/-- Whether a line break at this point ends a statement. -/
def newlineMatters (s : Scanner) : Bool :=
  match s.expects with
  | .operator | .argument | .maybeOperand =>
    !continuesChain false ((s.resume.map (·.rest)).getD s.cursor.advance.rest)
  | .operand | .methodName => false

/-- Reads a line break, and jumps behind the bodies of the heredocs opened on the line. -/
def scanNewline (s : Scanner) : Scanner :=
  let s := if s.newlineMatters then (s.emit .newline 1 false).expecting .operand else s.skip 1
  { s with
    spaceSeen := true
    definingName := false
    inBlockParameters := false
    cursor := s.resume.getD s.cursor
    resume := none }

/-- Whether the scanner stands in the first column of a line outside every literal and heredoc. -/
def atTopLine (s : Scanner) : Bool :=
  s.cursor.atLineStart && s.modes.tail.isEmpty && !s.inBody

/-- Passes over one embedded document. -/
def skipDocument (s : Scanner) : Scanner :=
  match documentEnd 0 s.cursor.rest with
  | (n, true) => s.skip n
  | (n, false) => (s.complain .unterminatedComment (s.spanOf n)).skip n

/-- Passes over `n` characters that count as a blank. -/
def skipBlank (s : Scanner) (n : Nat) : Scanner :=
  { s.skip n with spaceSeen := true }

/-- Passes over one piece of what stands between tokens, if the scanner stands at one. -/
def skipTrivia? (s : Scanner) : Option Scanner :=
  if s.atTopLine && atWord "=begin".toList s.cursor.rest then some s.skipDocument
  else match s.cursor.rest with
    | ' ' :: _ | '\t' :: _ | '\r' :: _ | '\x0b' :: _ | '\x0c' :: _ => some (s.skipBlank 1)
    | '\\' :: '\n' :: _ => some (s.skipBlank 2)
    | '#' :: _ => some (s.skipBlank (s.cursor.run (· != '\n')))
    | '\n' :: _ => some s.scanNewline
    | _ => none

end RubyCheck.Scanner
