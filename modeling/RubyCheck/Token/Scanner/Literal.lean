import RubyCheck.Text.Letter
import RubyCheck.Token.Scanner.Rewind

/-!
# Strings and regular expressions

A literal that can hold code is read piece by piece: an opening token, stretches of content, code between
interpolation marks, and a closing token. Content reaches up to the next place where something else begins.
-/

namespace RubyCheck.Scanner

/-- How a literal opens. -/
structure Opening where
  flavor : Flavor
  /-- The opening bracket, if the delimiters are a pair of brackets that nest. -/
  bracket : Option Char
  close : Char
  interpolates : Bool
  /-- The literal ends at the next line break. -/
  singleLine : Bool
  /-- How many characters the opener has. -/
  width : Nat
  /-- The opener could also have been read as a division. -/
  ambiguous : Bool

/-- The opening of a string between two equal quotes. -/
def Opening.quoted (quote : Char) (interpolates : Bool) : Opening :=
  ⟨.string, none, quote, interpolates, false, 1, false⟩

/-- The opening of a regular expression between slashes. -/
def Opening.slashed (ambiguous : Bool) : Opening :=
  ⟨.regex, none, '/', true, true, 1, ambiguous⟩

/-- The token that opens a literal. -/
def Flavor.beginKind : Flavor → TokenKind
  | regex => .regexBegin
  | string | heredoc => .stringBegin

/-- Opens a literal. -/
def beginLiteral (s : Scanner) (o : Opening) (spaced : Bool) : Scanner :=
  let c := s.checkpoint spaced
  let s := if o.singleLine then s.endOnItsLine c.opener else s
  let l : OpenLiteral :=
    { flavor := o.flavor
      bracket := o.bracket
      close := some o.close
      interpolates := o.interpolates
      opener := s.spanOf o.width
      singleLine := s.singleLine.contains c.opener
      hasNewline := false
      nesting := 0 }
  let s := s.emitFlagged o.flavor.beginKind o.width spaced o.ambiguous
  { s with
    modes := .literal l :: s.modes
    openLiterals := c :: s.openLiterals
    expects := .operand }

/-- Where a stretch of content ends. -/
inductive ContentEnd where
  /-- The text runs out. -/
  | endOfText
  /-- Code begins. -/
  | interpolation
  /-- A line break cuts a single-line literal. -/
  | lineBreak
  /-- The closing delimiter. -/
  | delimiter
deriving DecidableEq, Repr

/-- Measures a stretch of content, counting on from `n`: where it ends, how long it is, and the literal with
the line breaks and brackets in it taken into account. A backslash takes the next character with it. -/
def contentEnd (l : OpenLiteral) (n : Nat) : List Char → ContentEnd × Nat × OpenLiteral
  | [] => (.endOfText, n, l)
  | ['\\'] => (.endOfText, n + 1, l)
  | '\\' :: '\n' :: cs => contentEnd { l with hasNewline := true } (n + 2) cs
  | '\\' :: _ :: cs => contentEnd l (n + 2) cs
  | '\n' :: cs =>
    if l.singleLine then (.lineBreak, n, l)
    else contentEnd { l with hasNewline := true } (n + 1) cs
  | c :: cs =>
    if l.interpolates && c == '#' && cs.head? == some '\x7b' then (.interpolation, n, l)
    else if l.close == some c then
      if l.nesting == 0 then (.delimiter, n, l)
      else contentEnd { l with nesting := l.nesting - 1 } (n + 1) cs
    else if l.bracket == some c then contentEnd { l with nesting := l.nesting + 1 } (n + 1) cs
    else contentEnd l (n + 1) cs

/-- Reads content, if there is any. -/
def emitContent (s : Scanner) (n : Nat) : Scanner :=
  if n == 0 then s else s.emit .stringContent n false

/-- Closes the innermost literal at its delimiter. Letters behind a regular expression are its options. -/
def closeLiteral (s : Scanner) (l : OpenLiteral) (outer : List Mode) : Scanner :=
  let options :=
    if l.flavor == .regex then (s.cursor.rest.tail.takeWhile Text.isAsciiLetter).length else 0
  let s := { s with modes := outer }.emit .stringEnd (1 + options) false
  let plain := l.flavor == .string
  let (c, s) := s.popLiteral plain
  let s := if l.hasNewline && plain then { s with lastMultiline := c } else s
  s.expecting .operator

/-- Reports and closes a single-line literal at a line break. -/
def abandonLiteral (s : Scanner) (l : OpenLiteral) (outer : List Mode) : Scanner :=
  let s := { s with modes := outer }.complain l.flavor.unterminated l.opener
  ((s.emitEmpty .stringEnd s.cursor.position).popLiteral false).2.expecting .operator

/-- Begins code inside a literal. -/
def beginInterpolation (s : Scanner) : Scanner :=
  let s := s.emit .interpolationBegin 2 false
  { s with modes := .code 0 :: s.modes, expects := .operand }

/-- Reads the inside of the innermost literal up to the next place where something else begins. -/
def scanContent (s : Scanner) (l : OpenLiteral) (outer : List Mode) : Scanner :=
  match contentEnd l 0 s.cursor.rest with
  | (stop, n, l) =>
    let s := { s with modes := .literal l :: outer }.emitContent n
    match stop with
    | .endOfText => if l.close.isNone then { s with modes := outer } else s.endOfText.scanner
    | .interpolation => s.beginInterpolation
    | .lineBreak => s.abandonLiteral l outer
    | .delimiter => s.closeLiteral l outer

/-! ### Percent literals -/

/-- The delimiter that closes what another one opens. -/
def closingOf : Char → Char
  | '(' => ')'
  | '[' => ']'
  | '\x7b' => '\x7d'
  | '<' => '>'
  | c => c

/-- How far a percent literal without code reaches, counted on from `n`, over its closing delimiter, and
whether that was found. -/
def verbatimEnd (bracket : Option Char) (close : Char) (nesting n : Nat) : List Char → Nat × Bool
  | [] => (n, false)
  | ['\\'] => (n + 1, false)
  | '\\' :: _ :: cs => verbatimEnd bracket close nesting (n + 2) cs
  | c :: cs =>
    if c = close then
      if nesting = 0 then (n + 1, true)
      else verbatimEnd bracket close (nesting - 1) (n + 1) cs
    else if bracket = some c then verbatimEnd bracket close (nesting + 1) (n + 1) cs
    else verbatimEnd bracket close nesting (n + 1) cs

/-- The letter and the delimiter of a percent literal, from the characters behind the percent sign. -/
def percentOpener? : List Char → Option (Option Char × Char)
  | [] => none
  | c :: cs => do
    let (letter, delimiter) ←
      if Text.isAsciiLetter c then cs.head?.map fun d => (some c, d) else some (none, c)
    if Text.isAlphanumeric delimiter || Text.isBlank delimiter || delimiter == '=' then none
    else if letter.any fun l => !"qQwWiIrsx".toList.contains l then none
    else some (letter, delimiter)

/-- Reads a percent literal that holds no code. -/
def scanVerbatim (s : Scanner) (spaced : Bool) (width : Nat) (bracket : Option Char) (close : Char)
    (kind : TokenKind) : Scanner :=
  let (n, complete) := verbatimEnd bracket close 0 width (s.cursor.rest.drop width)
  let s := if complete then s else s.complain .unterminatedString (s.spanOf width)
  (s.emit kind n spaced).expecting .operator

/-- Reads a percent literal, or its opener if it can hold code. -/
def scanPercent? (s : Scanner) (spaced : Bool) : Option Scanner :=
  (percentOpener? s.cursor.rest.tail).map fun (letter, delimiter) =>
    let close := closingOf delimiter
    let bracket := if close == delimiter then none else some delimiter
    let width := if letter.isSome then 3 else 2
    match letter with
    | some 'q' | some 'w' | some 'i' =>
      s.scanVerbatim spaced width bracket close .percentLiteral
    | some 's' => s.scanVerbatim spaced width bracket close .symbol
    | some 'r' => s.beginLiteral ⟨.regex, bracket, close, true, false, width, false⟩ spaced
    | _ => s.beginLiteral ⟨.string, bracket, close, true, false, width, false⟩ spaced

end RubyCheck.Scanner
