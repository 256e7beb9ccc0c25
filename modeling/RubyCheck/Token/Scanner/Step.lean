import RubyCheck.Token.Scanner.Heredoc
import RubyCheck.Token.Scanner.Literal
import RubyCheck.Token.Scanner.Name
import RubyCheck.Token.Scanner.Number
import RubyCheck.Token.Scanner.Trivia

/-!
# One step of the scanner

A step passes over one piece of what stands between tokens, or reads one token, or one stretch of a literal.
The body of a heredoc is read within one step, by a reader that is a parameter here.
-/

namespace RubyCheck.Scanner

open Text

/-- The operators, with no operator behind one that it begins with. -/
def operators : List (List Char × TokenKind) :=
  [("**=", .opAssign), ("<=>", .punct .cmp), ("===", .punct .eqEqEq), ("...", .punct .dotDotDot),
    ("<<=", .opAssign), (">>=", .opAssign), ("&&=", .opAssign), ("||=", .opAssign),
    ("**", .punct .pow), ("==", .punct .eqEq), ("!=", .punct .notEq), ("=~", .punct .matches_),
    ("!~", .punct .notMatches), ("<=", .punct .ltEq), (">=", .punct .gtEq),
    ("&&", .punct .ampAmp), ("||", .punct .pipePipe), ("<<", .punct .shl), (">>", .punct .shr),
    ("::", .punct .colonColon), ("&.", .punct .ampDot), ("..", .punct .dotDot),
    ("->", .punct .arrow), ("=>", .punct .fatArrow), ("+=", .opAssign), ("-=", .opAssign),
    ("*=", .opAssign), ("/=", .opAssign), ("%=", .opAssign), ("|=", .opAssign), ("&=", .opAssign),
    ("^=", .opAssign), ("+", .punct .plus), ("-", .punct .minus), ("*", .punct .star),
    ("/", .punct .slash), ("%", .punct .percent), ("=", .punct .eq), ("<", .punct .lt),
    (">", .punct .gt), ("!", .punct .bang), ("~", .punct .tilde), ("&", .punct .amp),
    ("|", .punct .pipe), ("^", .punct .caret), ("?", .punct .question), (":", .punct .colon),
    (".", .punct .dot), (",", .punct .comma), (";", .punct .semicolon), ("(", .punct .lParen),
    (")", .punct .rParen), ("[", .punct .lBracket), ("]", .punct .rBracket)].map
      fun (text, kind) => (text.toList, kind)

/-- The names of operator methods that mean something only behind `def`. -/
def definedOperators : List (List Char) :=
  ["[]=", "[]", "+@", "-@", "!@", "~@"].map String.toList

/-- What the scanner expects behind an operator. -/
def afterOperator : TokenKind → Expectation
  | .punct .rParen | .punct .rBracket => .operator
  | .punct .dot | .punct .ampDot | .punct .colonColon => .methodName
  | _ => .operand

/-- Reads an operator. A character that begins none is a fault. -/
def scanOperator (s : Scanner) (spaced : Bool) : Scanner :=
  match operators.find? fun op => s.cursor.startsWith op.1 with
  | none =>
    (s.complain (.unexpectedCharacter (s.cursor.peek.getD '\x00')) (s.spanOf 1)).skip 1
  | some (text, kind) =>
    let previous := s.lastKind?
    let s := s.emit kind text.length spaced
    if s.definingName && kind.isOperatorMethod then
      { s with definingName := false, expects := .argument }
    else
      let s :=
        if kind == .punct .pipe then
          { s with inBlockParameters :=
              previous == some (.keyword .do_) || previous == some (.punct .lBrace) }
        else s
      s.expecting (afterOperator kind)

/-- Reads an opening brace. -/
def scanOpeningBrace (s : Scanner) (spaced : Bool) : Scanner :=
  let s := (s.emit (.punct .lBrace) 1 spaced).expecting .operand
  match s.modes with
  | .code depth :: outer => { s with modes := .code (depth + 1) :: outer }
  | _ => s

/-- Reads a closing brace, which ends an interpolation if no brace is open in it. -/
def scanClosingBrace (s : Scanner) (spaced : Bool) : Scanner :=
  match s.modes with
  | .code 0 :: mode :: outer =>
    { s with modes := mode :: outer }.emit .interpolationEnd 1 spaced
  | .code depth :: outer =>
    ({ s with modes := .code (depth - 1) :: outer }.emit (.punct .rBrace) 1 spaced).expecting
      .operator
  | _ => (s.emit (.punct .rBrace) 1 spaced).expecting .operator

/-- The first of some readings that applies, or else an operator. -/
def orOperator (reading : Option Scanner) (s : Scanner) (spaced : Bool) : Scanner :=
  reading.getD (s.scanOperator spaced)

/-- Reads the token that begins with a given character. -/
def scanTokenAt (nested : Scanner → Option Scanner) (s : Scanner) (spaced : Bool) (c : Char) :
    Option Scanner :=
  if isAsciiDigit c then some (s.scanNumber spaced)
  else if startsName c then some (s.scanName spaced)
  else match c with
    | '"' | '\x60' => some (s.beginLiteral (.quoted c true) spaced)
    | '\'' => some (s.beginLiteral (.quoted c false) spaced)
    | '@' => some (s.scanSigil spaced)
    | '$' => some (s.scanGlobal spaced)
    | ':' =>
      if s.cursor.startsWith "::".toList || s.expects == .operator then
        some (s.scanOperator spaced)
      else some (orOperator (s.scanSymbol? spaced) s spaced)
    | '?' =>
      if s.valueExpected spaced then some (orOperator (s.scanCharacter? spaced) s spaced)
      else some (s.scanOperator spaced)
    | '%' =>
      if s.valueExpected spaced then some (orOperator (s.scanPercent? spaced) s spaced)
      else some (s.scanOperator spaced)
    | '/' =>
      if s.valueExpected spaced then
        some (s.beginLiteral (.slashed (s.expects == .argument)) spaced)
      else some (s.scanOperator spaced)
    | '<' =>
      match if s.valueExpected spaced then s.heredocOpener? else none with
      | some o => s.scanHeredoc nested o spaced
      | none => some (s.scanOperator spaced)
    | '\x7b' => some (s.scanOpeningBrace spaced)
    | '\x7d' => some (s.scanClosingBrace spaced)
    | _ => some (s.scanOperator spaced)

/-- The length of the operator name that a definition gives to a method, if one stands here. -/
def definedOperator? (s : Scanner) : Option Nat :=
  if s.definingName then (definedOperators.find? s.cursor.startsWith).map (·.length) else none

/-- Reads one token of code. -/
def scanToken (nested : Scanner → Option Scanner) (s : Scanner) (c : Char) : Option Scanner :=
  let spaced := s.spaceSeen
  let s := { s with spaceSeen := false }
  match s.definedOperator? with
  | some n =>
    some { s.emit .identifier n spaced with definingName := false, expects := .argument }
  | none => s.scanTokenAt nested spaced c

/-- One step of reading. It fails only if `nested` does. -/
def step (nested : Scanner → Option Scanner) (s : Scanner) : Option Step :=
  match s.modes with
  | .literal l :: outer => some (.more (s.scanContent l outer))
  | _ =>
    if s.atTopLine && atEndMarker s.cursor.rest then some (.done s)
    else match s.skipTrivia? with
      | some s => some (.more s)
      | none =>
        match s.cursor.rest with
        | [] => some s.endOfText
        | c :: _ => (s.scanToken nested c).map .more

end RubyCheck.Scanner
