import RubyCheck.Grammar.Argument
import RubyCheck.Source.Slice

/-!
# Literals

Strings and regular expressions with the code inside them, symbols, arrays, hashes and statements in
parentheses.
-/

namespace RubyCheck.Grammar

/-! ### Text -/

/-- Code inside a literal. -/
def interpolation (g : Grammar) : Parser Node := do
  let start ← here
  drop
  let statements ← allowingDo (g.parse (.statements [.interpolationEnd]))
  discard <| expect .interpolationEnd
  finish .interpolation start [statements]

/-- One piece of a literal behind the content and the code read so far, or its end. -/
def piece (g : Grammar) (seen : String × List Node) :
    Parser (Round (String × List Node) (String × List Node)) := do
  match ← kind with
  | .stringContent => return .again (seen.1 ++ (← advance).text, seen.2)
  | .interpolationBegin => return .again (seen.1, (← interpolation g) :: seen.2)
  | .stringEnd =>
    drop
    return .done (seen.1, seen.2.reverse)
  | _ => refuse "end of string"

/-- A string or regular expression. Its text is its content, unless code stands in it. -/
def quoted (g : Grammar) (k : NodeKind) : Parser Node := do
  let start ← here
  drop
  let (content, code) ← iterate (piece g) g.rounds ("", [])
  if code.isEmpty then finishNamed k start content [] else finish k start code

/-- A text without the quote at its beginning and the one at its end, if it has both. -/
def unquoted (name : List Char) : List Char :=
  match name with
  | [] => name
  | first :: rest =>
    if isQuote first && rest.getLast?.any isQuote then rest.dropLast else name
where
  /-- Whether a character quotes a symbol. -/
  isQuote (c : Char) : Bool := c == '"' || c == '\''

/-- The name of a symbol: what is written without the colon, quotes or percent form. -/
def symbolName (text : String) : String :=
  match text.toList with
  | '%' :: 's' :: rest =>
    String.ofList ((Source.slice? rest 1 (Source.byteLength rest - 1)).getD [])
  | ':' :: name => String.ofList (unquoted name)
  | name => String.ofList (unquoted name)

/-- A percent literal that is one token: a string, or a list of words. -/
def percentLiteral : Parser Node := do
  let text := (← advance).text
  leaf (if text.startsWith "%q" then .string else .words) text

/-- A symbol. -/
def symbol : Parser Node := do
  leaf .symbol (symbolName (← advance).text)

/-! ### Brackets -/

/-- An array. -/
def array (g : Grammar) : Parser Node := do
  let opener ← advance
  let nodes ← allowingDo (items g opener (.punct .rBracket) (g.parse .argument))
  finish .array opener.span.start nodes

/-- A key with its value, or a hash to be merged. -/
def hashItem (g : Grammar) : Parser Node := do
  let start ← here
  match ← kind with
  | .label => labelPair g
  | .punct .pow =>
    drop
    finish .doubleSplat start [← g.parse .ternary]
  | _ =>
    let key ← g.parse .expression
    discard <| expect (.punct .fatArrow)
    skipBreaks
    finish .pair start [key, ← g.parse .expression]

/-- A hash. -/
def hash (g : Grammar) : Parser Node := do
  let opener ← advance
  let nodes ← allowingDo (items g opener (.punct .rBrace) (hashItem g))
  finish .hash opener.span.start nodes

/-- Statements in parentheses. -/
def paren (g : Grammar) : Parser Node := do
  let opener ← advance
  let statements ← allowingDo (g.parse (.statements [.punct .rParen]))
  expectCloser opener (.punct .rParen)
  finish .paren opener.span.start [statements]

end RubyCheck.Grammar
