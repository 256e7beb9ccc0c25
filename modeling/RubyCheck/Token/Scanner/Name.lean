import RubyCheck.Text.Capital
import RubyCheck.Token.Scanner.State

/-!
# Names, variables and symbols

A name is a keyword, a constant, a label, a method name or a variable, depending on its spelling and on what
stands around it. Names that are assigned on the same line, and the names between the bars of block
parameters, are remembered as variables: behind them a slash divides.
-/

namespace RubyCheck.Scanner

open Text

/-! ### Names -/

/-- What the scanner expects behind a keyword. -/
def afterKeyword : Keyword → Expectation
  | .end_ | .self_ | .nil_ | .true_ | .false_ | .redo_ | .retry_ | .beginHook | .endHook => .operator
  | .return_ | .break_ | .next_ | .yield_ | .super_ | .rescue_ | .defined_ => .maybeOperand
  | .def_ | .alias_ | .undef_ => .methodName
  | _ => .operand

/-- The operators that assign with an operation when they follow a name. -/
def compoundAssignments : List (List Char) :=
  ["+=", "-=", "*=", "/=", "||=", "&&=", "<<=", "**=", "%=", "|=", "&="].map String.toList

/-- Whether a text, behind spaces and tabs, begins with an assignment. -/
def assigns (cs : List Char) : Bool :=
  match cs.dropWhile fun c => c == ' ' || c == '\t' with
  | '=' :: c :: _ => !(c == '=' || c == '~' || c == '>')
  | ['='] => true
  | rest => compoundAssignments.any (·.isPrefixOf rest)

/-- The length of the name that a text begins with, with a question or exclamation mark that belongs to
it. -/
def nameLength (cs : List Char) : Nat :=
  let n := (cs.takeWhile continuesName).length
  match cs.drop n with
  | '?' :: '=' :: _ | '!' :: '=' :: _ => n
  | '?' :: _ | '!' :: _ => n + 1
  | _ => n

/-- Remembers a name as a variable. -/
def remember (s : Scanner) (name : String) : Scanner :=
  if s.locals.contains name then s else { s with locals := name :: s.locals }

/-- Whether the next name is called on a receiver. -/
def behindDot (s : Scanner) : Bool := s.expects == .methodName && !s.definingName

/-- Whether a name may be the key of a pair if a colon follows it. -/
def labelAllowed (s : Scanner) : Bool :=
  !s.behindDot && !s.definingName && s.expects != .operator

/-- Reads a name that is no keyword. -/
def scanPlainName (s : Scanner) (n : Nat) (spaced dotFollows : Bool) : Scanner :=
  let name := s.textOf n
  let isConstant := s.cursor.rest.head?.any isCapital
  let after := s.emit (if isConstant then .constant else .identifier) n spaced
  if s.definingName then { after with definingName := dotFollows, expects := .argument }
  else if s.behindDot then after.expecting .argument
  else if isConstant then after.expecting .operator
  else
    let known :=
      if s.inBlockParameters || assigns after.cursor.rest then after.remember name else after
    known.expecting (if known.locals.contains name then .operator else .argument)

/-- The keyword that a name of `n` characters is here. Behind a dot no name is a keyword, and behind `def`
only the receiver `self` is. -/
def keywordHere? (s : Scanner) (n : Nat) (dotFollows : Bool) : Option Keyword :=
  let name := s.textOf n
  if s.behindDot || (s.definingName && !(name == "self" && dotFollows)) then none
  else Keyword.ofText? name

/-- Reads a name, whatever it is. -/
def scanName (s : Scanner) (spaced : Bool) : Scanner :=
  let rest := s.cursor.rest
  let n := nameLength rest
  let behind := rest.drop n
  if s.labelAllowed && behind.head? == some ':' && behind.tail.head? != some ':' then
    (s.emit .label (n + 1) spaced).expecting .operand
  else
    let n := if s.definingName && "=(".toList.isPrefixOf behind then n + 1 else n
    let dotFollows := (rest.drop n).head? == some '.'
    match s.keywordHere? n dotFollows with
    | some word =>
      { s.emit (.keyword word) n spaced with
        definingName := word == .def_ || (s.definingName && word == .self_)
        expects := afterKeyword word }
    | none => s.scanPlainName n spaced dotFollows

/-! ### Variables -/

/-- Reads an instance or class variable. A sign without a name is a fault. -/
def scanSigil (s : Scanner) (spaced : Bool) : Scanner :=
  let (kind, sigils) :=
    if s.cursor.peekAt 1 == some '@' then (TokenKind.classVariable, 2)
    else (TokenKind.instanceVariable, 1)
  let name := s.cursor.rest.drop sigils
  if name.head?.any startsName then
    (s.emit kind (sigils + (name.takeWhile continuesName).length) spaced).expecting .operator
  else (s.complain (.unexpectedCharacter '@') (s.spanOf sigils)).skip sigils

/-- The length of the name of a global variable, without its sign: a name, digits, an option letter behind
a hyphen, or one of the special signs. -/
def globalNameLength? : List Char → Option Nat
  | [] => none
  | c :: cs =>
    if startsName c then some ((c :: cs).takeWhile continuesName).length
    else if isAsciiDigit c then some ((c :: cs).takeWhile isAsciiDigit).length
    else if c = '-' then some (if cs.head?.any continuesName then 2 else 1)
    else if "!@&`'+~=/\\,;.<>*$?:\"".toList.contains c then some 1
    else none

/-- Reads a global variable. A sign without a name is a fault. -/
def scanGlobal (s : Scanner) (spaced : Bool) : Scanner :=
  match globalNameLength? s.cursor.rest.tail with
  | some n => (s.emit .globalVariable (n + 1) spaced).expecting .operator
  | none => (s.complain (.unexpectedCharacter '$') (s.spanOf 1)).skip 1

/-! ### Symbols and characters -/

/-- The operators that can be symbols, with no operator behind one that it begins with. -/
def symbolOperators : List (List Char) :=
  ["[]=", "<=>", "===", "[]", "==", "=~", "!~", "!=", "<<", ">>", "<=", ">=", "**", "+@", "-@",
    "+", "-", "*", "/", "%", "<", ">", "!", "&", "|", "^", "~"].map String.toList

/-- How far a quoted text reaches, counted on from `n`, over its closing quote, and whether that quote was
found. A backslash takes the next character with it. -/
def quotedEnd (quote : Char) (n : Nat) : List Char → Nat × Bool
  | [] => (n, false)
  | ['\\'] => (n + 1, false)
  | '\\' :: _ :: cs => quotedEnd quote (n + 2) cs
  | c :: cs => if c = quote then (n + 1, true) else quotedEnd quote (n + 1) cs

/-- The length of a symbol made of a name, with the mark or equals sign that belongs to it. -/
def symbolNameLength (cs : List Char) : Nat :=
  let n := (cs.takeWhile continuesName).length
  match cs.drop n with
  | '?' :: '=' :: _ | '!' :: '=' :: _ => n
  | '?' :: _ | '!' :: _ => n + 1
  | '=' :: '=' :: _ | '=' :: '~' :: _ | '=' :: '>' :: _ => n
  | '=' :: _ => n + 1
  | _ => n

/-- The length of the symbol that a text begins with, without its colon, and whether it is complete; none
if the colon begins no symbol. -/
def symbolLength? : List Char → Option (Nat × Bool)
  | [] => none
  | c :: cs =>
    if startsName c then some (symbolNameLength (c :: cs), true)
    else if c = '@' || c = '$' then
      let sigils := if c = '@' && cs.head? == some '@' then 2 else 1
      let name := (c :: cs).drop sigils
      if name.head?.any startsName then
        some (sigils + (name.takeWhile continuesName).length, true)
      else none
    else if c = '"' || c = '\'' then some (quotedEnd c 1 cs)
    else (symbolOperators.find? (·.isPrefixOf (c :: cs))).map fun op => (op.length, true)

/-- Reads a symbol, if the colon begins one. Behind the first symbol of an `alias` another method name is
expected. -/
def scanSymbol? (s : Scanner) (spaced : Bool) : Option Scanner :=
  (symbolLength? s.cursor.rest.tail).map fun (n, complete) =>
    let aliasing := s.lastKind? == some (.keyword .alias_)
    let s := if complete then s else s.complain .unterminatedString (s.spanOf (n + 1))
    (s.emit .symbol (n + 1) spaced).expecting (if aliasing then .methodName else .operator)

/-- The length of the character literal that a text begins with, if the question mark begins one. -/
def characterLength? : List Char → Option Nat
  | _ :: c :: cs =>
    if isBlank c then none
    else if c = '\\' then some (2 + min 1 cs.length)
    else if cs.head?.any continuesName then none
    else some 2
  | _ => none

/-- Reads a character literal, if the question mark begins one. -/
def scanCharacter? (s : Scanner) (spaced : Bool) : Option Scanner :=
  (characterLength? s.cursor.rest).map fun n =>
    (s.emit .character n spaced).expecting .operator

end RubyCheck.Scanner
