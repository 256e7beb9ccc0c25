import RubyCheck.Source.Position

/-!
# Faults

What is wrong with a source text: a cause and the span it is reported at. Faults never end the reading of a
text; they are collected next to the result. A cause is *lexical* if it is found while the text is split
into tokens, and every other one is found while tokens are put together.
-/

namespace RubyCheck

/-- Why a source text is faulty. -/
inductive Fault.Cause where
  /-- A token that cannot stand here. -/
  | unexpectedToken (found expected : String)
  /-- The tokens ran out in the middle of a construct. -/
  | unexpectedEnd (expected : String)
  /-- An opener was never closed: the tokens ran out, or a line break cut the construct short. -/
  | unclosed (opener closer : String) (atEnd : Bool)
  /-- A condition is followed by neither `then` nor a line break. -/
  | missingSeparator (keyword : String)
  /-- Block parameters stand behind a call without `do` or a brace. -/
  | missingBlockOpener
  /-- The left side of an assignment is no target. -/
  | cannotAssign (target : String)
  /-- Nesting went past the limit. -/
  | nestingTooDeep (limit : Nat)
  /-- A string literal without its closing quote. -/
  | unterminatedString
  /-- A regular expression literal without its closing delimiter. -/
  | unterminatedRegex
  /-- A heredoc whose terminator line never comes. -/
  | unterminatedHeredoc (terminator : String)
  /-- An embedded document without its last line. -/
  | unterminatedComment
  /-- A malformed numeric literal. -/
  | invalidNumber (text : String)
  /-- A character that begins no token. -/
  | unexpectedCharacter (char : Char)
deriving DecidableEq, Inhabited, Repr

/-- A cause and where it is reported. -/
structure Fault where
  cause : Fault.Cause
  span : Span
deriving DecidableEq, Inhabited, Repr

namespace Fault

/-- Whether a cause is found while the text is split into tokens. -/
def Cause.isLexical : Cause → Bool
  | unterminatedString | unterminatedRegex | unterminatedHeredoc _ | unterminatedComment
  | invalidNumber _ | unexpectedCharacter _ => true
  | _ => false

/-- The wording of a cause. -/
def Cause.message : Cause → String
  | unexpectedToken found expected => s!"unexpected `{found}`, expected {expected}"
  | unexpectedEnd expected => s!"unexpected end of input, expected {expected}"
  | unclosed opener closer true => s!"unexpected end of input, expected `{closer}` to close `{opener}`"
  | unclosed opener closer false => s!"unclosed `{opener}`, expected `{closer}` before line break"
  | missingSeparator keyword => s!"expected `then` or newline after `{keyword}` condition"
  | missingBlockOpener => "expected `do` or `\x7b` before block parameters"
  | cannotAssign target => s!"cannot assign to {target}"
  | nestingTooDeep limit => s!"nesting too deep (limit {limit})"
  | unterminatedString => "unterminated string literal"
  | unterminatedRegex => "unterminated regexp literal"
  | unterminatedHeredoc terminator => s!"unterminated heredoc, expected `{terminator}`"
  | unterminatedComment => "embedded document meets end of input, expected `=end`"
  | invalidNumber text => s!"invalid number `{text}`"
  | unexpectedCharacter char => s!"unexpected character `{char}`"

/-- Whether a fault is found while the text is split into tokens. -/
def isLexical (f : Fault) : Bool := f.cause.isLexical

/-- A fault as it is shown on its own: the wording and the place where its span begins. -/
def shown (f : Fault) : String :=
  s!"{f.cause.message} at {f.span.start.shown}"

end Fault

end RubyCheck
