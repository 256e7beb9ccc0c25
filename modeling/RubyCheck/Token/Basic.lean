import RubyCheck.Source.Position
import RubyCheck.Token.Kind

/-!
# Tokens

A token is a piece of a source text with its kind, its exact text and the span it covers. Two flags keep
what the text around it decided: whether a blank stood before it, and whether a regular expression could
also have been read as a division.
-/

namespace RubyCheck

/-- A piece of a source text. -/
structure Token where
  kind : TokenKind
  /-- The text of the token, as written. -/
  text : String
  span : Span
  /-- A blank or a comment precedes the token on its line. -/
  spaced : Bool
  /-- A regular expression that could also have been read as a division. -/
  ambiguous : Bool
deriving DecidableEq, Inhabited, Repr

namespace Token

/-- An empty token at a position: the end of the text, or a delimiter that the text never wrote. -/
def empty (kind : TokenKind) (at_ : Position) : Token where
  kind := kind
  text := ""
  span := .point at_
  spaced := false
  ambiguous := false

/-- Whether a token is the end of the text. -/
def isEof (t : Token) : Bool := t.kind == .eof

/-- What a message calls a token: its text, or the name of its kind if the text says nothing. -/
def describe (t : Token) : String :=
  match t.kind with
  | .newline | .eof => t.kind.display
  | _ => if t.text.isEmpty then t.kind.display else t.text

end Token

end RubyCheck
