import RubyCheck.Grammar.Goal

/-!
# Items between brackets

Arguments, elements, pairs and parameters stand between brackets with commas between them, over several
lines if need be. A line break behind an item that is followed by neither a comma nor the closer ends the
list: the opener is reported once as unclosed, and what follows is read as the next statement.
-/

namespace RubyCheck.Grammar

/-- What stands behind an item and a line break. -/
def behindBreak (opener : Token) (closer : TokenKind) (seen : List Node) :
    Parser (Round (List Node) (List Node)) := do
  let k ← view (·.tape.kindBehindBreaks)
  if k == closer then return .again seen
  else if k == .punct .comma then
    skipBreaks
    drop
    return .again seen
  else if k == .eof then fail (unclosed opener closer true)
  else
    report (unclosed opener closer false)
    return .done seen.reverse

/-- What stands behind an item. -/
def behindItem (opener : Token) (closer : TokenKind) (seen : List Node) :
    Parser (Round (List Node) (List Node)) := do
  let k ← kind
  if k == .punct .comma then
    drop
    return .again seen
  else if k == closer then return .again seen
  else if k == .newline then behindBreak opener closer seen
  else if k == .eof then fail (unclosed opener closer true)
  else refuse s!"`,` or `{closer.display}`"

/-- One item, or the closer. -/
def itemOrCloser (opener : Token) (closer : TokenKind) (item : Parser Node) (seen : List Node) :
    Parser (Round (List Node) (List Node)) := do
  skipBreaks
  if ← accept closer then return .done seen.reverse
  else if ← atEnd then fail (unclosed opener closer true)
  else behindItem opener closer ((← item) :: seen)

/-- The items behind an opener, with their closer. -/
def items (g : Grammar) (opener : Token) (closer : TokenKind) (item : Parser Node) :
    Parser (List Node) :=
  iterate (itemOrCloser opener closer item) g.rounds []

end RubyCheck.Grammar
