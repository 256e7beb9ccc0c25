import RubyCheck.Finding
import RubyCheck.Token.Basic

/-!
# What single tokens show

Two rules look at nothing but a token: a regular expression that could have been a division, and an integer
that a leading zero makes octal. Tokens in a region that was given up are not looked at.
-/

namespace RubyCheck.Analysis

/-- What a token shows. -/
def tokenFinding? (t : Token) : Option Finding :=
  match t.kind with
  | .regexBegin => if t.ambiguous then some ⟨.ambiguousRegex, t.span.start⟩ else none
  | .legacyOctal => some ⟨.legacyOctal t.text, t.span.start⟩
  | _ => none

/-- What tokens show that begin in none of some spans. -/
def tokenFindings (given : List Span) (tokens : List Token) : List Finding :=
  (tokens.filter fun t => !given.any (·.contains t.span.start.byte)).filterMap tokenFinding?

end RubyCheck.Analysis
