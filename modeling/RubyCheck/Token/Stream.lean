import RubyCheck.Token.Scanner.Step

/-!
# The tokens of a text

Reading a text repeats the step of the scanner until nothing is left. It always comes to an end: the scanner
moves back only to an opener whose literal then ends on its line, which happens once for each opener, or to
the end of a heredoc that was opened later than the one before. The number of steps allowed is cubic in the
length of the text; the outermost reading and the readings of heredoc bodies inside it share it.
-/

namespace RubyCheck

namespace Scanner

/-- Reads to the end in at most `fuel` steps; none if they do not suffice. -/
def run : Nat → Scanner → Option Scanner
  | 0, _ => none
  | fuel + 1, s =>
    match s.step (run fuel) with
    | none => none
    | some (.done s) => some s
    | some (.more s) => run fuel s

/-- More steps than reading a text of this length takes. -/
def stepsFor (length : Nat) : Nat := 16 * ((length + 2) * (length + 2) * (length + 2))

/-- Reads to the end. -/
def finish (s : Scanner) : Option Scanner := run (stepsFor s.cursor.rest.length) s

end Scanner

/-- The tokens of a text and what is wrong with it as far as tokens go. -/
structure TokenStream where
  /-- Every token, in order; the last one, and no other, is the end of the text. -/
  tokens : List Token
  /-- The lexical faults, in the order they were found. -/
  faults : List Fault
deriving DecidableEq, Inhabited, Repr

namespace TokenStream

/-- The token at the end of a text. -/
def endToken (at_ : Position) : Token := { Token.empty .eof at_ with spaced := true }

/-- The tokens that a scanner has read, and the end of the text where it stands. -/
def ofScanner (s : Scanner) : TokenStream where
  tokens := (endToken s.cursor.position :: s.tokens).reverse
  faults := s.faults.reverse

/-- Splits a text into tokens. -/
def ofText (source : List Char) : TokenStream :=
  ((Scanner.ofText source).finish.map ofScanner).getD ⟨[endToken .origin], []⟩

end TokenStream

end RubyCheck
