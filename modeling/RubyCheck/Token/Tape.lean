import RubyCheck.Token.Basic

/-!
# A tape of tokens

The tokens of a text seen from the point where reading stands: the one just consumed, the current one and
those ahead. The last token of a tape is the end of the text; reading never moves past an end.
-/

namespace RubyCheck

/-- The tokens of a text from the point where reading stands. -/
structure Tape where
  /-- The token that was consumed last. -/
  consumed : Option Token
  current : Token
  /-- The tokens behind the current one. -/
  ahead : List Token
deriving Inhabited, Repr

namespace Tape

/-- The end of the text that tokens still need if the last of them is none. -/
def ending (last : Token) : List Token :=
  if last.isEof then [] else [.empty .eof last.span.stop]

/-- A tape at the first of some tokens. A missing end of the text is supplied. -/
def ofTokens : List Token → Tape
  | [] => ⟨none, .empty .eof .origin, []⟩
  | t :: ts => ⟨none, t, ts ++ ending (ts.getLastD t)⟩

/-- The kind of the current token. -/
def kind (t : Tape) : TokenKind := t.current.kind

/-- The token that was consumed last, or the first one if none was. -/
def previous (t : Tape) : Token := t.consumed.getD t.current

/-- The token behind the current one; the last token follows itself. -/
def next (t : Tape) : Token := t.ahead.headD t.current

/-- Whether no token is left to be consumed. -/
def atEnd (t : Tape) : Bool := t.current.isEof

/-- The tape behind the current token. -/
def advance (t : Tape) : Tape :=
  match t.ahead with
  | [] => t
  | u :: us => if t.atEnd then t else ⟨some t.current, u, us⟩

/-- Passes over tokens as long as their kinds satisfy a condition. -/
def passOver (p : TokenKind → Bool) (t : Tape) : Tape := go t.consumed t.current t.ahead
where
  /-- The same for a tape in parts. -/
  go : Option Token → Token → List Token → Tape
    | consumed, t, [] => ⟨consumed, t, []⟩
    | consumed, t, u :: us => if p t.kind then go (some t) u us else ⟨consumed, t, u :: us⟩

/-- Passes over everything up to the last token. -/
def toLast (t : Tape) : Tape := go t.consumed t.current t.ahead
where
  /-- The same for a tape in parts. -/
  go : Option Token → Token → List Token → Tape
    | consumed, t, [] => ⟨consumed, t, []⟩
    | _, t, u :: us => go (some t) u us

/-- The kind of the first token that is no line break, from the current one on. -/
def kindBehindBreaks (t : Tape) : TokenKind := (t.passOver (· == .newline)).kind

/-- How a token changes the number of open brackets while a faulty statement is skipped. -/
def bracketDepth (depth : Nat) : TokenKind → Nat
  | .punct .lParen | .punct .lBracket | .punct .lBrace => depth + 1
  | .punct .rParen | .punct .rBracket | .punct .rBrace => depth - 1
  | _ => depth

/-- Whether a token of this kind ends a faulty statement and is skipped with it. -/
def endsStatement : TokenKind → Bool
  | .newline | .punct .semicolon => true
  | _ => false

/-- Whether a token of this kind ends a faulty statement in front of it. -/
def beginsDefinition : TokenKind → Bool
  | .keyword .def_ | .keyword .class_ | .keyword .module_ | .keyword .end_ => true
  | _ => false

/-- Skips the rest of a faulty statement: through the next line break or semicolon outside brackets, or up
to a keyword that begins or ends a definition, unless skipping begins at it. -/
def synchronize (t : Tape) : Tape := go 0 false t.consumed t.current t.ahead
where
  /-- The same for a tape in parts, with the number of open brackets and whether anything was skipped. -/
  go (depth : Nat) (moved : Bool) : Option Token → Token → List Token → Tape
    | consumed, t, [] => ⟨consumed, t, []⟩
    | consumed, t, u :: us =>
      if t.isEof || (depth == 0 && moved && beginsDefinition t.kind) then
        ⟨consumed, t, u :: us⟩
      else if depth == 0 && endsStatement t.kind then ⟨some t, u, us⟩
      else go (bracketDepth depth t.kind) true (some t) u us

end Tape

end RubyCheck
