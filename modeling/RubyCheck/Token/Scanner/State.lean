import RubyCheck.Fault
import RubyCheck.Source.Cursor
import RubyCheck.Text.Blank
import RubyCheck.Token.Basic

/-!
# The state of the scanner

Splitting a text into tokens depends on what came before: a slash divides after an operand and opens a
regular expression where an operand is expected, and code stands inside literals inside code. The scanner
keeps what it expects next, a stack of modes for literals and interpolations, and checkpoints at the openers
of literals, so that it can go back to one that never closes and end it on its own line.

A checkpoint keeps the lengths of the stacks, not the stacks: what lies below those lengths does not change
while the opener can still be returned to.
-/

namespace RubyCheck

namespace Scanner

/-- What the scanner expects next. -/
inductive Expectation where
  /-- The beginning of an expression. A slash opens a regular expression; a line break means nothing. -/
  | operand
  /-- Behind a keyword such as `return`: an operand on the same line, or nothing. -/
  | maybeOperand
  /-- Behind a method name: an operand set off by a blank may begin an argument. -/
  | argument
  /-- Behind a complete operand. -/
  | operator
  /-- Behind `def` or a dot: the next name is a method's, even if it is a keyword. -/
  | methodName
deriving DecidableEq, Inhabited, Repr

/-- What sort of literal is open. -/
inductive Flavor where
  | string
  | regex
  | heredoc
deriving DecidableEq, Inhabited, Repr

/-- The fault of a literal that never closes. -/
def Flavor.unterminated : Flavor → Fault.Cause
  | regex => .unterminatedRegex
  | string | heredoc => .unterminatedString

/-- A literal whose end has not been reached. -/
structure OpenLiteral where
  flavor : Flavor
  /-- The opening bracket, if the delimiters are a pair of brackets that nest. -/
  bracket : Option Char
  /-- The closing delimiter. The body of a heredoc has none and ends with its range. -/
  close : Option Char
  interpolates : Bool
  /-- The span of the opener, where the literal is reported if it never closes. -/
  opener : Span
  /-- The literal ends at the next line break. -/
  singleLine : Bool
  hasNewline : Bool
  /-- How many inner brackets are open. -/
  nesting : Nat
deriving DecidableEq, Inhabited, Repr

/-- What is being read: code, or the inside of a literal. -/
inductive Mode where
  /-- Code, with the number of braces open in it. -/
  | code (braceDepth : Nat)
  | literal (l : OpenLiteral)
deriving DecidableEq, Inhabited, Repr

/-- What it takes to go back to the opener of a literal. -/
structure Checkpoint where
  cursor : Cursor
  /-- How many tokens there were. -/
  tokens : Nat
  /-- How many faults there were. -/
  faults : Nat
  /-- How many modes there were. -/
  modes : Nat
  /-- The innermost two modes, the only ones that may have changed since. -/
  topModes : List Mode
  /-- How many literals were open. -/
  depth : Nat
  resume : Option Cursor
  expects : Expectation
  spaced : Bool
  /-- The byte offset of the opener. -/
  opener : Nat
  /-- The line of the opener. -/
  line : Nat
deriving Inhabited

end Scanner

open Scanner in
/-- The state of the scanner. Every stack has its newest entry first. -/
structure Scanner where
  cursor : Cursor
  tokens : List Token
  faults : List Fault
  modes : List Mode
  expects : Expectation
  /-- A blank or a comment was passed since the last token. -/
  spaceSeen : Bool
  /-- Between `def` and the end of the name it defines. -/
  definingName : Bool
  /-- Between the bars of block parameters. -/
  inBlockParameters : Bool
  /-- The body of a heredoc is read: literals are not gone back to, and the text has no end marker. -/
  inBody : Bool
  /-- Names seen on the left of an assignment or as block parameters; behind them a slash divides. -/
  locals : List String
  openLiterals : List Checkpoint
  /-- The last string that closed after spanning a line break. -/
  lastMultiline : Option Checkpoint
  /-- The byte offsets of openers whose literals end on their own line. -/
  singleLine : List Nat
  /-- Where reading goes on behind the current line, if bodies of heredocs follow it. -/
  resume : Option Cursor
deriving Inhabited

namespace Scanner

/-- A scanner about to read code at a cursor. -/
def ofCursor (c : Cursor) : Scanner where
  cursor := c
  tokens := []
  faults := []
  modes := [.code 0]
  expects := .operand
  spaceSeen := false
  definingName := false
  inBlockParameters := false
  inBody := false
  locals := []
  openLiterals := []
  lastMultiline := none
  singleLine := []
  resume := none

/-- A scanner at the beginning of a text. -/
def ofText (source : List Char) : Scanner := .ofCursor (.ofText source)

/-- The oldest `n` entries of a stack. -/
def keepOldest {α : Type} (n : Nat) (stack : List α) : List α :=
  stack.drop (stack.length - n)

@[simp] theorem keepOldest_append {α : Type} (newer older : List α) :
    keepOldest older.length (newer ++ older) = older := by
  simp [keepOldest]

/-! ### Reading -/

/-- The span of the next `n` characters. -/
def spanOf (s : Scanner) (n : Nat) : Span :=
  ⟨s.cursor.position, (Cursor.advanceBy n s.cursor).position⟩

/-- The text of the next `n` characters. -/
def textOf (s : Scanner) (n : Nat) : String := String.ofList (s.cursor.rest.take n)

/-- Reads `n` characters without a token. -/
def skip (s : Scanner) (n : Nat) : Scanner :=
  { s with cursor := Cursor.advanceBy n s.cursor }

/-- Reads the next `n` characters as one token. -/
def emitFlagged (s : Scanner) (kind : TokenKind) (n : Nat) (spaced ambiguous : Bool) : Scanner :=
  { s with
    cursor := Cursor.advanceBy n s.cursor
    tokens := ⟨kind, s.textOf n, s.spanOf n, spaced, ambiguous⟩ :: s.tokens }

/-- Reads the next `n` characters as one token without doubt about its kind. -/
def emit (s : Scanner) (kind : TokenKind) (n : Nat) (spaced : Bool) : Scanner :=
  s.emitFlagged kind n spaced false

/-- Adds a token for a delimiter that the text never wrote. -/
def emitEmpty (s : Scanner) (kind : TokenKind) (at_ : Position) : Scanner :=
  { s with tokens := .empty kind at_ :: s.tokens }

/-- Records a fault. -/
def complain (s : Scanner) (cause : Fault.Cause) (span : Span) : Scanner :=
  { s with faults := ⟨cause, span⟩ :: s.faults }

/-- The same scanner with another expectation. -/
def expecting (s : Scanner) (e : Expectation) : Scanner := { s with expects := e }

/-- The kind of the last token. -/
def lastKind? (s : Scanner) : Option TokenKind := s.tokens.head?.map (·.kind)

/-- Whether a value, not an operator, may begin here. In argument position a blank before and none behind
(`foo -1`, `p /x/`) begin an argument. -/
def valueExpected (s : Scanner) (spaced : Bool) : Bool :=
  match s.expects with
  | .operand | .maybeOperand => true
  | .argument => spaced && followedTightly (s.cursor.peekAt 1)
  | .operator | .methodName => false
where
  /-- Whether the character behind the first one is neither a blank nor an equals sign. -/
  followedTightly : Option Char → Bool
    | some c => !Text.isBlank c && c != '='
    | none => false

end Scanner

end RubyCheck
