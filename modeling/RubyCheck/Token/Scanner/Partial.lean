import RubyCheck.Number.Bounded
import RubyCheck.Token.Scanner.Heredoc
import RubyCheck.Token.Scanner.Literal
import RubyCheck.Token.Scanner.Trivia

/-!
# What a scanner does by offsets and counts

The few functions of the scanner that could go wrong, as a machine does them: what they cut out of a text
they cut at byte offsets that were searched for, and they take counts off counts. Each gives nothing where
a slice does not exist, because one of its ends is no point of the text, or where a count would be negative.
-/

namespace RubyCheck

/-- The byte offset at which a character first stands in a text. -/
def Source.offsetOf? (c : Char) : List Char → Option Nat
  | [] => none
  | d :: ds => if d = c then some 0 else (offsetOf? c ds).map (d.utf8Size + ·)

/-- What is left behind some bytes is no longer than the text. -/
theorem Source.length_le_of_dropBytes? {cs rest : List Char} {n : Nat}
    (h : Source.dropBytes? cs n = some rest) : rest.length ≤ cs.length := by
  induction cs generalizing n with
  | nil =>
    cases n with
    | zero => cases h; exact Nat.le_refl _
    | succ n => cases h
  | cons c cs ih =>
    cases n with
    | zero => cases h; exact Nat.le_refl _
    | succ n =>
      rw [Source.dropBytes?] at h
      split at h
      · exact Nat.le_succ_of_le (ih h)
      · cases h

namespace Scanner

/-- Whether the next line of code goes on with a method call. A comment is skipped up to the offset of the
line break behind it. -/
def continuesChain? (cs : List Char) : Option Bool :=
  match _htrim : Text.trimLeft cs with
  | '#' :: comment =>
    match Source.offsetOf? '\n' comment with
    | none => some false
    | some offset =>
      match _hrest : Source.dropBytes? comment offset with
      | none => none
      | some rest => continuesChain? rest
  | '.' :: '.' :: _ => some false
  | '.' :: _ => some true
  | '&' :: '.' :: _ => some true
  | _ => some false
termination_by cs.length
decreasing_by
  have hrest := Source.length_le_of_dropBytes? _hrest
  have hlength : (Text.trimLeft cs).length ≤ cs.length := (List.dropWhile_sublist _).length_le
  rw [_htrim, List.length_cons] at hlength
  omega

/-- Whether a line break at this point ends a statement. -/
def newlineMatters? (s : Scanner) : Option Bool :=
  match s.expects with
  | .operator | .argument | .maybeOperand =>
    (continuesChain? ((s.resume.map (·.rest)).getD s.cursor.advance.rest)).map (!·)
  | .operand | .methodName => some false

/-- The terminator between quotes, from the opening quote on: the first byte is cut off, and what is left is
cut in front of the next quote. -/
def terminatorBehind? (quote : Char) (text : List Char) : Option (Option (List Char)) := do
  let quoted ← Source.dropBytes? text 1
  match Source.offsetOf? quote quoted with
  | none => return none
  | some stop =>
    let terminator ← Source.slice? quoted 0 stop
    return if terminator.isEmpty || terminator.contains '\n' then none else some terminator

/-- The heredoc opener that the text ahead begins with. -/
def openerAhead? (s : Scanner) : Option (Option HeredocOpener) :=
  match s.cursor.rest with
  | '<' :: '<' :: after =>
    let indented := after.head?.any fun c => c == '~' || c == '-'
    let marks := if indented then 3 else 2
    match (if indented then after.tail else after) with
    | [] => some none
    | c :: cs =>
      if c = '"' || c = '\'' || c = '\x60' then
        (terminatorBehind? c (c :: cs)).map fun found => found.map fun terminator =>
          ⟨terminator, indented, c != '\'', marks + terminator.length + 2⟩
      else some s.heredocOpener?
  | _ => some none

/-- How far a percent literal without code reaches, and whether its closing delimiter was found. -/
def verbatimEnd? (bracket : Option Char) (close : Char) (nesting n : Nat) :
    List Char → Option (Nat × Bool)
  | [] => some (n, false)
  | ['\\'] => some (n + 1, false)
  | '\\' :: _ :: cs => verbatimEnd? bracket close nesting (n + 2) cs
  | c :: cs =>
    if c = close then
      if nesting = 0 then some (n + 1, true)
      else do verbatimEnd? bracket close (← Number.minus? nesting 1) (n + 1) cs
    else if bracket = some c then verbatimEnd? bracket close (nesting + 1) (n + 1) cs
    else verbatimEnd? bracket close nesting (n + 1) cs

/-- The entries of a stack from an index on, counted from the oldest one; the newest is first again. -/
def fromIndex? {α : Type} (stack : List α) (i : Nat) : Option (List α) :=
  (Number.minus? stack.length i).map stack.take

/-- The checkpoint of a literal about to open at the cursor. -/
def checkpoint? (s : Scanner) (spaced : Bool) : Option Checkpoint :=
  (fromIndex? s.modes (s.modes.length - 2)).map fun top => { s.checkpoint spaced with topModes := top }

/-- The scanner as it was at a checkpoint. -/
def restore? (s : Scanner) (c : Checkpoint) : Option Scanner :=
  (Number.minus? c.modes c.topModes.length).map fun kept =>
    { s.restore c with modes := c.topModes ++ keepOldest kept s.modes }

/-- What happens where the text runs out. -/
def endOfText? (s : Scanner) : Option Step :=
  match s.rewindTarget? with
  | some c =>
    if s.inBody || s.modes.length ≤ 1 then some s.endOfText
    else ((s.endOnItsLine c.opener).restore? c).map .more
  | none => some s.endOfText

end Scanner

end RubyCheck
