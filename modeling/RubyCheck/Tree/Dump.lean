import RubyCheck.Text.Quoted
import RubyCheck.Tree.Basic

/-!
# Trees written out

A tree is written with one line for each node in pre-order, two blanks in front for each level, with the
kind, the text between quotes if there is one, and the span.
-/

namespace RubyCheck

namespace Node

/-- The text of a node as a dump shows it, with a blank in front. -/
def quotedText (n : Node) : String :=
  match n.text with
  | some text => " " ++ String.ofList (Text.quote text.toList)
  | none => ""

/-- The blanks in front of a line. -/
def indentation (depth : Nat) : String := String.ofList (List.replicate (2 * depth) ' ')

/-- The line of a node. -/
def dumpLine (depth : Nat) (n : Node) : String :=
  indentation depth ++ n.kind.name ++ n.quotedText ++
    s!" {n.span.start.shown}-{n.span.stop.shown}\n"

/-- A tree written out. -/
def dump (n : Node) : String := String.join (n.listing.map fun p => p.2.dumpLine p.1)

end Node

end RubyCheck
