import RubyCheck.Analysis.Run
import RubyCheck.Grammar.Program
import RubyCheck.Report.Basic
import RubyCheck.Tree.Dump

/-!
# Checking a text

The whole way from a text to its report: tokens, tree, findings.
-/

namespace RubyCheck

/-- A text that was read: its tokens and its tree. -/
structure Reading where
  stream : TokenStream
  tree : SyntaxTree
deriving Inhabited

namespace Reading

/-- Reads a text. -/
def ofText (limits : Limits) (source : List Char) : Reading :=
  let stream := TokenStream.ofText source
  ⟨stream, .ofStream limits stream⟩

/-- What the rules find in a text. -/
def findings (r : Reading) : List Finding := Analysis.findings r.tree r.stream.tokens

/-- The report of a text, with its tree if that is asked for. -/
def report (r : Reading) (withDump : Bool) : Report :=
  .of (r.tree.faults.map .ofFault) (r.findings.map .ofFinding)
    (if withDump then some r.tree.root.dump else none)

end Reading

/-- Checks a text. -/
def check (source : List Char) (withDump : Bool) : Report :=
  (Reading.ofText .standard source).report withDump

end RubyCheck
