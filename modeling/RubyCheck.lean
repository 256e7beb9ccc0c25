import RubyCheck.Main
import RubyCheck.Proofs.Analysis.Distinct
import RubyCheck.Proofs.Analysis.Parameter
import RubyCheck.Proofs.Analysis.Repeated
import RubyCheck.Proofs.Analysis.Shape
import RubyCheck.Proofs.Analysis.Subject
import RubyCheck.Proofs.Analysis.Value
import RubyCheck.Proofs.Bounds
import RubyCheck.Proofs.Check
import RubyCheck.Proofs.FirstLines
import RubyCheck.Proofs.Grammar.Returning
import RubyCheck.Proofs.Heredoc
import RubyCheck.Proofs.Host
import RubyCheck.Proofs.Limits
import RubyCheck.Proofs.LineEnd
import RubyCheck.Proofs.Lower.Check
import RubyCheck.Proofs.Number.Scanned
import RubyCheck.Proofs.Position
import RubyCheck.Proofs.Recovery
import RubyCheck.Proofs.Report
import RubyCheck.Proofs.Scope.Isolation
import RubyCheck.Proofs.Tree.Dump
