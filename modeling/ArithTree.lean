import ArithTree.Cli.Command
import ArithTree.Cli.Outcome
import ArithTree.Expr.Bracketed
import ArithTree.Main
import ArithTree.Proofs.Akin
import ArithTree.Proofs.Bracketed
import ArithTree.Proofs.Cli.File
import ArithTree.Proofs.Cli.Input
import ArithTree.Proofs.Cli.Interleaving
import ArithTree.Proofs.Cli.Stages
import ArithTree.Proofs.Cli.Verbose
import ArithTree.Proofs.Compact
import ArithTree.Proofs.Compile
import ArithTree.Proofs.Compile.Conservation
import ArithTree.Proofs.Compile.Legible
import ArithTree.Proofs.Compile.Products
import ArithTree.Proofs.Diagnostic
import ArithTree.Proofs.Grammar.Sound
import ArithTree.Proofs.Join
import ArithTree.Proofs.Layout.Numbers
import ArithTree.Proofs.Layout.Spread
import ArithTree.Proofs.Parentheses.Faults
import ArithTree.Proofs.Postfix.Conserved
import ArithTree.Proofs.Postfix.Group
import ArithTree.Proofs.Postfix.Height
import ArithTree.Proofs.Postfix.Stack
import ArithTree.Proofs.Scan
import ArithTree.Proofs.Scan.Spacing
import ArithTree.Proofs.Source
import ArithTree.Proofs.Source.Leftmost
import ArithTree.Proofs.Split
import ArithTree.Proofs.Text
import ArithTree.Proofs.VersionFile
import ArithTree.Proofs.VersionFile.Written
import ArithTree.VersionFile
