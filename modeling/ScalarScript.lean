import ScalarScript.Main
import ScalarScript.Proofs.Console.Lines
import ScalarScript.Proofs.Text.LineMap
import ScalarScript.Proofs.Token.Literals
import ScalarScript.Proofs.Token.Longest
import ScalarScript.Proofs.Token.Lossless
import ScalarScript.Proofs.Tree.Acceptance
import ScalarScript.Proofs.Tree.Balance
import ScalarScript.Proofs.Tree.Grouping
import ScalarScript.Proofs.Tree.Missing
import ScalarScript.Proofs.Tree.Nesting
import ScalarScript.Proofs.Tree.Relining
import ScalarScript.Proofs.Tree.Roundtrip
import ScalarScript.Proofs.Running.Arithmetic
import ScalarScript.Proofs.Running.Converting
import ScalarScript.Proofs.Running.Counting
import ScalarScript.Proofs.Running.Ending
import ScalarScript.Proofs.Running.Locality
import ScalarScript.Proofs.Typing.Pieces
import ScalarScript.Proofs.Mistakes.Replaced
import ScalarScript.Proofs.Names.Snapshots
import ScalarScript.Proofs.Scope.Operations
import ScalarScript.Proofs.Session.Assignment
import ScalarScript.Proofs.Session.Blocks
import ScalarScript.Proofs.Session.Drawing
import ScalarScript.Proofs.Session.Frame
import ScalarScript.Proofs.Session.Gate
import ScalarScript.Proofs.Session.Histories
import ScalarScript.Proofs.Session.Leftovers
import ScalarScript.Proofs.Session.Locating
import ScalarScript.Proofs.Session.Messages
import ScalarScript.Proofs.Session.Numbering
