import Abacus.Grammar.Induction
import Abacus.Main
import Abacus.Proofs.Expression.Exact
import Abacus.Proofs.Grammar.Nesting
import Abacus.Proofs.SyntaxTree.NestingLimit
import Abacus.Proofs.Grammar.Recognition
import Abacus.Proofs.Grammar.Emission
import Abacus.Proofs.SyntaxTree.Acceptance
import Abacus.Proofs.Calculation
import Abacus.Proofs.SyntaxTree.Recovery
import Abacus.Proofs.SyntaxTree.Precedence
import Abacus.Proofs.SyntaxTree.Depth
import Abacus.Proofs.Token.Layout
import Abacus.Proofs.SyntaxTree.RoundTrip
import Abacus.Proofs.Relocation
import Abacus.Proofs.Token.Munch
import Abacus.Proofs.SyntaxTree.Blanks
import Abacus.Proofs.SyntaxTree.Compound
import Abacus.Proofs.Session.Conversation
import Abacus.Proofs.CommandLine.Modes
import Abacus.Proofs.Token.Faults
import Abacus.Proofs.Grammar.Faults
import Abacus.Proofs.Grammar.Groups
import Abacus.Proofs.Grammar.Contract
import Abacus.Proofs.SyntaxTree.Blanking
import Abacus.Proofs.SyntaxTree.LeftOver
import Abacus.Proofs.SyntaxTree.DrawnLines
import Abacus.Proofs.CommandLine.Scripts
import Abacus.Proofs.SyntaxTree.FaultCount
import Abacus.Proofs.SyntaxTree.Crossings
