import Precedence.CommandLine.Run
import Precedence.Grammar.Derivation
import Precedence.Lexeme.Scan
import Precedence.Main
import Precedence.Parser.Trace
import Precedence.Relations.EdgePath
import Precedence.Sample
import Precedence.Proofs.Grammar.Accepted
import Precedence.Proofs.Relations.EdgeSet
import Precedence.Proofs.Relations.Facts
import Precedence.Proofs.Relations.Expansion
import Precedence.Proofs.Relations.EdgeDerivation
import Precedence.Proofs.ActionTable
import Precedence.Proofs.Relations.Conflicts
import Precedence.Proofs.Lexeme.Supply
import Precedence.Proofs.Parser.Transition
import Precedence.Proofs.Parser.Simulation
import Precedence.Proofs.Parser.Handle
import Precedence.Proofs.SyntaxTree.Replay
import Precedence.Proofs.SyntaxTree.Correspondence
import Precedence.Proofs.Parser.Stack
import Precedence.Proofs.Parser.Soundness
import Precedence.Proofs.Grammar.UnitStep
import Precedence.Proofs.Parser.Termination
import Precedence.Proofs.Parser.WeakPrecedence
import Precedence.Proofs.Parser.Completeness
import Precedence.Proofs.Lexeme.Classified
import Precedence.Proofs.Lexeme.Source
import Precedence.Proofs.Lexeme.LineByLine
import Precedence.Proofs.Analysis
import Precedence.Proofs.Parser.PlanTable
import Precedence.Proofs.Parser.Arithmetic
import Precedence.Proofs.Parser.Repetition
import Precedence.Proofs.Parser.Coverage
import Precedence.Proofs.Parser.Rebuilding
import Precedence.Proofs.Parser.InsertionLimit
import Precedence.Proofs.Relations.SententialForm
import Precedence.Proofs.Dependence
import Precedence.Proofs.Lexeme.Scan
import Precedence.Proofs.Lexeme.Interning
import Precedence.Proofs.Lexeme.Session
import Precedence.Proofs.Lexeme.Agreement
import Precedence.Proofs.Lexeme.Placement
import Precedence.Proofs.Lexeme.Spacing
import Precedence.Proofs.Parser.Reading
import Precedence.Proofs.Parser.Reduction
import Precedence.Proofs.Parser.DeclarationOrder
import Precedence.Proofs.SyntaxTree.GreedyAttachment
import Precedence.Proofs.Grammar.Declaration
import Precedence.Proofs.Text.Lines
import Precedence.Proofs.Text.Quoted
import Precedence.Proofs.Render.Grid
import Precedence.Proofs.Render.Outline
