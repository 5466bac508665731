import Reckon.Expr.Mention
import Reckon.Main
import Reckon.Proofs.AlignedCalls
import Reckon.Proofs.Noninterference
import Reckon.Proofs.Parsing.FirstError
import Reckon.Proofs.Parsing.Reparsing
import Reckon.Proofs.StraightLine
import Reckon.Token.Buffer
import Reckon.Proofs.ExecutionOrder
import Reckon.Proofs.Lexing.Lookahead
import Reckon.Proofs.Assembly.LineNumbers
import Reckon.Proofs.Build.Commands
import Reckon.Proofs.Linking
import Reckon.Proofs.Lowerability
import Reckon.Proofs.Machine.LineNumbers
import Reckon.Proofs.Remarks
import Reckon.Proofs.Displacement
import Reckon.Proofs.Layout
import Reckon.Proofs.Parsing.Parentheses
import Reckon.Proofs.Errors
import Reckon.Proofs.Machine.Lockstep
import Reckon.Proofs.Leaving
import Reckon.Proofs.Machine.Faults
import Reckon.Proofs.Machine.Resumption
import Reckon.Proofs.Printing
import Reckon.Proofs.Division
import Reckon.Proofs.Machine.WellFormed
import Reckon.Proofs.Parsing.Nesting
import Reckon.Proofs.Parsing.Resolution
import Reckon.Proofs.Diagnostics
import Reckon.Proofs.Machine.Storage
import Reckon.Proofs.Machine.SignedDivision
import Reckon.Proofs.CallSites
import Reckon.Proofs.RoutineCalls
import Reckon.Proofs.LiteralArguments
import Reckon.Proofs.OperandStack
import Reckon.Proofs.Build.Artifacts
import Reckon.Proofs.Build.Files
import Reckon.Proofs.Build.Sequences
import Reckon.Proofs.Machine.Consoles
import Reckon.Proofs.Outcomes
