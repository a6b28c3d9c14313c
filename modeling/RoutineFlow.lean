import RoutineFlow.Expr.Document
import RoutineFlow.Main
import RoutineFlow.Run.Session
import RoutineFlow.Proofs.Mapping
import RoutineFlow.Proofs.Run
import RoutineFlow.Proofs.Execution
import RoutineFlow.Proofs.Derivation
import RoutineFlow.Proofs.Replay
import RoutineFlow.Proofs.Dispatch
import RoutineFlow.Proofs.Validation
import RoutineFlow.Proofs.Course
import RoutineFlow.Proofs.Schedule
import RoutineFlow.Proofs.Parallel
import RoutineFlow.Proofs.Outcomes
import RoutineFlow.Proofs.Endless
import RoutineFlow.Proofs.Limit
import RoutineFlow.Proofs.Failure
import RoutineFlow.Proofs.Nesting
import RoutineFlow.Proofs.Bracketing
import RoutineFlow.Proofs.Document
import RoutineFlow.Proofs.Essence
import RoutineFlow.Proofs.Grammar
import RoutineFlow.Proofs.ShiftReduce
import RoutineFlow.Proofs.Deriving
import RoutineFlow.Proofs.Parsing
import RoutineFlow.Proofs.Double
import RoutineFlow.Proofs.Numerals
import RoutineFlow.Proofs.Quoting
import RoutineFlow.Proofs.Lexemes
import RoutineFlow.Proofs.Layout
import RoutineFlow.Proofs.Literals
import RoutineFlow.Proofs.FiniteRuns
import RoutineFlow.Proofs.Emission
import RoutineFlow.Proofs.Interference
import RoutineFlow.Proofs.Flattening
import RoutineFlow.Proofs.Unreachable
import RoutineFlow.Proofs.Telemetry
import RoutineFlow.Proofs.Files
import RoutineFlow.Proofs.Commands
import RoutineFlow.Proofs.AllOrNothing
import RoutineFlow.Proofs.Refusals
import RoutineFlow.Proofs.Escapes
import RoutineFlow.Proofs.Unguarded
import RoutineFlow.Proofs.Nodes
import RoutineFlow.Proofs.Respacing
import RoutineFlow.Proofs.Composition
import RoutineFlow.Proofs.WholeWords
import RoutineFlow.Proofs.Viable
import RoutineFlow.Proofs.Equality
import RoutineFlow.Proofs.Examination
import RoutineFlow.Proofs.References
import RoutineFlow.Proofs.Arrangement
import RoutineFlow.Proofs.Retrying
import RoutineFlow.Proofs.Joining
import RoutineFlow.Proofs.Splitting
import RoutineFlow.Proofs.Pairs
import RoutineFlow.Proofs.Placeholders
import RoutineFlow.Proofs.NumberTexts
