import RoutineFlow.Cause
import RoutineFlow.Trace
import RoutineFlow.Value.Text

namespace RoutineFlow

inductive RunError where
  | missingEntry
  | routineNotFound (name : Value)
  | unknownKind (routine kind : String)
  | missingBranch (routine : String) (taken : Bool)
  | tooDeep (main : Value)
  | exhausted
  | service (routine message : String)
  | failed (cause : Cause)

namespace RunError

def name : RunError → String
  | missingEntry => "MissingEntryRoutineError"
  | routineNotFound _ => "RoutineNotFoundError"
  | unknownKind _ _ => "UnknownRoutineKindError"
  | missingBranch _ _ => "MissingBranchError"
  | tooDeep _ => "RoutineDepthError"
  | exhausted => "RecursionError"
  | service _ _ => "ServiceCallError"
  | failed cause => cause.kindOf.name

def message : RunError → String
  | missingEntry => "Program is missing a 'main' routine."
  | routineNotFound name => s!"Routine '{name.label}' not found."
  | unknownKind routine kind => s!"Unknown routine type: {kind} (routine: {routine})"
  | missingBranch routine taken =>
    let branch := Trace.branchName taken
    s!"'if' routine '{routine}' missing '{branch}' branch."
  | tooDeep main => s!"Maximum routine nesting depth exceeded while running '{main.label}' " ++
      "(the program may loop without end)."
  | exhausted => "maximum recursion depth exceeded"
  | service routine message =>
    s!"Generative service call failed in routine '{routine}': {message}"
  | failed cause => cause.message

/-- Errors of the run itself, apart from a value that it could not work with. -/
def isDeclared : RunError → Bool
  | failed _ | exhausted => false
  | _ => true

end RunError

end RoutineFlow
