import RoutineFlow.Json.Reader
import RoutineFlow.Program.Document

namespace RoutineFlow

/-- Why a text gives no program: it is no mapping, or no document at all; or a number cannot be held. -/
inductive LoadFailure where
  | rejected (message : String) (source : Option String)
  | failed (cause : Cause)

namespace LoadFailure

/-- A source that has a name stands before the message. -/
def message : LoadFailure → String
  | .rejected text (some source) => if source.isEmpty then text else s!"[{source}] " ++ text
  | .rejected text none => text
  | .failed cause => cause.message

end LoadFailure

namespace Program

/-- The mapping that a program's text holds. -/
def readDocument (text : String) (source : Option String) : Except LoadFailure Environment :=
  match Json.read text with
  | .ok (.map entries) => .ok entries
  | .ok _ => .error (.rejected "Program document must be a JSON object" source)
  | .error (.failed cause) => .error (.failed cause)
  | .error (.malformed problem p) =>
    let place := s!"Invalid JSON at line {p.line}, column {p.column}: "
    .error (.rejected (place ++ problem.message) source)

def load (text : String) (source : Option String) : Except LoadFailure Program :=
  (readDocument text source).map ofEntries

end Program

end RoutineFlow
