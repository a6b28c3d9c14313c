import RoutineFlow.Json.Writer
import RoutineFlow.Value.Order

namespace RoutineFlow

/-- Something that happened in a run. Routine, kind and details may be empty. -/
structure Event where
  type : String
  routine : Value
  kind : String
  details : Mapping String Value

namespace Event

def fieldUnlessEmpty (key : String) (v : Value) : Mapping String Value :=
  if v.isEmpty then [] else [(key, v)]

/-- The fields of an event but for its time. -/
def fields (e : Event) : Mapping String Value :=
  [("eventType", .str e.type)] ++ fieldUnlessEmpty "routine" e.routine ++
    fieldUnlessEmpty "kind" (.str e.kind) ++ fieldUnlessEmpty "details" (.record e.details)

def keyList (keys : List Key) : Value :=
  .list (keys.map .ofKey)

def runStart (main : Value) : Event :=
  ⟨"run.start", main, "", []⟩

def runComplete (main : Value) (outputKeys : List Key) : Event :=
  ⟨"run.complete", main, "", [("outputKeys", keyList outputKeys)]⟩

def failureDetails (type message : String) : Mapping String Value :=
  [("errorType", .str type), ("errorMessage", .str message)]

def runError (main : Value) (type message : String) : Event :=
  ⟨"run.error", main, "", failureDetails type message⟩

def routineBegin (routine kind : String) : Event :=
  ⟨"routine.begin", .str routine, kind, []⟩

def routineEnd (routine kind : String) (outputKeys : List Key) : Event :=
  ⟨"routine.end", .str routine, kind, [("outputKeys", keyList outputKeys)]⟩

def routineError (routine kind type message : String) : Event :=
  ⟨"routine.error", .str routine, kind, failureDetails type message⟩

def serviceCall (routine : String) (outputs : Mapping String Value) : Event :=
  let requested := (Mapping.sortedNames outputs).map Value.str
  ⟨"service.call", .str routine, "prompt", [("requested", .list requested)]⟩

def codeRecovered (routine message : String) : Event :=
  ⟨"code.recovered", .str routine, "code", [("errorMessage", .str message)]⟩

end Event

/-- The events of runs in their order, collected while enabled. -/
structure Telemetry where
  enabled : Bool
  events : List Event

namespace Telemetry

def log (t : Telemetry) (e : Event) : Telemetry :=
  if t.enabled then { t with events := t.events ++ [e] } else t

def clear (t : Telemetry) : Telemetry :=
  { t with events := [] }

/-- The events of a type and of a routine, either of which may be left open. -/
def select (t : Telemetry) (type routine : Option String) : List Event :=
  let typed := match type with
    | some s => if s.isEmpty then t.events else t.events.filter (·.type == s)
    | none => t.events
  match routine with
  | some s =>
    if s.isEmpty then typed else typed.filter fun e => Value.equal e.routine (.str s)
  | none => typed

def layout : Json.Layout := { indent := some 2, ascii := true }

/-- The events as a document, each under the time `stamp`. -/
def render (t : Telemetry) (stamp : String) : Except Cause String :=
  Json.render layout (.list (t.events.map fun e => .record (("timestamp", .str stamp) :: e.fields)))

end Telemetry

end RoutineFlow
