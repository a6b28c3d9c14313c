import RoutineFlow.Inputs
import RoutineFlow.Run.Execute

/-!
What is asked of one engine in a row: runs and executions, and in between whatever concerns its events.
-/

namespace RoutineFlow.Session

inductive Operation where
  | run (inputs : Value)
  | execute (name given : Value)
  | enable (enabled : Bool)
  | clear
  | select (type routine : Option String)
  | write (stamp : String)

/-- Operations that run routines; the others are about events only. -/
def Operation.runs : Operation → Bool
  | .run _ | .execute _ _ => true
  | _ => false

inductive Reply where
  | ran (outcome : Except RunError Engine.Result)
  | executed (outcome : Except RunError (Environment × Trace))
  | enabled (now : Bool)
  | left (count : Nat)
  | selected (events : List Event)
  | written (text : Except Cause String)

def Reply.ofRuns : Reply → Bool
  | .ran _ | .executed _ => true
  | _ => false

variable {σ : Type}

/-- The reply to an operation, and the state that it leaves behind. Inputs that are no mapping are made one first. -/
def reply [CharNames] (engine : Engine σ) (limit : Nat) (s : State σ) : Operation → Reply × State σ
  | .run inputs =>
    match Inputs.ofValue inputs with
    | .error cause => (.ran (.error (.failed cause)), s)
    | .ok env =>
      let (outcome, next) := (engine.runWithin limit env).run s
      (.ran outcome, next)
  | .execute name given =>
    let (outcome, next) := (engine.execute limit name given).run s
    (.executed outcome, next)
  | .enable enabled => (.enabled enabled, { s with telemetry := { s.telemetry with enabled := enabled } })
  | .clear =>
    let telemetry := s.telemetry.clear
    (.left telemetry.events.length, { s with telemetry := telemetry })
  | .select type routine => (.selected (s.telemetry.select type routine), s)
  | .write stamp => (.written (s.telemetry.render stamp), s)

/-- The replies to operations in a row; one that fails does not end the session. -/
def replies [CharNames] (engine : Engine σ) (limit : Nat) (s : State σ) : List Operation → List Reply × State σ
  | [] => ([], s)
  | operation :: rest =>
    let (first, next) := reply engine limit s operation
    let (others, last) := replies engine limit next rest
    (first :: others, last)

end RoutineFlow.Session
