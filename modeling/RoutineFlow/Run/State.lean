import RoutineFlow.Run.Error
import RoutineFlow.Service.Basic
import RoutineFlow.Telemetry

namespace RoutineFlow

/-- What changes in the course of runs: the service, the requests that it received, and the events. -/
structure State (σ : Type) where
  service : σ
  requests : List Request
  telemetry : Telemetry

/-- A part of a run: from a state to a result or an error, and the state left behind either way. -/
abbrev Run (σ α : Type) := ExceptT RunError (StateM (State σ)) α

namespace Run

variable {σ α : Type}

def fail (e : RunError) : Run σ α :=
  throw e

def ofExcept (r : Except Cause α) : Run σ α :=
  match r with
  | .ok a => pure a
  | .error cause => fail (.failed cause)

/-- The keys of an environment in their order, without which it is not reported. -/
def sortedKeys (env : Environment) : Run σ (List Key) :=
  ofExcept env.sortedKeys

def log (e : Event) : Run σ Unit :=
  fun s => (.ok (), { s with telemetry := s.telemetry.log e })

def request (service : Service σ) (r : Request) : Run σ (Except ServiceFailure Value) :=
  fun s =>
    let (result, next) := service.answer s.service r
    (.ok result, { s with service := next, requests := s.requests ++ [r] })

def attempt (r : Run σ α) : Run σ (Except RunError α) :=
  fun s =>
    let (result, next) := r.run s
    (.ok result, next)

def onError (r : Run σ α) (event : RunError → Event) : Run σ α :=
  fun s => match r.run s with
    | (.ok a, next) => (.ok a, next)
    | (.error e, next) => (.error e, { next with telemetry := next.telemetry.log (event e) })

end Run

end RoutineFlow
