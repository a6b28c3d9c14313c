import RoutineFlow.Service.Assistant

namespace RoutineFlow

/-- The services that a program can be run with. -/
inductive Backend where
  | simulated
  | scripted (steps : List Service.Step)
  | assistant (settings : Assistant.Settings) (client : Assistant.Client)

namespace Backend

def answer (b : Backend) (request : Request) : Except ServiceFailure Value × Backend :=
  match b with
  | .simulated =>
    let (result, _) := Service.simulated.answer () request
    (result, .simulated)
  | .scripted steps =>
    let (result, next) := Service.scripted.answer steps request
    (result, .scripted next)
  | .assistant settings client =>
    let (result, next) := Assistant.answer settings client request
    (result, .assistant settings next)

def service : Service Backend := ⟨answer⟩

end Backend

end RoutineFlow
