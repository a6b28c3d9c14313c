import RoutineFlow.Value.Basic

namespace RoutineFlow

/-- What a prompt asks of a generative service: values for the outputs, given by name and type tag. -/
structure Request where
  devMessage : Value
  userMessage : String
  outputs : Mapping String Value

/-- A service declines with a message, or trips over a value. -/
inductive ServiceFailure where
  | declined (message : String)
  | failed (cause : Cause)

def ServiceFailure.message : ServiceFailure → String
  | .declined message => message
  | .failed cause => cause.message

/-- A generative service with states of type `σ`. -/
structure Service (σ : Type) where
  answer : σ → Request → Except ServiceFailure Value × σ

namespace Service

/-- Answers every request by texts that name the output and repeat the message. -/
def simulated {σ : Type} : Service σ :=
  ⟨fun s request =>
    (.ok (.record (request.outputs.map fun (name, _) =>
      (name, .str s!"simulated_{name}_response_based_on_{request.userMessage}"))), s)⟩

/-- One answer of a script. -/
inductive Step where
  | give (v : Value)
  | decline (message : String)

def Step.result : Step → Except ServiceFailure Value
  | .give v => .ok v
  | .decline message => .error (.declined message)

/-- Answers from a script, one step for each request; the last step repeats for ever. -/
def scripted : Service (List Step) :=
  ⟨fun steps _ =>
    match steps with
    | [] => (.ok .null, [])
    | [last] => (last.result, [last])
    | step :: rest => (step.result, rest)⟩

end Service

end RoutineFlow
