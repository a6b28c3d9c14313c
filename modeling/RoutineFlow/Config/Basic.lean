import RoutineFlow.Program.Document
import RoutineFlow.Service.Backend
import RoutineFlow.Text.Case
import RoutineFlow.Value.Conversion

namespace RoutineFlow

/-- Which generative service to ask, and how. Provider, model and key are whatever a document gives. -/
structure ModelConfig where
  provider : Value
  model : Value
  apiKey : Value
  maxTokens : Int
  maxRetries : Int
  timeout : Float

structure RunConfig where
  workers : Int
  telemetry : Bool

structure Config where
  llm : ModelConfig
  runtime : RunConfig

abbrev Variables := Mapping String String

def Environment.firstField (entries : Environment) (keys : List String) (otherwise : Value) : Value :=
  (keys.findSome? fun (key : String) => Mapping.get? entries key).getD otherwise

namespace ModelConfig

def default : ModelConfig :=
  ⟨.str "anthropic", Assistant.defaultModel, .str "", 4096, 2, 60.0⟩

/-- Fields go by names in words with underscores, or else by names with capitals inside. -/
def ofDocument (v : Value) : Except Cause ModelConfig :=
  match v with
  | .map entries => do
    let field := Environment.firstField entries
    let maxTokens ← (field ["max_tokens", "maxTokens"] (.int default.maxTokens)).toInteger
    let maxRetries ← (field ["max_retries", "maxRetries"] (.int default.maxRetries)).toInteger
    let timeout ← (field ["timeout"] (.num (.float default.timeout))).toDouble
    return ⟨field ["provider"] default.provider, field ["model"] default.model,
      field ["api_key", "apiKey"] default.apiKey, maxTokens, maxRetries, timeout⟩
  | other => .error (.noMember other.kind "get")

/-- Variables give texts; one that is not set leaves the default. -/
def ofVariables (vars : Variables) : Except Cause ModelConfig := do
  let field (name : String) (otherwise : Value) :=
    ((Mapping.get? vars name).map Value.str).getD otherwise
  let maxTokens ← (field "RFL_LLM_MAX_TOKENS" (.int default.maxTokens)).toInteger
  let maxRetries ← (field "RFL_LLM_MAX_RETRIES" (.int default.maxRetries)).toInteger
  let timeout ← (field "RFL_LLM_TIMEOUT" (.num (.float default.timeout))).toDouble
  return ⟨field "RFL_LLM_PROVIDER" default.provider, field "RFL_LLM_MODEL" default.model,
    field "RFL_LLM_API_KEY" default.apiKey, maxTokens, maxRetries, timeout⟩

def toDocument (c : ModelConfig) : Value :=
  .record [("provider", c.provider), ("model", c.model), ("api_key", c.apiKey),
    ("max_tokens", .int c.maxTokens), ("max_retries", .int c.maxRetries),
    ("timeout", .num (.float c.timeout))]

def settings (c : ModelConfig) : Assistant.Settings :=
  ⟨c.model, .int c.maxTokens, c.maxRetries⟩

/-- The service of the provider. An assistant needs a client to be reached by. -/
def backend (c : ModelConfig) (client : Option Assistant.Client) : Except ServiceFailure Backend :=
  match c.provider with
  | .str "simulated" => .ok .simulated
  | .str "anthropic" => match client with
    | some client => .ok (.assistant c.settings client)
    | none => .error (.declined Assistant.unavailable)
  | other => .error (.declined (s!"Unknown LLM provider: {other.label} " ++
      "(expected one of anthropic, simulated)"))

end ModelConfig

namespace RunConfig

def ofDocument (v : Value) : Except Cause RunConfig :=
  match v with
  | .map entries => do
    let field := Environment.firstField entries
    let workers ← (field ["join_workers", "joinWorkers"] (.int 1)).toInteger
    return ⟨workers, !(field ["telemetry"] (.bool true)).isEmpty⟩
  | other => .error (.noMember other.kind "get")

def isYes (word : String) : Bool :=
  ["true", "1", "yes"].contains (String.ofList (Text.lower word.toList))

def ofVariables (vars : Variables) : Except Cause RunConfig := do
  let workers ← match Mapping.get? vars "RFL_RUNTIME_JOIN_WORKERS" with
    | some text => Number.integerOfText text
    | none => pure 1
  let word := (Mapping.get? vars "RFL_RUNTIME_TELEMETRY").getD ""
  return ⟨workers, word.isEmpty || isYes word⟩

def toDocument (c : RunConfig) : Value :=
  .record [("join_workers", .int c.workers), ("telemetry", .bool c.telemetry)]

end RunConfig

namespace Config

def ofDocument (v : Value) : Except Cause Config :=
  match v with
  | .map entries => do
    let llm ← ModelConfig.ofDocument ((Mapping.get? entries "llm").getD (.map []))
    let runtime ← RunConfig.ofDocument ((Mapping.get? entries "runtime").getD (.map []))
    return ⟨llm, runtime⟩
  | other => .error (.noMember other.kind "get")

def ofVariables (vars : Variables) : Except Cause Config := do
  let llm ← ModelConfig.ofVariables vars
  let runtime ← RunConfig.ofVariables vars
  return ⟨llm, runtime⟩

def toDocument (c : Config) : Value :=
  .record [("llm", c.llm.toDocument), ("runtime", c.runtime.toDocument)]

end Config

end RoutineFlow
