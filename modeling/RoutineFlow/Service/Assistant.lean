import RoutineFlow.Service.Basic
import RoutineFlow.Text.Split
import RoutineFlow.TypeTag
import RoutineFlow.Value.ToMapping

/-!
An assistant is asked to hand in its outputs by a tool. As long as its replies do not use the tool it
is asked again, as often as the settings allow.
-/

namespace RoutineFlow.Assistant

/-- Settings of an assistant that is asked to hand in its outputs by a tool. -/
structure Settings where
  model : Value
  maxTokens : Value
  maxRetries : Int

def defaultModel : Value := .str "claude-sonnet-4-20250514"

def Settings.default : Settings := ⟨defaultModel, .int 4096, 2⟩

/-- What is said where no assistant can be reached at all. -/
def unavailable : String :=
  "The anthropic package is not installed. Install it with: pip install anthropic"

/-- A part of a reply; each attribute may be absent. -/
structure Block where
  type : Option Value
  name : Option Value
  input : Option Value

inductive Reply where
  | failure (message : String)
  | blocks (blocks : List Block)

/-- The other side: replies to come, what happens after the last, and the requests received so far. -/
structure Client where
  replies : List Reply
  afterwards : String
  received : List Value

/-- A client that nobody answers. -/
def Client.unreachable : Client := ⟨[], "Connection error.", []⟩

def toolName : String := "provide_outputs"

def message (role content : String) : Value :=
  .record [("role", .str role), ("content", .str content)]

def tool (outputs : Mapping String Value) : Except Cause Value := do
  let names := ", ".intercalate (Mapping.keys outputs)
  let shown := if names.isEmpty then "none" else names
  let schema ← TypeTag.outputSchema outputs
  return .record [("name", .str toolName),
    ("description", .str s!"Provide the requested output values ({shown})."),
    ("input_schema", schema)]

/-- What is added to the messages before the given attempt after the first. -/
def retryMessages (attempt : Nat) : List Value :=
  [message "assistant" "I wasn't able to use the tool.",
    message "user" (s!"You must use the '{toolName}' tool to provide the result. " ++
      s!"(Retry attempt {attempt})")]

def envelope (s : Settings) (devMessage : Value) (messages : List Value) (tool : Value) : Value :=
  .record ([("model", s.model), ("max_tokens", s.maxTokens), ("messages", .list messages),
      ("tools", .list [tool]),
      ("tool_choice", .record [("type", .str "tool"), ("name", .str toolName)])] ++
    if devMessage.isEmpty then [] else [("system", devMessage)])

def Client.send (c : Client) (request : Value) : Reply × Client :=
  match c.replies with
  | [] => (.failure c.afterwards, { c with received := c.received ++ [request] })
  | reply :: rest => (reply, { c with replies := rest, received := c.received ++ [request] })

/-- The input of the first block that uses the tool. -/
def toolInput : List Block → Except ServiceFailure (Option Value)
  | [] => .ok none
  | block :: rest =>
    match block.type with
    | some (.str "tool_use") =>
      match block.name with
      | none => .error (.failed (.noBlockMember "name"))
      | some name =>
        if name.text? == some toolName then
          match block.input with
          | none => .error (.failed (.noBlockMember "input"))
          | some input => (input.toMapping.map fun m => some (.map m)).mapError .failed
        else toolInput rest
    | _ => toolInput rest

/-- Asks until a reply uses the tool; `left` counts the attempts, the next one being number `attempt`. -/
def ask (s : Settings) (devMessage tool : Value) :
    Nat → Nat → List Value → Client → Except ServiceFailure Value × Client
  | 0, _, _, c =>
    (.error (.declined s!"Claude did not provide outputs after {s.maxRetries + 1} attempt(s)"), c)
  | left + 1, attempt, messages, c =>
    let (reply, next) := c.send (envelope s devMessage messages tool)
    match reply with
    | .failure text => (.error (.declined s!"Anthropic API request failed: {text}"), next)
    | .blocks blocks =>
      match toolInput blocks with
      | .error failure => (.error failure, next)
      | .ok (some input) => (.ok input, next)
      | .ok none =>
        ask s devMessage tool left (attempt + 1) (messages ++ retryMessages (attempt + 1)) next

/-- Hands a request on, with as many attempts as the settings allow. -/
def answer (s : Settings) (c : Client) (request : Request) : Except ServiceFailure Value × Client :=
  match tool request.outputs with
  | .error cause => (.error (.failed cause), c)
  | .ok tool =>
    ask s request.devMessage tool (s.maxRetries + 1).toNat 0
      [message "user" request.userMessage] c

def service (s : Settings) : Service Client :=
  ⟨answer s⟩

end RoutineFlow.Assistant
