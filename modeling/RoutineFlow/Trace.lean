import RoutineFlow.Value.Basic

namespace RoutineFlow

/-- What every execution of a routine leaves behind. The inputs are a mapping as a rule. -/
structure Record where
  routine : String
  inputs : Value
  outputs : Environment

/-- The execution of a routine with those of the routines that it ran, in their order. -/
inductive Trace where
  | prompt (record : Record) (devMessage : Value) (userMessage : String)
  | code (record : Record)
  | define (record : Record)
  | branch (record : Record) (taken : Bool) (sub : Trace)
  | compose (record : Record) (subs : List Trace)
  | join (record : Record) (subs : List Trace)

namespace Trace

def record : Trace → Record
  | .prompt r _ _ => r
  | .code r => r
  | .define r => r
  | .branch r _ _ => r
  | .compose r _ => r
  | .join r _ => r

def kind : Trace → String
  | .prompt _ _ _ => "prompt"
  | .code _ => "code"
  | .define _ => "define"
  | .branch _ _ _ => "if"
  | .compose _ _ => "compose"
  | .join _ _ => "join"

def children : Trace → List Trace
  | .branch _ _ sub => [sub]
  | .compose _ subs => subs
  | .join _ subs => subs
  | _ => []

mutual

/-- A trace and all below it, each before its children. -/
def walk : Trace → List Trace
  | .prompt r d u => [.prompt r d u]
  | .code r => [.code r]
  | .define r => [.define r]
  | .branch r taken sub => .branch r taken sub :: walk sub
  | .compose r subs => .compose r subs :: walkAll subs
  | .join r subs => .join r subs :: walkAll subs

def walkAll : List Trace → List Trace
  | [] => []
  | t :: rest => walk t ++ walkAll rest

end

/-- The word for the branch that a condition selects. -/
def branchName (taken : Bool) : String :=
  if taken then "then" else "else"

def recordFields (r : Record) (kind : String) : Mapping String Value :=
  [("routine", .str r.routine), ("type", .str kind), ("inputs", r.inputs),
    ("outputs", .map r.outputs)]

mutual

def toDocument : Trace → Value
  | .prompt r devMessage userMessage =>
    .record (recordFields r "prompt" ++
      [("llm_call", .record [("dev_msg", devMessage), ("user_msg", .str userMessage)])])
  | .code r => .record (recordFields r "code")
  | .define r => .record (recordFields r "define")
  | .branch r taken sub =>
    .record (recordFields r "if" ++
      [("branch_taken", .str (branchName taken)), ("subtrace", toDocument sub)])
  | .compose r subs => .record (recordFields r "compose" ++ [("subtraces", .list (documents subs))])
  | .join r subs => .record (recordFields r "join" ++ [("subtraces", .list (documents subs))])

def documents : List Trace → List Value
  | [] => []
  | t :: rest => toDocument t :: documents rest

end

end Trace

end RoutineFlow
