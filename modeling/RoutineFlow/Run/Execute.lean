import RoutineFlow.Expr.Code
import RoutineFlow.Program.Basic
import RoutineFlow.Run.State
import RoutineFlow.Template
import RoutineFlow.Value.Search
import RoutineFlow.Value.ToMapping

/-!
Programs are run by executing routines, which execute further ones by name. Nothing bounds how
programs refer to themselves, so nested executions are counted down from a limit, and a run that
reaches it is reported as too deep.
-/

namespace RoutineFlow

structure Engine (σ : Type) where
  program : Program
  service : Option (Service σ)
  workers : Int

namespace Engine

variable {σ : Type}

/-- The execution of a routine by its name, on what it is given: a mapping of variables, or any other
value that a caller hands in. -/
abbrev Executor (σ : Type) := Value → Value → Run σ (Environment × Trace)

def passthrough (names : List String) (env : Environment) : Environment :=
  names.foldl (fun outputs (name : String) =>
    match Mapping.get? env name with
    | some v => Mapping.insert outputs name v
    | none => outputs) []

def initialOutputs (names : List String) (given : Value) : Except Cause Environment :=
  (given.toVariables names).map (passthrough names)

def generate (engine : Engine σ) (name : String) (r : Request) : Run σ Environment := do
  match engine.service with
  | none => Run.fail (.service name "No generative service configured")
  | some service =>
    Run.log (.serviceCall name r.outputs)
    match ← Run.request service r with
    | .error failure => Run.fail (.service name failure.message)
    | .ok (.map outputs) => return outputs
    | .ok v => Run.fail (.service name s!"Service returned {v.kind.name}, expected a mapping")

def messageText (userMessage given : Value) : Except Cause String :=
  match userMessage with
  | .str template => Template.fillFrom template given
  | other => .error (.notText other.kind)

def runPrompt (engine : Engine σ) (name : String) (initial : Environment)
    (devMessage userMessage : Value) (tags : Mapping String Value) (given : Value) :
    Run σ (Environment × Trace) := do
  let text ← Run.ofExcept (messageText userMessage given)
  let generated ← generate engine name ⟨devMessage, text, tags⟩
  let outputs := Mapping.merge initial generated
  return (outputs, .prompt ⟨name, given, outputs⟩ devMessage text)

def runCode [CharNames] (name : String) (initial : Environment) (code given : Value) :
    Run σ (Environment × Trace) := do
  match Expr.outputs name code given with
  | .ok computed =>
    let outputs := Mapping.merge initial computed
    return (outputs, .code ⟨name, given, outputs⟩)
  | .error failure =>
    Run.log (.codeRecovered name failure.message)
    let outputs := Mapping.insert initial "error" (.str failure.message)
    return (outputs, .code ⟨name, given, outputs⟩)

def defined? (env : Environment) (spec : OutputSpec) : Option Value :=
  match spec with
  | .literal _ (some v) _ => some v
  | .literal _ none optional => if optional then none else some .null
  | .reference (.str reference) =>
    let (name, optional) := TypeTag.splitOptional reference
    match Mapping.get? env name with
    | some v => some v
    | none => if optional then none else some .null
  | .reference _ => none

def define (initial : Environment) (specs : Mapping String OutputSpec) (env : Environment) : Environment :=
  specs.foldl (fun outputs (key, spec) =>
    match defined? env spec with
    | some v => Mapping.insert outputs key v
    | none => outputs) initial

def references (specs : Mapping String OutputSpec) : List String :=
  specs.filterMap fun (_, spec) => match spec with
    | .reference (.str reference) => some (TypeTag.splitOptional reference).1
    | _ => none

def runDefine (name : String) (initial : Environment) (specs : Mapping String OutputSpec)
    (given : Value) : Run σ (Environment × Trace) := do
  let env ← Run.ofExcept (given.toVariables (references specs))
  let outputs := define initial specs env
  return (outputs, .define ⟨name, given, outputs⟩)

def holds (condition given : Value) : Except Cause Bool :=
  match given with
  | .map env => do return ((Mapping.get? env (← condition.toKey)).getD .null).truthy
  | other => .error (.noMember other.kind "get")

def runBranch (execute : Executor σ) (name : String) (initial : Environment)
    (condition whenTrue whenFalse given : Value) : Run σ (Environment × Trace) := do
  let taken ← Run.ofExcept (holds condition given)
  let target := if taken then whenTrue else whenFalse
  if target.isEmpty then Run.fail (.missingBranch name taken)
  else do
    let (outputs, sub) ← execute target given
    let outputs := Mapping.merge initial outputs
    return (outputs, .branch ⟨name, given, outputs⟩ taken sub)

/-- Runs steps in a row, each on the outputs of the one before. -/
def runSteps (execute : Executor σ) : List String → Value → Run σ (Environment × List Trace)
  | [], given => do return (← Run.ofExcept given.toMapping, [])
  | step :: rest, given => do
    let (outputs, trace) ← execute (.str step) given
    let (final, traces) ← runSteps execute rest (.map outputs)
    return (final, trace :: traces)

def runEach (execute : Executor σ) (given : Value) :
    List String → Run σ (List (Environment × Trace))
  | [] => return []
  | branch :: rest => do
    let first ← execute (.str branch) given
    let others ← runEach execute given rest
    return first :: others

def runAll (execute : Executor σ) (given : Value) :
    List String → Run σ (List (Except RunError (Environment × Trace)))
  | [] => return []
  | branch :: rest => do
    let first ← Run.attempt (execute (.str branch) given)
    let others ← runAll execute given rest
    return first :: others

/-- The results in their order, or the first failure in that order. -/
def collect {α : Type} : List (Except RunError α) → Except RunError (List α)
  | [] => .ok []
  | result :: rest => do
    let first ← result
    let others ← collect rest
    return first :: others

def runBranches (execute : Executor σ) (parallel : Bool) (given : Value)
    (branches : List String) : Run σ (List (Environment × Trace)) :=
  if parallel && 1 < branches.length then do
    match collect (← runAll execute given branches) with
    | .ok results => return results
    | .error e => Run.fail e
  else runEach execute given branches

def isParallel (engine : Engine σ) : Bool :=
  1 < engine.workers

def runBody [CharNames] (engine : Engine σ) (execute : Executor σ) (name : String) (r : Routine)
    (given : Value) : Run σ (Environment × Trace) :=
  let initial := Run.ofExcept (initialOutputs r.passthrough given)
  match r.body with
  | .prompt devMessage userMessage tags => do
    runPrompt engine name (← initial) devMessage userMessage tags given
  | .code code => do runCode name (← initial) code given
  | .define specs => do runDefine name (← initial) specs given
  | .branch condition whenTrue whenFalse => do
    runBranch execute name (← initial) condition whenTrue whenFalse given
  | .compose steps => do
    let (outputs, traces) ← runSteps execute steps given
    return (outputs, .compose ⟨name, given, outputs⟩ traces)
  | .join branches => do
    let results ← runBranches execute engine.isParallel given branches
    let outputs := results.foldl (fun merged (o, _) => Mapping.merge merged o) []
    return (outputs, .join ⟨name, given, outputs⟩ (results.map (·.2)))
  | .unknown kind _ => Run.fail (.unknownKind name kind)

def bracket (name kind : String) (work : Run σ (Environment × Trace)) :
    Run σ (Environment × Trace) := do
  Run.log (.routineBegin name kind)
  let (outputs, trace) ← Run.onError work fun e => .routineError name kind e.name e.message
  Run.log (.routineEnd name kind (← Run.sortedKeys outputs))
  return (outputs, trace)

/-- Executes a routine by its name; at most `limit` executions nest. -/
def execute [CharNames] (engine : Engine σ) : Nat → Executor σ
  | 0, _, _ => Run.fail .exhausted
  | limit + 1, name, given =>
    match engine.program.find? name with
    | none => Run.fail (.routineNotFound name)
    | some r =>
      match r.body with
      | .unknown kind _ => Run.fail (.unknownKind name.label kind)
      | body => bracket name.label body.kind
          (runBody engine (execute engine limit) name.label r given)

def defaultLimit : Nat := 480

structure Result where
  inputs : Environment
  outputs : Environment
  trace : Trace

/-- Finds the main routine before the run starts. -/
def runMain [CharNames] (engine : Engine σ) (limit : Nat) (env : Environment) : Run σ (Environment × Trace) := do
  let main := engine.program.main
  if main.isEmpty then Run.fail .missingEntry
  else if (engine.program.find? main).isNone then Run.fail (.routineNotFound main)
  else do
    let _ ← Run.sortedKeys env
    Run.log (.runStart main)
    match ← Run.attempt (execute engine limit main (.map env)) with
    | .ok result => return result
    | .error .exhausted => Run.fail (.tooDeep main)
    | .error e => Run.fail e

def runWithin [CharNames] (engine : Engine σ) (limit : Nat) (env : Environment) : Run σ Result := do
  let main := engine.program.main
  let (outputs, trace) ← Run.onError (runMain engine limit env) fun e => .runError main e.name e.message
  Run.log (.runComplete main (← Run.sortedKeys outputs))
  return ⟨env, outputs, trace⟩

def run [CharNames] (engine : Engine σ) (env : Environment) : Run σ Result :=
  runWithin engine defaultLimit env

end Engine

end RoutineFlow
