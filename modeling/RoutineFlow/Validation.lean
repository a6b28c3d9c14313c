import RoutineFlow.Expr.Code
import RoutineFlow.Program.Document

/-!
Findings about a program's document, which may hold anything in any field. A document without
findings is fit to be run.
-/

namespace RoutineFlow

structure Finding where
  message : String
  routine : Option String

namespace Finding

def text (f : Finding) : String :=
  match f.routine with
  | some name => s!"{f.message} (routine: {name})"
  | none => f.message

end Finding

namespace Validation

/-- What findings depend on besides the routine at hand. -/
structure Context where
  routines : Mapping String Value
  available : List String
  checkCode : Bool

/-- Findings, or a value that could not even be examined. -/
abbrev Findings := Except Cause (List Finding)

def about (name : String) (messages : List String) : List Finding :=
  messages.map fun m => ⟨m, some name⟩

def when (condition : Bool) (message : String) : List String :=
  if condition then [message] else []

def isName (routines : Mapping String Value) (v : Value) : Bool :=
  match v with
  | .str name => Mapping.has routines name
  | _ => false

def referenceFindings (routines : Mapping String Value) (v : Value) : List String :=
  when (!isName routines v) ("Routine \"" ++ v.label ++ "\" not found")

def tagFindings (v : Value) : List String :=
  let valid := match v with
    | .str tag => TypeTag.isValid tag
    | _ => false
  when (!valid) s!"Invalid type: {v.label}"

def promptFindings (entries : Environment) : List String :=
  let outputs := Environment.field entries "outputs"
  let missing := (Environment.field entries "dev_msg").isEmpty ||
    (Environment.field entries "user_msg").isEmpty || outputs.kind == .null
  when missing "Prompt routine must have dev_msg, user_msg, and outputs" ++
    match outputs with
    | .null => []
    | .map tags =>
      when tags.isEmpty "Prompt routine must have at least one output" ++
        tags.flatMap fun (_, tag) => tagFindings tag
    | _ => ["Prompt routine outputs must be an object"]

/-- Code that is no text cannot be parsed. -/
def codeFindings [CharNames] (checkCode : Bool) (entries : Environment) : Except Cause (List String) :=
  let code := Environment.field entries "code"
  if code.isEmpty then .ok ["Code routine must have code field"]
  else if checkCode then
    match Expr.parseValue code with
    | .error cause => .error cause
    | .ok (.ok _) => .ok []
    | .ok (.error problem) => .ok [s!"Invalid code expression: {problem.message}"]
  else .ok []

def outputFindings (available : List String) (outputs : Mapping String Value) (key : String) (spec : Value) :
    List String :=
  match spec with
  | .map fields => tagFindings (Environment.field fields "type")
  | .str reference =>
    let (name, optional) := TypeTag.splitOptional reference
    let known := optional || available.contains name || Mapping.has outputs name
    when (!known) ("Input \"" ++ name ++ "\" not found")
  | _ => ["Define output \"" ++ key ++ "\" must be a reference or a literal spec"]

def defineFindings (available : List String) (entries : Environment) : List String :=
  match Environment.field entries "outputs" with
  | .map entries =>
    let outputs := Environment.named entries
    outputs.flatMap fun (key, spec) => outputFindings available outputs key spec
  | _ => ["Define routine must have outputs object"]

def branchFindings (routines : Mapping String Value) (entries : Environment) : List String :=
  let whenTrue := Environment.field entries "then"
  let whenFalse := Environment.field entries "else"
  let missing := (Environment.field entries "condition").isEmpty || whenTrue.isEmpty ||
    whenFalse.isEmpty
  when missing "If routine must have condition, then, and else fields" ++
    ([whenTrue, whenFalse].filter fun v => !v.isEmpty).flatMap (referenceFindings routines)

def listFindings (routines : Mapping String Value) (entries : Environment) (label : String) :
    List String :=
  match Environment.field entries "routines" with
  | .list names =>
    when names.isEmpty s!"{label} routine must have at least one routine" ++
      names.flatMap (referenceFindings routines)
  | _ => [s!"{label} routine must have routines array"]

def passthroughFindings (entries : Environment) : List String :=
  let valid := match Environment.field entries "passthrough" with
    | .null => true
    | .list names => names.all fun v => v.kind == .text
    | _ => false
  when (!valid) "passthrough must be a list of variable names"

def kindFindings [CharNames] (c : Context) (kind : String) (entries : Environment) : Except Cause (List String) :=
  match kind with
  | "prompt" => .ok (promptFindings entries)
  | "code" => codeFindings c.checkCode entries
  | "define" => .ok (defineFindings c.available entries)
  | "if" => .ok (branchFindings c.routines entries)
  | "compose" => .ok (listFindings c.routines entries "Compose")
  | _ => .ok (listFindings c.routines entries "Join")

def routineFindings [CharNames] (c : Context) (routine : Value) : Except Cause (List String) :=
  match routine with
  | .map entries =>
    let type := Environment.field entries "type"
    match type.text? with
    | some kind =>
      if Body.kinds.contains kind then do
        return passthroughFindings entries ++ (← kindFindings c kind entries)
      else .ok [s!"Unknown routine type: {kind}"]
    | none => .ok [s!"Unknown routine type: {type.label}"]
  | _ => .ok ["Routine must be an object"]

def allFindings [CharNames] (c : Context) : Mapping String Value → Findings
  | [] => .ok []
  | (name, routine) :: rest => do
    let first ← routineFindings c routine
    return about name first ++ (← allFindings c rest)

/-- The entry routine must be named and present; a list or mapping cannot be looked up. -/
def mainFindings (routines : Mapping String Value) (main : Value) : Findings :=
  if main.isEmpty then .ok [⟨"Program must have a main routine", none⟩]
  else if main.key?.isNone then .error (.unhashable main.kind)
  else if isName routines main then .ok []
  else .ok [⟨"Main routine \"" ++ main.label ++ "\" not found in routines", none⟩]

/-- The names that define routines give. -/
def definedNames (routines : Mapping String Value) : List String :=
  routines.flatMap fun (_, routine) =>
    match routine with
    | .map entries => match Environment.field entries "type", Environment.field entries "outputs" with
      | .str "define", .map outputs => Mapping.keys (Environment.named outputs)
      | _, _ => []
    | _ => []

/-- The findings about a program's document. References may also name known inputs. -/
def validate [CharNames] (document : Value) (knownInputs : List String) (checkCode : Bool) : Findings :=
  match document with
  | .map entries => do
    let field := Environment.field entries "routines"
    let routines := Environment.named field.mapping
    let shape : List Finding :=
      if field.kind = .mapping then [] else [⟨"Program must have routines object", none⟩]
    let main ← mainFindings routines (Environment.field entries "main")
    let context : Context := ⟨routines, knownInputs ++ definedNames routines, checkCode⟩
    return shape ++ main ++ (← allFindings context routines)
  | _ => .ok [⟨"Program must be an object", none⟩]

end Validation

end RoutineFlow
