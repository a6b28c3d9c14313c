import RoutineFlow.Program.Basic

namespace RoutineFlow

/-- The value of a field, null if it is missing. -/
def Environment.field (entries : Environment) (key : String) : Value :=
  (Mapping.get? entries key).getD .null

/-- An empty value stands for the empty text. -/
def Value.orEmptyText (v : Value) : Value :=
  if v.isEmpty then .str "" else v

/-- Names given as a list, each by its text. -/
def Value.names : Value → List String
  | .list items => items.map Value.label
  | _ => []

def Value.mapping : Value → Environment
  | .map entries => entries
  | _ => []

/-- The named entries of a field that is a mapping. -/
def Environment.fieldNamed (entries : Environment) (key : String) : Mapping String Value :=
  Environment.named (Environment.field entries key).mapping

namespace OutputSpec

def ofDocument : Value → OutputSpec
  | .map entries =>
    .literal ((Mapping.get? entries "type").getD (.str "")) (Mapping.get? entries "value")
      (!(Environment.field entries "optional").isEmpty)
  | v => .reference v

def toDocument : OutputSpec → Value
  | .literal type value optional =>
    .record ([("type", type)] ++ (match value with
        | some v => [("value", v)]
        | none => []) ++
      (if optional then [("optional", .bool true)] else []))
  | .reference v => v

end OutputSpec

namespace Body

/-- The body that a routine's document describes; missing fields are empty. -/
def ofDocument (entries : Environment) : Body :=
  let type := (Mapping.get? entries "type").getD (.str "")
  match type with
  | .str "prompt" => .prompt (Environment.field entries "dev_msg").orEmptyText
      (Environment.field entries "user_msg").orEmptyText (Environment.fieldNamed entries "outputs")
  | .str "code" => .code (Environment.field entries "code").orEmptyText
  | .str "define" =>
    .define (Mapping.mapValues OutputSpec.ofDocument (Environment.fieldNamed entries "outputs"))
  | .str "if" => .branch (Environment.field entries "condition").orEmptyText
      (Environment.field entries "then") (Environment.field entries "else")
  | .str "compose" => .compose (Environment.field entries "routines").names
  | .str "join" => .join (Environment.field entries "routines").names
  | other => .unknown other.label entries

def namesDocument (names : List String) : Value :=
  .list (names.map .str)

/-- The fields of a kind. -/
def fields : Body → Mapping String Value
  | .prompt devMessage userMessage outputs =>
    [("dev_msg", devMessage), ("user_msg", userMessage), ("outputs", .record outputs)]
  | .code source => [("code", source)]
  | .define outputs => [("outputs", .record (Mapping.mapValues OutputSpec.toDocument outputs))]
  | .branch condition whenTrue whenFalse =>
    [("condition", condition), ("then", whenTrue), ("else", whenFalse)]
  | .compose steps => [("routines", namesDocument steps)]
  | .join branches => [("routines", namesDocument branches)]
  | .unknown _ _ => []

end Body

namespace Routine

def ofEntries (entries : Environment) : Routine :=
  ⟨Environment.field entries "doc", (Environment.field entries "passthrough").names,
    Body.ofDocument entries⟩

/-- A routine that is no mapping has no fields. -/
def ofDocument (v : Value) : Routine :=
  ofEntries v.mapping

def docField (doc : Value) : Mapping String Value :=
  match doc with
  | .null => []
  | v => [("doc", v)]

def toDocument (r : Routine) : Value :=
  match r.body with
  | .unknown _ raw => .map raw
  | body => .record ([("type", .str body.kind)] ++ docField r.doc ++
      (if r.passthrough.isEmpty then [] else [("passthrough", Body.namesDocument r.passthrough)]) ++
      body.fields)

end Routine

namespace Program

def ofEntries (entries : Environment) : Program :=
  ⟨Mapping.mapValues Routine.ofDocument (Environment.fieldNamed entries "routines"),
    Environment.field entries "main", Environment.field entries "doc"⟩

/-- The program that a document describes; only a mapping describes one. -/
def ofDocument (v : Value) : Except Cause Program :=
  match v with
  | .map entries => .ok (ofEntries entries)
  | other => .error (.noMember other.kind "get")

def toDocument (p : Program) : Value :=
  .record (Routine.docField p.doc ++
    [("routines", .record (Mapping.mapValues Routine.toDocument p.routines)), ("main", p.main)])

end Program

end RoutineFlow
