import RoutineFlow.Value.Basic

namespace RoutineFlow.TypeTag

/-- A trailing question mark makes an output or a reference optional. -/
def splitOptional (text : String) : String × Bool :=
  match text.toList.reverse with
  | '?' :: rest => (String.ofList rest.reverse, true)
  | _ => (text, false)

/-- The tag of the members, if a tag stands for lists. -/
def listMember? (tag : String) : Option String :=
  match tag.toList.reverse with
  | ']' :: '[' :: rest => some (String.ofList rest.reverse)
  | _ => none

def scalars : List String := ["string", "number", "boolean"]

/-- A tag names a scalar, or lists of one, and may be optional. -/
def isValid (tag : String) : Bool :=
  let base := (splitOptional tag).1
  scalars.contains base || match listMember? base with
    | some member => scalars.contains member
    | none => false

/-- The schema of a scalar tag; an unknown tag stands for text. -/
def scalarSchema (tag : String) : Value :=
  .record [("type", .str (if scalars.contains tag then tag else "string"))]

def schema (tag : String) : Value :=
  let base := (splitOptional tag).1
  match listMember? base with
  | some member => .record [("type", .str "array"), ("items", scalarSchema member)]
  | none => scalarSchema base

/-- Tags are texts. -/
def ofValue (v : Value) : Except Cause String :=
  match v with
  | .str tag => .ok tag
  | other => .error (.noMember other.kind "endswith")

def properties : Mapping String Value → Except Cause (Mapping String Value)
  | [] => .ok []
  | (name, v) :: rest => do
    let tag ← ofValue v
    return (name, schema tag) :: (← properties rest)

def isRequired : Value → Bool
  | .str tag => !(splitOptional tag).2
  | _ => false

/-- The schema of a mapping with the given outputs; those without a question mark are required. -/
def outputSchema (outputs : Mapping String Value) : Except Cause Value := do
  let members ← properties outputs
  let required := (outputs.filter fun (_, tag) => isRequired tag).map fun (name, _) => Value.str name
  return .record [("type", .str "object"), ("properties", .record members), ("required", .list required)]

/-- The schema for outputs that any value gives; only a mapping gives some. -/
def schemaOf (v : Value) : Except Cause Value :=
  match v with
  | .map entries => outputSchema (Environment.named entries)
  | other => .error (.noMember other.kind "items")

end RoutineFlow.TypeTag
