import RoutineFlow.Expr.Eval
import RoutineFlow.Value.Search

namespace RoutineFlow

namespace Expr

open Evaluation (fault escape)

/-- A field of a node, or what stands for it when it is missing. -/
def fieldOr (entries : Environment) (key default : String) : Value :=
  (Mapping.get? entries key).getD (.str default)

/-- Looks a name up in bindings, which are a mapping as a rule. -/
def lookUpNamed (bindings name : Value) : Evaluation Value := do
  match ← escape (bindings.search name) with
  | some v => return v
  | none => fault (.undefined name.label)

def memberNamed (target name : Value) : Evaluation Value :=
  match target with
  | .map entries => do return (Mapping.get? entries (← escape name.toKey)).getD .null
  | v => memberOf v name.label

def functionNamed (name : Value) : Evaluation Builtin := do
  let _ ← escape name.toKey
  match name.text?.bind Builtin.ofName? with
  | some f => .ok f
  | none => fault (.unknownFunction name.label)

def unaryNamed (op v : Value) : Evaluation Value :=
  match op with
  | .str "!" => applyUnary .not v
  | .str "-" => applyUnary .negative v
  | other => signed other.label false v

def binaryNamed (op left right : Value) : Evaluation Value :=
  match op.text?.bind BinaryOp.ofSymbol? with
  | some known => applyBinary known left right
  | none =>
    if left.kind = .null ∨ right.kind = .null then fault (.nullOperand op.label)
    else fault (.unknownOperator op.label)

mutual

/-- The value of an expression given as a document. What is no mapping stands for itself, and missing fields
have defaults. -/
def evalDocument (bindings : Value) : Value → Evaluation Value
  | .map entries =>
    match fieldOr entries "type" "" with
    | .str "String" => .ok ((Mapping.get? entries "value").getD .null)
    | .str "Boolean" => .ok ((Mapping.get? entries "value").getD .null)
    | .str "Number" => match Mapping.get? entries "value" with
      | some (.num n) => finite n
      | some v => .ok v
      | none => .ok .null
    | .str "Null" => .ok .null
    | .str "Name" => lookUpNamed bindings (fieldOr entries "name" "")
    | .str "Member" => do
      memberNamed (← evalField bindings "target" entries) (fieldOr entries "name" "")
    | .str "IndexExpr" => do
      let target ← evalField bindings "target" entries
      indexOf target (← evalField bindings "index" entries)
    | .str "Call" => do
      let name := fieldOr entries "name" ""
      let f ← functionNamed name
      applyCall name.label f (← evalListField bindings "args" entries)
    | .str "UnaryExpr" => do
      unaryNamed (fieldOr entries "operator" "-") (← evalField bindings "operand" entries)
    | .str "BinaryExpr" => do
      let left ← evalField bindings "left" entries
      let right ← evalField bindings "right" entries
      binaryNamed (fieldOr entries "operator" "+") left right
    | .str "LogicalExpr" => do
      let left ← evalField bindings "left" entries
      match fieldOr entries "operator" "" with
      | .str "&&" => if left.truthy then evalField bindings "right" entries else return left
      | _ => if left.truthy then return left else evalField bindings "right" entries
    | .str "Conditional" => do
      let test ← evalField bindings "test" entries
      if test.truthy then evalField bindings "then" entries
      else evalField bindings "else" entries
    | .str "ArrayLiteral" => do return .list (← evalListField bindings "elements" entries)
    | .str "MapLiteral" => do
      return .map (Mapping.ofEntries (← evalEntryField bindings "entries" entries))
    | type => fault (.unknownNode type.label)
  | v => .ok v

/-- The value of the expression in a field; a missing one is null. -/
def evalField (bindings : Value) (key : String) : List (Key × Value) → Evaluation Value
  | [] => .ok .null
  | (k, v) :: rest => if k == key then evalDocument bindings v else evalField bindings key rest

def evalEach (bindings : Value) : List Value → Evaluation (List Value)
  | [] => .ok []
  | v :: rest => do
    let first ← evalDocument bindings v
    return first :: (← evalEach bindings rest)

/-- The values of the expressions that a field goes through. -/
def evalListField (bindings : Value) (key : String) :
    List (Key × Value) → Evaluation (List Value)
  | [] => .ok []
  | (k, .list items) :: rest =>
    if k == key then evalEach bindings items else evalListField bindings key rest
  | (k, v) :: rest =>
    if k == key then escape (Builtin.members v) else evalListField bindings key rest

def evalEntry (bindings : Value) : List Value → Evaluation (List (Key × Value))
  | [] => .ok []
  | .map fields :: rest => do
    let v ← evalField bindings "value" fields
    let key ← escape (fieldOr fields "key" "").toKey
    return (key, v) :: (← evalEntry bindings rest)
  | v :: _ => escape (.error (.noMember v.kind "get"))

/-- The entries of a mapping, each of a key and an expression. -/
def evalEntryField (bindings : Value) (key : String) :
    List (Key × Value) → Evaluation (List (Key × Value))
  | [] => .ok []
  | (k, .list items) :: rest =>
    if k == key then evalEntry bindings items else evalEntryField bindings key rest
  | (k, v) :: rest =>
    if k == key then
      match Builtin.members v with
      | .error cause => escape (.error cause)
      | .ok [] => .ok []
      | .ok (first :: _) => escape (.error (.noMember first.kind "get"))
    else evalEntryField bindings key rest

end

end Expr

end RoutineFlow
