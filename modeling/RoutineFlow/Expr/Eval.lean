import RoutineFlow.Expr.Builtin
import RoutineFlow.Expr.Syntax

namespace RoutineFlow

inductive Fault where
  | undefined (word : String)
  | memberOfNull (word : String)
  | noMember (word : String) (kind : Kind)
  | indexOfNull
  | badIndex (text : String)
  | notIndexable (kind : Kind)
  | unknownFunction (word : String)
  | callFailed (word : String) (cause : Cause)
  | unaryFailed (symbol : String) (cause : Cause)
  | nullOperand (symbol : String)
  | needsNumbers (symbol : String) (left right : Kind)
  | divisionByZero
  | overflow
  | unknownOperator (symbol : String)
  | binaryFailed (symbol : String) (cause : Cause)
  | unknownNode (type : String)
  | notMapping

namespace Fault

def message : Fault → String
  | undefined word => s!"'{word}' is not defined"
  | memberOfNull word => s!"Cannot read property '{word}' of null"
  | noMember word kind => s!"Cannot read property '{word}' of {kind.name}"
  | indexOfNull => "Cannot index null"
  | badIndex text => "Index must be an integer, got " ++ Cause.quoted text
  | notIndexable kind => s!"Cannot index {kind.name}"
  | unknownFunction word => s!"Unknown function: {word}"
  | callFailed word cause => s!"{word}() failed: {cause.message}"
  | unaryFailed symbol cause => s!"Type error in unary {symbol}: {cause.message}"
  | nullOperand symbol => s!"Cannot apply '{symbol}' to null"
  | needsNumbers symbol left right =>
    s!"Operator '{symbol}' requires numbers, got {left.name} and {right.name}"
  | divisionByZero => "Division by zero"
  | overflow => "Numeric overflow"
  | unknownOperator symbol => s!"Unknown operator: {symbol}"
  | binaryFailed symbol cause => s!"Type error in {symbol} operation: {cause.message}"
  | unknownNode type => s!"Unknown expression type: {type}"
  | notMapping => "Code did not return an object."

end Fault

/-- An evaluation ends without a value by a fault of the expression, or by a cause that it does not report as
one. -/
inductive Failure where
  | fault (f : Fault)
  | escaped (cause : Cause)

def Failure.message : Failure → String
  | .fault f => f.message
  | .escaped cause => cause.message

abbrev Evaluation := Except Failure

namespace Evaluation

variable {α : Type}

def fault (f : Fault) : Evaluation α :=
  .error (.fault f)

/-- Passes a cause on as it is. -/
def escape (r : Except Cause α) : Evaluation α :=
  r.mapError .escaped

/-- Reports a cause as a fault, unless a number went beyond its range. -/
def report (toFault : Cause → Fault) (r : Except Cause α) : Evaluation α :=
  r.mapError fun cause =>
    if cause.kindOf = .overflow then .escaped cause else .fault (toFault cause)

end Evaluation

namespace Expr

open Evaluation (fault escape report)

def finite (n : Number) : Evaluation Value :=
  match n with
  | .int _ => .ok (.num n)
  | .float x => if Number.isFinite x then .ok (.num n) else fault .overflow
  | .unknown _ => fault .overflow

def lookUp (bindings : Environment) (word : String) : Evaluation Value :=
  match Mapping.get? bindings word with
  | some v => .ok v
  | none => fault (.undefined word)

def memberOf (target : Value) (word : String) : Evaluation Value :=
  match target with
  | .null => fault (.memberOfNull word)
  | .map entries => .ok ((Mapping.get? entries word).getD .null)
  | .str s =>
    if word = "length" then .ok (.int s.toList.length) else fault (.noMember word .text)
  | .list items =>
    if word = "length" then .ok (.int items.length) else fault (.noMember word .list)
  | v => fault (.noMember word v.kind)

/-- The place that an index names; a double names one if it is whole. -/
def placeOf (place : Value) : Evaluation Int :=
  let whole := match place with
    | .num (.int i) => some i
    | .num (.float x) => Number.integral? x
    | _ => none
  match whole with
  | some i => .ok i
  | none => do fault (.badIndex (← escape place.toText))

/-- The element at a place, counted from the end when negative; null outside. -/
def elementAt (items : List Value) (i : Int) : Value :=
  if i < 0 then
    if i.natAbs ≤ items.length then items.getD (items.length - i.natAbs) .null else .null
  else items.getD i.toNat .null

def indexOf (target place : Value) : Evaluation Value :=
  match target with
  | .null => fault .indexOfNull
  | .map entries => do return (Mapping.get? entries (← escape place.toText)).getD .null
  | .list items => do return elementAt items (← placeOf place)
  | .str s => do
    return elementAt (s.toList.map fun c => .str (String.singleton c)) (← placeOf place)
  | v => fault (.notIndexable v.kind)

/-- A sign in front of a value, written as `symbol`. -/
def signed (symbol : String) (negative : Bool) (v : Value) : Evaluation Value := do
  let n ← report (.unaryFailed symbol) v.toNumber
  return .num (if negative then n.negate else n)

def applyUnary (op : UnaryOp) (v : Value) : Evaluation Value :=
  match op with
  | .not => .ok (.bool !v.truthy)
  | .negative => signed op.symbol true v
  | .positive => signed op.symbol false v

/-- A result of arithmetic; none stands for one that is not finite. -/
def arithmetic (r : Option Number) : Evaluation Value :=
  match r with
  | some n => .ok (.num n)
  | none => fault .overflow

/-- The sum of numbers, or two lists in a row; text is joined with anything. -/
def sum (left right : Value) : Evaluation Value :=
  match left, right with
  | .str s, v => do return .str (s ++ (← escape v.toText))
  | v, .str s => do return .str ((← escape v.toText) ++ s)
  | .list xs, .list ys => .ok (.list (xs ++ ys))
  | .list _, v => fault (.binaryFailed "+" (.listAppend v.kind))
  | _, _ =>
    match left.number?, right.number? with
    | some m, some n => arithmetic (m.add n)
    | _, _ => fault (.binaryFailed "+" (.noSum left.kind right.kind))

def onNumbers (op : BinaryOp) (f : Number → Number → Evaluation Value) (left right : Value) :
    Evaluation Value :=
  match left.number?, right.number? with
  | some m, some n => f m n
  | _, _ => fault (.needsNumbers op.symbol left.kind right.kind)

def unlessZero (f : Number → Number → Option Number) (m n : Number) : Evaluation Value :=
  if n.isZero then fault .divisionByZero else arithmetic (f m n)

def applyBinary (op : BinaryOp) (left right : Value) : Evaluation Value :=
  match op with
  | .equal => .ok (.bool (Value.equal left right))
  | .notEqual => .ok (.bool !(Value.equal left right))
  | .strictEqual => .ok (.bool (Value.strictEqual left right))
  | .strictNotEqual => .ok (.bool !(Value.strictEqual left right))
  | _ =>
    if left.kind = .null ∨ right.kind = .null then fault (.nullOperand op.symbol)
    else match op with
      | .add => sum left right
      | .subtract => onNumbers op (fun m n => arithmetic (m.subtract n)) left right
      | .multiply => onNumbers op (fun m n => arithmetic (m.multiply n)) left right
      | .divide => onNumbers op (unlessZero Number.divide) left right
      | .modulo => onNumbers op (unlessZero Number.modulo) left right
      | .order c => do
        return .bool (← report (.binaryFailed c.symbol) (Value.ordered c left right))
      | _ => fault (.unknownOperator op.symbol)

def applyCall (word : String) (f : Builtin) (args : List Value) : Evaluation Value :=
  report (.callFailed word) (f.call args)

mutual

/-- The value of an expression under bindings for its names. -/
def eval (bindings : Environment) : Expr → Evaluation Value
  | .numeral n => finite n
  | .text s => .ok (.str s)
  | .boolean b => .ok (.bool b)
  | .null => .ok .null
  | .name word => lookUp bindings word
  | .member target word => do memberOf (← eval bindings target) word
  | .index target place => do
    let v ← eval bindings target
    indexOf v (← eval bindings place)
  | .call word arguments =>
    match Builtin.ofName? word with
    | none => fault (.unknownFunction word)
    | some f => do applyCall word f (← evalItems bindings arguments)
  | .unary op operand => do applyUnary op (← eval bindings operand)
  | .binary op left right => do
    let v ← eval bindings left
    applyBinary op v (← eval bindings right)
  | .logical op left right => do
    let v ← eval bindings left
    match op with
    | .and => if v.truthy then eval bindings right else return v
    | .or => if v.truthy then return v else eval bindings right
  | .conditional test whenTrue whenFalse => do
    let v ← eval bindings test
    if v.truthy then eval bindings whenTrue else eval bindings whenFalse
  | .list items => do return .list (← evalItems bindings items)
  | .map entries => do return .map (Mapping.ofEntries (← evalEntries bindings entries))

def evalItems (bindings : Environment) : List Expr → Evaluation (List Value)
  | [] => .ok []
  | e :: rest => do
    let v ← eval bindings e
    return v :: (← evalItems bindings rest)

def evalEntries (bindings : Environment) : List (String × Expr) → Evaluation (List (Key × Value))
  | [] => .ok []
  | (key, e) :: rest => do
    let v ← eval bindings e
    return (.text key, v) :: (← evalEntries bindings rest)

end

end Expr

end RoutineFlow
