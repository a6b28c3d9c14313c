import RoutineFlow.Key
import RoutineFlow.Mapping

namespace RoutineFlow

/-- What variables hold and documents consist of. -/
inductive Value where
  | null
  | bool (b : Bool)
  | num (n : Number)
  | str (s : String)
  | list (items : List Value)
  | map (entries : List (Key × Value))

/-- The variables that a routine sees, or the fields of a document. Keys are texts as a rule. -/
abbrev Environment := Mapping Key Value

namespace Environment

/-- The entries that stand under texts. -/
def named (env : Environment) : Mapping String Value :=
  env.filterMap fun (key, v) => key.text?.map fun name => (name, v)

def ofNamed (entries : Mapping String Value) : Environment :=
  entries.map fun (name, v) => (.text name, v)

end Environment

namespace Value

instance : Inhabited Value := ⟨.null⟩

def int (i : Int) : Value := .num (.int i)

/-- The mapping of the given fields. -/
def record (fields : Mapping String Value) : Value := .map (Environment.ofNamed fields)

def kind : Value → Kind
  | .null => .null
  | .bool _ => .boolean
  | .num n => n.kind
  | .str _ => .text
  | .list _ => .list
  | .map _ => .mapping

/-- Null, false, zero and empty texts, lists and mappings are empty. -/
def isEmpty : Value → Bool
  | .null => true
  | .bool b => !b
  | .num n => n.isZero
  | .str s => s.toList.isEmpty
  | .list items => items.isEmpty
  | .map entries => entries.isEmpty

/-- The truth of a condition: no number is as false as an empty value. -/
def truthy : Value → Bool
  | .num n => !n.isZero && !n.isNaN
  | v => !v.isEmpty

/-- Booleans count as zero and one. -/
def number? : Value → Option Number
  | .bool b => some (.int (if b then 1 else 0))
  | .num n => some n
  | _ => none

def toNumber : Value → Except Cause Number
  | .bool b => .ok (.int (if b then 1 else 0))
  | .num n => .ok n
  | .str s => Number.ofText s
  | v => .error (.notNumeric v.kind)

def text? : Value → Option String
  | .str s => some s
  | _ => none

/-- The value of a key, when the value is a mapping that has it. -/
def field? (v : Value) (key : String) : Option Value :=
  match v with
  | .map entries => Mapping.get? entries key
  | _ => none

def ofKey : Key → Value
  | .null => .null
  | .bool b => .bool b
  | .num n => .num n
  | .text s => .str s

/-- The key that a value can be: anything but a list or mapping. -/
def key? : Value → Option Key
  | .null => some .null
  | .bool b => some (.bool b)
  | .num n => some (.num n)
  | .str s => some (.text s)
  | .list _ | .map _ => none

def toKey (v : Value) : Except Cause Key :=
  match v.key? with
  | some key => .ok key
  | none => .error (.unhashable v.kind)

end Value

end RoutineFlow
