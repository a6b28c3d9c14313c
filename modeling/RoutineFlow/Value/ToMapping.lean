import RoutineFlow.Expr.Builtin

namespace RoutineFlow.Value

/-- The two members of an entry given in a row: a list of two, a text of two characters, or the keys of a
mapping. -/
def pairMembers (index : Nat) (v : Value) : Except Cause (Value × Value) :=
  match v with
  | .list _ | .str _ | .map _ => do
    match ← Builtin.members v with
    | [key, value] => return (key, value)
    | members => .error (.pairLength index members.length)
  | _ => .error (.notPair index)

def entriesFrom : Nat → List Value → Except Cause (List (Key × Value))
  | _, [] => .ok []
  | index, v :: rest => do
    let (key, value) ← pairMembers index v
    return (← key.toKey, value) :: (← entriesFrom (index + 1) rest)

/-- A mapping, or one made from a row of entries. -/
def toMapping (v : Value) : Except Cause Environment :=
  match v with
  | .map entries => .ok entries
  | v => do return Mapping.ofEntries (← entriesFrom 0 (← Builtin.members v))

end RoutineFlow.Value
