import RoutineFlow.Value.Basic

namespace RoutineFlow.Value

/-- A value as an integer: doubles lose what is after the point, texts are read. -/
def toInteger (v : Value) : Except Cause Int :=
  match v with
  | .str s => Number.integerOfText s
  | _ => match v.number? with
    | some n => n.truncate
    | none => .error (.integerFrom v.kind)

/-- A value as a double: integers become the nearest one, texts are read. -/
def toDouble (v : Value) : Except Cause Float :=
  match v with
  | .str s => Number.doubleOfText s
  | _ => match v.number? with
    | some n => match n.toFloat? with
      | some x => .ok x
      | none => .error .integerTooLarge
    | none => .error (.doubleFrom v.kind)

end RoutineFlow.Value
