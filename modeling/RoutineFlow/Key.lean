import RoutineFlow.Number.Basic

namespace RoutineFlow

/-- What the values of a mapping stand under. -/
inductive Key where
  | null
  | bool (b : Bool)
  | num (n : Number)
  | text (s : String)

namespace Key

instance : Coe String Key := ⟨.text⟩

def text? : Key → Option String
  | .text s => some s
  | _ => none

/-- What tells keys apart: a boolean is one with zero or one, a whole double with its integer. -/
inductive Identity where
  | null
  | integer (i : Int)
  | double (bits : UInt64)
  | unknown (mark : Mark)
  | text (s : String)
  deriving DecidableEq, Repr

def identity : Key → Identity
  | .null => .null
  | .bool b => .integer (if b then 1 else 0)
  | .num (.int i) => .integer i
  | .num (.float x) => match Number.integral? x with
    | some i => .integer i
    | none => .double x.toBits
  | .num (.unknown mark) => .unknown mark
  | .text s => .text s

/-- Keys are equal when their identities are. -/
instance : BEq Key := ⟨fun a b => a.identity == b.identity⟩

end Key

end RoutineFlow
