import RoutineFlow.Sorting
import RoutineFlow.Value.Basic

/-!
Equality and order of values. Numbers are compared by their exact values, integers and doubles alike.
-/

namespace RoutineFlow

inductive Comparison where
  | lt
  | le
  | gt
  | ge
  deriving DecidableEq, Repr

namespace Comparison

def symbol : Comparison → String
  | .lt => "<"
  | .le => "<="
  | .gt => ">"
  | .ge => ">="

def holds : Comparison → Ordering → Bool
  | .lt, o => o.isLT
  | .le, o => o.isLE
  | .gt, o => o.isGT
  | .ge, o => o.isGE

/-- No comparison holds of something that is no number. -/
def decides (c : Comparison) : Option Ordering → Bool
  | some o => c.holds o
  | none => false

end Comparison

namespace Value

/-- Whether two values are one and the same result that is no number. -/
def coincide : Value → Value → Bool
  | .num m, .num n => m.coincides n
  | _, _ => false

/-- Equality of single values; what is no number equals nothing. -/
def scalarEqual (a b : Value) : Bool :=
  match a.number?, b.number? with
  | some m, some n => m.compare? n == some .eq
  | _, _ => match a, b with
    | .null, .null => true
    | .str s, .str t => s == t
    | _, _ => false

mutual

/-- Equality by value: booleans count as numbers, and the order of keys does not matter. -/
def equal : Value → Value → Bool
  | .list xs, .list ys => equalItems xs ys
  | .map m, .map n => m.length == n.length && equalEntries m n
  | a, b => scalarEqual a b

/-- Within lists and mappings one and the same equals itself, be it no number. -/
def equalItems : List Value → List Value → Bool
  | [], [] => true
  | x :: xs, y :: ys => (coincide x y || equal x y) && equalItems xs ys
  | _, _ => false

def equalEntries : List (Key × Value) → List (Key × Value) → Bool
  | [], _ => true
  | (k, x) :: m, n =>
    (match Mapping.get? n k with
      | some y => coincide x y || equal x y
      | none => false) && equalEntries m n

end

/-- Equality of two members of a list or mapping. -/
def same (x y : Value) : Bool :=
  coincide x y || equal x y

/-- Equality in which a boolean equals only the same boolean. -/
def strictEqual : Value → Value → Bool
  | .bool a, .bool b => a == b
  | .bool _, _ => false
  | _, .bool _ => false
  | a, b => equal a b

mutual

/-- Numbers are ordered by value, texts by code points, lists by their first different members. -/
def ordered (c : Comparison) : Value → Value → Except Cause Bool
  | .list xs, .list ys => orderedItems c xs ys
  | a, b => match a.number?, b.number? with
    | some m, some n => .ok (c.decides (m.compare? n))
    | _, _ => match a, b with
      | .str s, .str t => .ok (c.holds (compare s t))
      | _, _ => .error (.unordered c.symbol a.kind b.kind)

def orderedItems (c : Comparison) : List Value → List Value → Except Cause Bool
  | [], ys => .ok (c.holds (compare 0 ys.length))
  | _ :: _, [] => .ok (c.holds .gt)
  | x :: xs, y :: ys => if same x y then orderedItems c xs ys else ordered c x y

end

end Value

/-- The keys in ascending order. Keys of different kinds may have none. -/
def Environment.sortedKeys (env : Environment) : Except Cause (List Key) :=
  Sorting.sort (fun a b => Value.ordered .lt (.ofKey a) (.ofKey b)) (Mapping.keys env)

end RoutineFlow
