import RoutineFlow.Value.Basic

/-!
Results that are no numbers come without a mark. Those that stay among the variables are given one, so
that each is known again: by where it comes from, and by an age that no earlier variable has.
-/

namespace RoutineFlow

namespace Number

/-- An age beyond that of a number. -/
def nextAge : Number → Nat
  | .unknown (.kept age _ _) => age + 1
  | _ => 0

def keep (mark : Mark) : Number → Number
  | .unknown .new => .unknown mark
  | n => n

end Number

namespace Value

mutual

/-- An age beyond that of all numbers in a value. -/
def nextAge : Value → Nat
  | .num n => n.nextAge
  | .list items => itemsNextAge items
  | .map entries => entriesNextAge entries
  | _ => 0

def itemsNextAge : List Value → Nat
  | [] => 0
  | v :: rest => max (nextAge v) (itemsNextAge rest)

def entriesNextAge : List (Key × Value) → Nat
  | [] => 0
  | (_, v) :: rest => max (nextAge v) (entriesNextAge rest)

end

mutual

/-- Marks what is new in a value that stands at a place. -/
def keep (mark : List Nat → Mark) (place : List Nat) : Value → Value
  | .num n => .num (n.keep (mark place))
  | .list items => .list (keepItems mark place 0 items)
  | .map entries => .map (keepEntries mark place 0 entries)
  | v => v

def keepItems (mark : List Nat → Mark) (place : List Nat) (index : Nat) : List Value → List Value
  | [] => []
  | v :: rest => keep mark (index :: place) v :: keepItems mark place (index + 1) rest

def keepEntries (mark : List Nat → Mark) (place : List Nat) (index : Nat) :
    List (Key × Value) → List (Key × Value)
  | [] => []
  | (key, v) :: rest =>
    (key, keep mark (index :: place) v) :: keepEntries mark place (index + 1) rest

end

end Value

end RoutineFlow
