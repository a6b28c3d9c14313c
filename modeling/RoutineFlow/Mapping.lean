namespace RoutineFlow

/-- Entries in the order in which their keys were first given; no two keys are equal. -/
abbrev Mapping (κ α : Type) := List (κ × α)

namespace Mapping

variable {κ α β : Type}

def keys (m : Mapping κ α) : List κ :=
  m.map (·.1)

def mapValues (f : α → β) (m : Mapping κ α) : Mapping κ β :=
  m.map fun (k, v) => (k, f v)

/-- The names in ascending order. -/
def sortedNames (m : Mapping String α) : List String :=
  (keys m).mergeSort fun a b => decide (a ≤ b)

variable [BEq κ]

def get? (m : Mapping κ α) (key : κ) : Option α :=
  m.lookup key

def has (m : Mapping κ α) (key : κ) : Bool :=
  (get? m key).isSome

/-- A new key goes to the end; a known key keeps its place and its spelling, and takes the new value. -/
def insert (m : Mapping κ α) (key : κ) (value : α) : Mapping κ α :=
  match m with
  | [] => [(key, value)]
  | (k, v) :: rest => if k == key then (k, value) :: rest else (k, v) :: insert rest key value

/-- Inserts the entries of the second mapping into the first, one after the other. -/
def merge (m n : Mapping κ α) : Mapping κ α :=
  n.foldl (fun m entry => insert m entry.1 entry.2) m

def ofEntries (entries : List (κ × α)) : Mapping κ α :=
  merge [] entries

end Mapping

end RoutineFlow
