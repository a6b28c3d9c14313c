import RoutineFlow.Text.Split
import RoutineFlow.Value.Order

/-!
Asking a value for what stands under a name. Mappings have it under a key. Anything else is searched
for the name itself, and a name that is found there has to be a place.
-/

namespace RoutineFlow.Value

/-- The member of a list at a place, counted from the end when negative. -/
def memberAt (items : List Value) (place : Value) : Except Cause Value :=
  match place.number? with
  | some (.int i) =>
    let fromStart := if i < 0 then i + items.length else i
    if fromStart < 0 then .error .outOfRange
    else match items[fromStart.toNat]? with
      | some v => .ok v
      | none => .error .outOfRange
  | _ => .error (.badPlace place.kind)

/-- What stands under a name in a value, if the name is found there. -/
def search (v name : Value) : Except Cause (Option Value) :=
  match v with
  | .map entries => do return Mapping.get? entries (← name.toKey)
  | .list items =>
    if items.any fun x => same x name then (memberAt items name).map some else .ok none
  | .str s => match name with
    | .str part => if Text.occurs part.toList s.toList then .error .textPlace else .ok none
    | other => .error (.notPart other.kind)
  | other => .error (.notContainer other.kind)

/-- The entries of a value under the given names, as far as they are found. -/
def select (v : Value) (names : List Value) : Except Cause Environment :=
  names.foldlM (fun selected name => do
    match ← search v name with
    | some member => return Mapping.insert selected (← name.toKey) member
    | none => return selected) []

/-- The variables that a value gives, of which some are wanted by name. Only a mapping gives any. -/
def toVariables (wanted : List String) (v : Value) : Except Cause Environment :=
  match v with
  | .map env => .ok env
  | other => other.select (wanted.map .str)

end RoutineFlow.Value
