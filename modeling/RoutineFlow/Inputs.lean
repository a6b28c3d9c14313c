import RoutineFlow.Text.Split
import RoutineFlow.Value.ToMapping

namespace RoutineFlow.Inputs

open Text (trim cutAt split)

/-- A key and a value around the first colon; neither may be blank. -/
def pair? (item : List Char) : Option (Key × Value) :=
  match cutAt ':' (trim item) with
  | none => none
  | some (key, value) =>
    let key := trim key
    let value := trim value
    if key.isEmpty || value.isEmpty then none
    else some (.text (String.ofList key), .str (String.ofList value))

/-- The inputs that a list of pairs between commas gives. -/
def ofText (text : String) : Environment :=
  Mapping.ofEntries ((split [','] text.toList).filterMap pair?)

/-- Initial inputs as a mapping; an empty value gives none. -/
def ofValue (v : Value) : Except Cause Environment :=
  if v.isEmpty then .ok [] else v.toMapping

end RoutineFlow.Inputs
