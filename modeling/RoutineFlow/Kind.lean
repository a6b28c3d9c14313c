namespace RoutineFlow

inductive Kind where
  | null
  | boolean
  | integer
  | double
  | text
  | list
  | mapping
  deriving DecidableEq, Repr

def Kind.name : Kind → String
  | .null => "NoneType"
  | .boolean => "bool"
  | .integer => "int"
  | .double => "float"
  | .text => "str"
  | .list => "list"
  | .mapping => "dict"

end RoutineFlow
