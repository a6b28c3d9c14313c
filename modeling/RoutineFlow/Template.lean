import RoutineFlow.Text.Word
import RoutineFlow.Value.Text

namespace RoutineFlow.Template

open Text (isWord)

/-- The name between braces at the start of a text that stands behind a dollar sign. -/
def placeholder? : List Char → Option (List Char)
  | '{' :: cs =>
    match cs.takeWhile isWord, cs.dropWhile isWord with
    | [], _ => none
    | name, '}' :: _ => some name
    | _, _ => none
  | _ => none

/-- The text of a variable, empty if there is none. -/
def variableText (env : Environment) (name : List Char) : Except Cause (List Char) :=
  ((Mapping.get? env (String.ofList name)).getD .null).textChars

/-- Fills in the rest of a template by the texts of names; `skip` counts the characters of a placeholder still
to be passed. -/
def fillBy (textOf : List Char → Except Cause (List Char)) : Nat → List Char → Except Cause (List Char)
  | _, [] => .ok []
  | skip + 1, _ :: cs => fillBy textOf skip cs
  | 0, c :: cs =>
    match if c = '$' then placeholder? cs else none with
    | some name => do
      let text ← textOf name
      return text ++ (← fillBy textOf (name.length + 2) cs)
    | none => do return c :: (← fillBy textOf 0 cs)

/-- Replaces each placeholder, a name in braces behind a dollar sign, by the text of its variable. -/
def fill (template : String) (env : Environment) : Except Cause String :=
  (fillBy (variableText env) 0 template.toList).map String.ofList

/-- Fills in from any value; what is no mapping cannot be asked for a variable. -/
def fillFrom (template : String) (v : Value) : Except Cause String :=
  match v with
  | .map env => fill template env
  | other => (fillBy (fun _ => .error (.noMember other.kind "get")) 0 template.toList).map String.ofList

end RoutineFlow.Template
