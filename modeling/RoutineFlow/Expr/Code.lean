import RoutineFlow.Expr.Eval
import RoutineFlow.Expr.Parser
import RoutineFlow.Value.Mark

namespace RoutineFlow

inductive CodeFailure where
  | unreadable (problem : Expr.SyntaxProblem)
  | failed (failure : Failure)

def CodeFailure.message : CodeFailure → String
  | .unreadable problem => problem.message
  | .failed failure => failure.message

namespace Expr

/-- Code is text; anything else cannot be parsed. -/
def parseValue [CharNames] (code : Value) : Except Cause (Except SyntaxProblem Expr) :=
  match code with
  | .str source => .ok (parse source)
  | other => match other.toKey with
    | .ok _ => .error .notParsable
    | .error cause => .error cause

/-- The name under which code sees its environment. -/
def inputName : String := "input"

/-- The value of code that sees `input` under the name of the same spelling. -/
def evaluate [CharNames] (code : String) (input : Value) : Except CodeFailure Value :=
  match parse code with
  | .error problem => .error (.unreadable problem)
  | .ok e => (eval [(inputName, input)] e).mapError .failed

/-- The outputs of a routine's code, which must be a mapping, as they are kept beside what it saw. -/
def outputs [CharNames] (routine : String) (code input : Value) : Except CodeFailure Environment :=
  match code with
  | .str source => do
    match ← evaluate source input with
    | .map entries => return Value.keepEntries (.kept input.nextAge routine) [] 0 entries
    | _ => .error (.failed (.fault .notMapping))
  | other => match parseValue other with
    | .error cause => .error (.failed (.escaped cause))
    | .ok _ => .ok []

end Expr

end RoutineFlow
