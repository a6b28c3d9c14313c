import RoutineFlow.Program.Document
import RoutineFlow.Run.Execute

namespace RoutineFlow.Emit

structure Options where
  indent : Option Nat
  withProgram : Bool
  withInputs : Bool

def Options.default : Options := ⟨some 2, true, true⟩

def resultDocument (o : Options) (program : Program) (r : Engine.Result) : Value :=
  .record ((if o.withProgram then [("program", program.toDocument)] else []) ++
    (if o.withInputs then [("inputs", .map r.inputs)] else []) ++
    [("outputs", .map r.outputs), ("trace", r.trace.toDocument)])

/-- Documents are written without numbers that are not finite. -/
def layout (indent : Option Nat) : Json.Layout := { indent := indent, finiteOnly := true }

def render (indent : Option Nat) (document : Value) : Except Cause String :=
  Json.render (layout indent) document

end RoutineFlow.Emit
