import RoutineFlow.TypeTag
import RoutineFlow.Value.Text

namespace RoutineFlow

/-- What a define routine gives for an output: a literal, absent when it has no value, or a reference. -/
inductive OutputSpec where
  | literal (type : Value) (value : Option Value) (optional : Bool)
  | reference (v : Value)

/-- What a routine does. Fields hold whatever the document gives for them. -/
inductive Body where
  | prompt (devMessage userMessage : Value) (outputs : Mapping String Value)
  | code (code : Value)
  | define (outputs : Mapping String OutputSpec)
  | branch (condition whenTrue whenFalse : Value)
  | compose (steps : List String)
  | join (branches : List String)
  | unknown (type : String) (raw : Environment)

namespace Body

/-- The kinds of routines by the names that documents use. -/
def kinds : List String := ["prompt", "code", "define", "if", "compose", "join"]

def kind : Body → String
  | .prompt _ _ _ => "prompt"
  | .code _ => "code"
  | .define _ => "define"
  | .branch _ _ _ => "if"
  | .compose _ => "compose"
  | .join _ => "join"
  | .unknown _ _ => ""

end Body

structure Routine where
  doc : Value
  passthrough : List String
  body : Body

/-- Named routines and the name of the one to start with. -/
structure Program where
  routines : Mapping String Routine
  main : Value
  doc : Value

/-- Routines are found by text only. -/
def Program.find? (p : Program) (name : Value) : Option Routine :=
  match name with
  | .str s => Mapping.get? p.routines s
  | _ => none

end RoutineFlow
