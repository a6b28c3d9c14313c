import RoutineFlow.Config.Loading
import RoutineFlow.Run.Error

namespace RoutineFlow.CommandLine

/-- What a command works with: files, variables, what its standard input gives, a client to reach an assistant by,
the time that events are written with, and the encoding of its standard output. -/
structure Surroundings where
  folder : Folder
  vars : Variables
  input : Content
  client : Option Assistant.Client
  stamp : String
  console : Encoding := .utf8

structure Report where
  code : Nat
  output : String
  errors : List String
  folder : Folder

/-- A failure that no command reports: of a value it could not work with, of a run, or of a file it could
not make. -/
inductive Crash where
  | value (cause : Cause)
  | run (e : RunError)
  | file (path : Path) (fault : FileFault)

namespace Crash

def name : Crash → String
  | value cause => cause.name
  | run e => e.name
  | file _ fault => fault.name

def ofFileFailure (path : Path) : FileFailure → Crash
  | .system fault => .file path fault
  | .value cause => .value cause

def message : Crash → String
  | value cause => cause.message
  | run e => e.message
  | file path fault => fault.message path

end Crash

inductive Halt where
  | complaints (messages : List String)
  | crash (c : Crash)

namespace Halt

def complaint (message : String) : Halt :=
  .complaints ["Error: " ++ message]

/-- Values that are no fit for their use are reported, all other causes crash. -/
def ofCause (cause : Cause) : Halt :=
  if cause.kindOf = .value then complaint cause.message else .crash (.value cause)

def ofJsonError : Json.Error → Halt
  | .failed cause => ofCause cause
  | e => complaint e.message

def ofConfigFailure : Config.Failure → Halt
  | .document e => ofJsonError e
  | .file path fault => .crash (.file path fault)

end Halt

end RoutineFlow.CommandLine
