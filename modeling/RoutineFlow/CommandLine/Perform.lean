import RoutineFlow.CommandLine.Arguments
import RoutineFlow.CommandLine.Report
import RoutineFlow.Inputs
import RoutineFlow.Program.FromFile
import RoutineFlow.Run.Emit
import RoutineFlow.Validation

/-!
What the commands do, as functions of their surroundings. A run writes its events whatever came of
it, and its result only when everything went well; a check writes no result at all.
-/

namespace RoutineFlow.CommandLine

open Config (given)

def readDocument (s : Surroundings) (a : Arguments) : Except LoadFailure Environment :=
  match given a.program with
  | some path => Program.readFile s.folder (Path.ofText path)
  | none => do
    let text ← s.input.decoded.mapError .failed
    Program.readDocument text (some "<stdin>")

def readInputs (a : Arguments) : Except Halt Environment :=
  let listed := Inputs.ofText (a.inputs.getD "")
  match given a.inputsJson with
  | none => .ok listed
  | some text => match Json.read text with
    | .ok (.map entries) => .ok (Mapping.merge listed entries)
    | .ok _ => .error (.complaint "--inputs-json must be a JSON object")
    | .error (.malformed problem _) => .error (.complaint s!"Invalid --inputs-json: {problem.message}")
    | .error (.failed cause) => .error (.ofCause cause)

def reject (findings : Except Cause (List Finding)) : Except Halt Unit :=
  match findings with
  | .error cause => .error (.crash (.value cause))
  | .ok [] => .ok ()
  | .ok findings => .error (.complaints (findings.map fun f => "Error: " ++ f.text))

def haltOfLoading : LoadFailure → Halt
  | .failed cause => .ofCause cause
  | failure => .complaint failure.message

structure Preparation where
  config : Config
  program : Program
  inputs : Environment
  backend : Backend

/-- Reads configuration, program and inputs, validates, and finds the service, in this order. -/
def prepare [CharNames] (s : Surroundings) (a : Arguments) : Except Halt Preparation := do
  let config ← (Config.load s.folder s.vars a.config).mapError .ofConfigFailure
  let document ← (readDocument s a).mapError haltOfLoading
  let inputs ← readInputs a
  if !a.noValidate then
    reject (Validation.validate (.map document) (Mapping.keys (Environment.named inputs)) false)
  let backend ← if a.simulate then pure Backend.simulated else
    (config.llm.backend s.client).mapError fun failure => Halt.complaint failure.message
  return ⟨config, Program.ofEntries document, inputs, backend⟩

def workers (p : Preparation) (a : Arguments) : Int :=
  (a.joinWorkers.filter (· ≠ 0)).getD p.config.runtime.workers

/-- Runs the program. Events are collected where they are configured or have a file to go to. -/
def execute [CharNames] (p : Preparation) (a : Arguments) : Except RunError Engine.Result × State Backend :=
  let engine : Engine Backend := ⟨p.program, some Backend.service, workers p a⟩
  let enabled := p.config.runtime.telemetry || (given a.telemetry).isSome
  (engine.run p.inputs).run ⟨p.backend, [], ⟨enabled, []⟩⟩

/-- Writes a text and a line end to a file. What the system refuses is reported behind the words given. -/
def writeLine (folder : Folder) (path text failed : String) : Except Halt Folder :=
  let path := Path.ofText path
  (folder.write path (text ++ "\n")).mapError fun
    | .system fault => .complaints [failed ++ fault.message path]
    | .value cause => .crash (.value cause)

def writeEvents (folder : Folder) (a : Arguments) (document : String) : Except Halt Folder :=
  match given a.telemetry with
  | none => .ok folder
  | some path => writeLine folder path document "Error writing telemetry: "

def writeResult (console : Encoding) (folder : Folder) (a : Arguments) (document : String) : Except Crash Report :=
  match given a.output with
  | none => ((console.check (document ++ "\n")).mapError .value).map fun _ => ⟨0, document ++ "\n", [], folder⟩
  | some path => match writeLine folder path document "Error writing output: " with
    | .ok written => .ok ⟨0, "", [s!"Output written to {path}"], written⟩
    | .error (.complaints messages) => .ok ⟨1, "", messages, folder⟩
    | .error (.crash crash) => .error crash

def emitResult (console : Encoding) (folder : Folder) (p : Preparation) (a : Arguments) (result : Engine.Result) :
    Except Crash Report :=
  let indent := if a.compact then none else some 2
  match Emit.render indent (Emit.resultDocument Emit.Options.default p.program result) with
  | .ok document => writeResult console folder a document
  | .error cause =>
    if cause.kindOf = .value then
      .ok ⟨1, "", [s!"Error: Cannot write result as JSON: {cause.message}"], folder⟩
    else .error (.value cause)

/-- What follows a run: the events are written whatever came of it, but for crashes. -/
def conclude (s : Surroundings) (p : Preparation) (a : Arguments)
    (outcome : Except RunError Engine.Result) (state : State Backend) : Except Crash Report := do
  let complaints ← match outcome with
    | .ok _ => pure []
    | .error e => if e.isDeclared then pure ["Error: " ++ e.message] else .error (.run e)
  let events ← if (given a.telemetry).isSome then (state.telemetry.render s.stamp).mapError .value
    else pure ""
  match writeEvents s.folder a events, outcome with
  | .error (.crash crash), _ => .error crash
  | .error (.complaints messages), _ => return ⟨1, "", complaints ++ messages, s.folder⟩
  | .ok folder, .error _ => return ⟨1, "", complaints, folder⟩
  | .ok folder, .ok result => emitResult s.console folder p a result

def halted (s : Surroundings) (halt : Halt) : Except Crash Report :=
  match halt with
  | .complaints messages => .ok ⟨1, "", messages, s.folder⟩
  | .crash crash => .error crash

def performRun [CharNames] (s : Surroundings) (a : Arguments) : Except Crash Report :=
  match prepare s a with
  | .error halt => halted s halt
  | .ok p =>
    let (outcome, state) := execute p a
    conclude s p a outcome state

/-- Reads a program and validates it. Only what is said about documents is reported. -/
def performCheck [CharNames] (s : Surroundings) (a : Arguments) : Except Crash Report :=
  match readDocument s a with
  | .error (.failed cause) => .error (.value cause)
  | .error failure => halted s (.complaint failure.message)
  | .ok document =>
    match reject (Validation.validate (.map document) [] a.checkExpressions) with
    | .error halt => halted s halt
    | .ok () => .ok ⟨0, "", ["OK: program is valid"], s.folder⟩

def paths (vars : Variables) (a : Arguments) : List Path :=
  let named := [a.program, a.output, a.telemetry].filterMap given
  named.map Path.ofText ++ (given a.logFile).toList.map (fun text => (Path.ofText text).straighten) ++
    (Config.places vars a.config).filterMap Except.toOption

/-- The log file is there from the start. A log level that says nothing is a crash. -/
def openLog (s : Surroundings) (a : Arguments) : Except Crash Surroundings := do
  let opened ← match given a.logFile with
    | none => pure s
    | some text =>
      let path := (Path.ofText text).straighten
      match s.folder.touch path with
      | .ok folder => pure { s with folder := folder }
      | .error failure => .error (.ofFileFailure path failure)
  if a.logLevel.isNone then .error (.value (.notName .list)) else return opened

def performWith [CharNames] (c : Command) (s : Surroundings) (a : Arguments) : Except Crash Report := do
  let s ← openLog s a
  match c with
  | .run => performRun s a
  | .check => performCheck s a

def usage (c : Command) : String :=
  s!"usage: rfl {c.name} [options] [program]"

def helpText (c : Command) : String :=
  let flags := c.flags.map fun flag => "  " ++ ", ".intercalate flag.spellings
  "\n".intercalate ([usage c, "", "options:"] ++ flags) ++ "\n"

def perform [CharNames] (s : Surroundings) (arguments : List String) : Except Crash Report :=
  let (command, rest) := commandOf arguments
  match Arguments.read command rest with
  | .error .help => .ok ⟨0, helpText command, [], s.folder⟩
  | .error (.refused why) =>
    .ok ⟨2, "", [usage command, s!"rfl {command.name}: error: {why.message}"], s.folder⟩
  | .ok a => performWith command s a

end RoutineFlow.CommandLine
