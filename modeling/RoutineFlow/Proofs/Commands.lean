import Mathlib
import RoutineFlow.CommandLine.Perform
import RoutineFlow.Proofs.Results

/-!
What commands come to, case by case: each way that one ends early, and what it has behind it where it goes on.
-/

namespace RoutineFlow.CommandLine

open Config (given)
open Results

namespace Arguments

def logPath? (a : Arguments) : Option Path :=
  (given a.logFile).map fun text => (Path.ofText text).straighten

def eventsPath? (a : Arguments) : Option Path :=
  (given a.telemetry).map Path.ofText

def outputPath? (a : Arguments) : Option Path :=
  (given a.output).map Path.ofText

theorem isSome_given_telemetry {a : Arguments} : (given a.telemetry).isSome = true ↔ a.eventsPath? ≠ none := by
  rw [eventsPath?, ← Option.isSome_map (f := Path.ofText), Option.isSome_iff_ne_none]

end Arguments

variable {s opened : Surroundings} {a : Arguments} {p : Preparation} {report : Report} {halt : Halt} {crash : Crash}

/-- The folder with the log file in it. -/
def logged (s : Surroundings) (a : Arguments) : Except Crash Folder :=
  match a.logPath? with
  | none => .ok s.folder
  | some path => (s.folder.touch path).mapError (.ofFileFailure path)

theorem openLog_eq (s : Surroundings) (a : Arguments) : openLog s a = (do
    let folder ← logged s a
    if a.logLevel.isNone then .error (.value (.notName .list)) else return { s with folder := folder }) := by
  unfold openLog logged Arguments.logPath?
  cases given a.logFile with
  | none => rfl
  | some text =>
    dsimp only [Option.map_some]
    cases s.folder.touch (Path.ofText text).straighten <;> rfl

theorem openLog_eq_ok : openLog s a = .ok opened ↔
    ∃ folder, logged s a = .ok folder ∧ a.logLevel ≠ none ∧ { s with folder := folder } = opened := by
  simp only [openLog_eq, bind_eq_ok]
  refine exists_congr fun folder => and_congr_right fun _ => ?_
  cases a.logLevel with
  | none => simp
  | some level => exact ⟨fun h => ⟨nofun, Except.ok.inj h⟩, fun h => congrArg Except.ok h.2⟩

/-- The findings about a document stop a run, unless they are not asked for. -/
def validated [CharNames] (a : Arguments) (document inputs : Environment) : Except Halt Unit :=
  if a.noValidate then .ok ()
  else reject (Validation.validate (.map document) (Mapping.keys (Environment.named inputs)) false)

def backendFor (s : Surroundings) (a : Arguments) (config : Config) : Except Halt Backend :=
  if a.simulate then .ok .simulated
  else (config.llm.backend s.client).mapError fun failure => Halt.complaint failure.message

theorem prepare_eq [CharNames] (s : Surroundings) (a : Arguments) : prepare s a = do
    let config ← (Config.load s.folder s.vars a.config).mapError .ofConfigFailure
    let document ← (readDocument s a).mapError haltOfLoading
    let inputs ← readInputs a
    validated a document inputs
    let backend ← backendFor s a config
    return ⟨config, Program.ofEntries document, inputs, backend⟩ := by
  unfold prepare validated backendFor
  cases a.noValidate <;> cases a.simulate <;> rfl

theorem reject_eq_ok {findings : Except Cause (List Finding)} : reject findings = .ok () ↔ findings = .ok [] := by
  unfold reject
  split <;> simp_all

theorem prepare_eq_ok [CharNames] :
    prepare s a = .ok p ↔ ∃ document, Config.load s.folder s.vars a.config = .ok p.config ∧
    readDocument s a = .ok document ∧ readInputs a = .ok p.inputs ∧ validated a document p.inputs = .ok () ∧
    backendFor s a p.config = .ok p.backend ∧ p.program = Program.ofEntries document := by
  simp only [prepare_eq, bind_eq_ok, mapError_eq_ok]
  constructor
  · rintro ⟨config, hconfig, document, hdocument, inputs, hinputs, _, hvalid, backend, hbackend, ⟨⟩⟩
    exact ⟨document, hconfig, hdocument, hinputs, hvalid, hbackend, rfl⟩
  · rintro ⟨document, hconfig, hdocument, hinputs, hvalid, hbackend, hprogram⟩
    refine ⟨p.config, hconfig, document, hdocument, p.inputs, hinputs, (), hvalid, p.backend, hbackend, ?_⟩
    rw [← hprogram]
    rfl

theorem prepare_eq_error [CharNames] (h : prepare s a = .error halt) :
    (∃ failure, Config.load s.folder s.vars a.config = .error failure ∧ Halt.ofConfigFailure failure = halt) ∨
    (∃ failure, readDocument s a = .error failure ∧ haltOfLoading failure = halt) ∨ readInputs a = .error halt ∨
    (∃ document inputs, readDocument s a = .ok document ∧ validated a document inputs = .error halt) ∨
    ∃ config, backendFor s a config = .error halt := by
  simp only [prepare_eq, bind_eq_error, mapError_eq_error, mapError_eq_ok] at h
  obtain h | ⟨config, -, h | ⟨document, hdocument, h | ⟨inputs, -, h | ⟨-, -, h | ⟨_, -, ⟨⟩⟩⟩⟩⟩⟩ := h
  · exact .inl h
  · exact .inr (.inl h)
  · exact .inr (.inr (.inl h))
  · exact .inr (.inr (.inr (.inl ⟨document, inputs, hdocument, h⟩)))
  · exact .inr (.inr (.inr (.inr ⟨config, h⟩)))

/-- What is said about the outcome of a run; one that was not declared is a crash. -/
def complaintsAbout (outcome : Except RunError Engine.Result) : Except Crash (List String) :=
  match outcome with
  | .ok _ => .ok []
  | .error e => if e.isDeclared then .ok ["Error: " ++ e.message] else .error (.run e)

/-- The events as they are written, if they are. -/
def eventsDocument (s : Surroundings) (a : Arguments) (state : State Backend) : Except Crash String :=
  if (given a.telemetry).isSome then (state.telemetry.render s.stamp).mapError .value else .ok ""

variable {outcome : Except RunError Engine.Result} {state : State Backend}

/-- What follows the writing of the events. -/
def concluded (s : Surroundings) (p : Preparation) (a : Arguments) (outcome : Except RunError Engine.Result)
    (complaints : List String) (written : Except Halt Folder) : Except Crash Report :=
  match written, outcome with
  | .error (.crash crash), _ => .error crash
  | .error (.complaints messages), _ => .ok ⟨1, "", complaints ++ messages, s.folder⟩
  | .ok folder, .error _ => .ok ⟨1, "", complaints, folder⟩
  | .ok folder, .ok result => emitResult s.console folder p a result

theorem conclude_eq (s : Surroundings) (p : Preparation) (a : Arguments) (outcome : Except RunError Engine.Result)
    (state : State Backend) : conclude s p a outcome state = (do
      let complaints ← complaintsAbout outcome
      let events ← eventsDocument s a state
      concluded s p a outcome complaints (writeEvents s.folder a events)) := by
  unfold conclude complaintsAbout eventsDocument
  cases outcome with
  | ok result => cases (given a.telemetry).isSome <;> rfl
  | error e =>
    dsimp only
    cases e.isDeclared <;> cases (given a.telemetry).isSome <;> rfl

theorem conclude_eq_ok (h : conclude s p a outcome state = .ok report) :
    ∃ complaints events, complaintsAbout outcome = .ok complaints ∧ eventsDocument s a state = .ok events ∧
      ((∃ messages, writeEvents s.folder a events = .error (.complaints messages) ∧
          report = ⟨1, "", complaints ++ messages, s.folder⟩) ∨
        ∃ folder, writeEvents s.folder a events = .ok folder ∧
          ((∃ e, outcome = .error e ∧ report = ⟨1, "", complaints, folder⟩) ∨
            ∃ result, outcome = .ok result ∧ emitResult s.console folder p a result = .ok report)) := by
  rw [conclude_eq] at h
  obtain ⟨complaints, hcomplaints, h⟩ := bind_eq_ok.mp h
  obtain ⟨events, hevents, h⟩ := bind_eq_ok.mp h
  refine ⟨complaints, events, hcomplaints, hevents, ?_⟩
  cases hwrite : writeEvents s.folder a events with
  | error halt =>
    rw [hwrite] at h
    cases halt with
    | complaints messages => exact .inl ⟨messages, rfl, (Except.ok.inj h).symm⟩
    | crash c => cases h
  | ok folder =>
    rw [hwrite] at h
    refine .inr ⟨folder, rfl, ?_⟩
    cases outcome with
    | error e => exact .inl ⟨e, rfl, (Except.ok.inj h).symm⟩
    | ok result => exact .inr ⟨result, rfl, h⟩

theorem performRun_eq_ok [CharNames] (h : performRun s a = .ok report) :
    (∃ messages, prepare s a = .error (.complaints messages) ∧ report = ⟨1, "", messages, s.folder⟩) ∨
      ∃ p, prepare s a = .ok p ∧ conclude s p a (execute p a).1 (execute p a).2 = .ok report := by
  unfold performRun at h
  cases hprepare : prepare s a with
  | error halt =>
    rw [hprepare] at h
    cases halt with
    | complaints messages => exact .inl ⟨messages, rfl, (Except.ok.inj h).symm⟩
    | crash c => cases h
  | ok p =>
    rw [hprepare] at h
    exact .inr ⟨p, rfl, h⟩

/-- What a command does once the log file is open. -/
def carryOut [CharNames] (c : Command) (s : Surroundings) (a : Arguments) : Except Crash Report :=
  match c with
  | .run => performRun s a
  | .check => performCheck s a

theorem performWith_eq [CharNames] (c : Command) (s : Surroundings) (a : Arguments) :
    performWith c s a = openLog s a >>= fun opened => carryOut c opened a := by
  cases c <;> rfl

theorem perform_accepted [CharNames] {arguments rest : List String} {c : Command}
    (hcommand : commandOf arguments = (c, rest))
    (hread : Arguments.read c rest = .ok a) : perform s arguments = performWith c s a := by
  rw [perform, hcommand]
  dsimp only
  rw [hread]

end RoutineFlow.CommandLine
