import RoutineFlow.Proofs.AllOrNothing
import RoutineFlow.Proofs.Examination
import RoutineFlow.Proofs.Halves

/-!
Failures that no command reports. Documents of programs and configurations may hold anything, and a value of the wrong
kind in them is met where nothing looks out for it; nor does anything where bytes are no text, or a text has no bytes.
-/

namespace RoutineFlow

open Config (given)
open Results (bind_eq_error map_eq_error)

namespace Engine

open Run

variable {σ : Type}

theorem failsBy_runWithin_reported [CharNames] (engine : Engine σ) (limit : Nat) (env : Environment) :
    FailsBy (· ≠ .exhausted) (engine.runWithin limit env) := by
  have hfailed (cause : Cause) : RunError.failed cause ≠ .exhausted := nofun
  have hmain : FailsBy (· ≠ .exhausted) (engine.runMain limit env) := by
    unfold runMain
    dsimp only
    split
    · exact .fail nofun
    · split
      · exact .fail nofun
      · refine (FailsBy.ofExcept hfailed _).bind fun _ => (FailsBy.log _).bind fun _ => ?_
        refine (FailsBy.attempt _).bind fun outcome => ?_
        split
        · exact .pure _
        · exact .fail nofun
        · rename_i e hother
          exact .fail fun he => hother (by rw [he])
  exact hmain.onError.bind fun _ => (FailsBy.ofExcept hfailed _).bind fun _ => (FailsBy.log _).bind fun _ => .pure _

end Engine

namespace CommandLine

open Results

variable {s : Surroundings} {a : Arguments} {p : Preparation} {crash : Crash}

section Halts

theorem ofCause_eq_crash {cause : Cause} :
    Halt.ofCause cause = .crash crash ↔ cause.kindOf ≠ .value ∧ crash = .value cause := by
  unfold Halt.ofCause Halt.complaint
  split <;> rename_i hclass <;> simp [hclass, eq_comm]

theorem ofJsonError_eq_crash {e : Json.Error} :
    Halt.ofJsonError e = .crash crash ↔ ∃ cause, e = .failed cause ∧ cause.kindOf ≠ .value ∧ crash = .value cause := by
  cases e with
  | malformed problem position => simp [Halt.ofJsonError, Halt.complaint]
  | failed cause => simp [Halt.ofJsonError, ofCause_eq_crash]

/-- Why the program has no text: its path is none, or what is read is no text. -/
inductive Textless (s : Surroundings) (a : Arguments) : Cause → Prop
  | path {path : String} (hpath : given a.program = some path) (hnull : (Path.ofText path).hasNull = true) :
      Textless s a .nullByte
  | file {path problem : String} (hpath : given a.program = some path)
      (hcontent : s.folder.content (Path.ofText path) = .ok (.undecodable problem)) :
      Textless s a (.undecodable problem)
  | input {problem : String} (hnone : given a.program = none) (hinput : s.input = .undecodable problem) :
      Textless s a (.undecodable problem)

theorem content_eq_value {d : Folder} {path : Path} {cause : Cause} :
    d.content path = .error (.value cause) ↔ path.hasNull = true ∧ cause = .nullByte := by
  unfold Folder.content
  cases path.hasNull with
  | true => simp [eq_comm]
  | false =>
    cases d.place path with
    | error fault => simp
    | ok place =>
      simp only [Bool.false_eq_true, ↓reduceIte, false_and, iff_false]
      split <;> simp

theorem decoded_eq_error {content : Content} {cause : Cause} :
    content.decoded = .error cause ↔ ∃ problem, content = .undecodable problem ∧ cause = .undecodable problem := by
  cases content <;> simp [Content.decoded, eq_comm]

theorem unifyLineEnds_eq_undecodable {content : Content} {problem : String} :
    content.unifyLineEnds = .undecodable problem ↔ content = .undecodable problem := by
  cases content <;> simp [Content.unifyLineEnds]

theorem read_eq_value {d : Folder} {path : Path} {cause : Cause} : d.read path = .error (.value cause) ↔
    (path.hasNull = true ∧ cause = .nullByte) ∨
      ∃ problem, d.content path = .ok (.undecodable problem) ∧ cause = .undecodable problem := by
  unfold Folder.read
  simp only [bind_eq_error, mapError_eq_error, content_eq_value, decoded_eq_error, unifyLineEnds_eq_undecodable]
  refine or_congr_right ⟨?_, ?_⟩
  · rintro ⟨_, hcontent, _, ⟨problem, rfl, rfl⟩, ⟨⟩⟩
    exact ⟨problem, hcontent, rfl⟩
  · rintro ⟨problem, hcontent, rfl⟩
    exact ⟨_, hcontent, _, ⟨problem, rfl, rfl⟩, rfl⟩

theorem readFile_eq_failed {d : Folder} {path : Path} {cause : Cause} :
    Program.readFile d path = .error (.failed cause) ↔ d.read path = .error (.value cause) ∨
      ∃ text, d.read path = .ok text ∧ Program.readDocument text (some path.text) = .error (.failed cause) := by
  unfold Program.readFile
  cases d.read path with
  | ok text => simp
  | error failure => cases failure with
    | value cause => simp
    | system fault =>
      have hrejected : Program.unreadable path fault ≠ .failed cause := by
        unfold Program.unreadable
        split <;> nofun
      simpa using hrejected

theorem readDocument_eq_failed {cause : Cause} : readDocument s a = .error (.failed cause) ↔
    Textless s a cause ∨
      ∃ digits, cause = .unreadableInteger digits ∧ readDocument s a = .error (.failed (.unreadableInteger digits)) := by
  have hdigits {text : String} {source : Option String}
      (h : Program.readDocument text source = .error (.failed cause)) : ∃ digits, cause = .unreadableInteger digits := by
    unfold Program.readDocument at h
    split at h
    · cases h
    · cases h
    · rename_i hread
      cases h
      exact Json.unreadable_of_read hread
    · cases h
  constructor
  · intro h
    have hlong : (∃ digits, cause = .unreadableInteger digits) → ∃ digits, cause = .unreadableInteger digits ∧
        readDocument s a = .error (.failed (.unreadableInteger digits)) := by
      rintro ⟨digits, rfl⟩
      exact ⟨digits, rfl, h⟩
    have hread := h
    unfold readDocument at hread
    cases hgiven : given a.program with
    | some path =>
      rw [hgiven] at hread
      obtain hvalue | ⟨text, -, hdocument⟩ := readFile_eq_failed.mp hread
      · obtain ⟨hnull, rfl⟩ | ⟨problem, hcontent, rfl⟩ := read_eq_value.mp hvalue
        · exact .inl (.path hgiven hnull)
        · exact .inl (.file hgiven hcontent)
      · exact .inr (hlong (hdigits hdocument))
    | none =>
      rw [hgiven] at hread
      obtain hfailed | ⟨text, -, hdocument⟩ := bind_eq_error.mp hread
      · obtain ⟨_, hdecoded, ⟨⟩⟩ := mapError_eq_error.mp hfailed
        obtain ⟨problem, hundecodable, rfl⟩ := decoded_eq_error.mp hdecoded
        exact .inl (.input hgiven hundecodable)
      · exact .inr (hlong (hdigits hdocument))
  · rintro (htextless | ⟨digits, rfl, h⟩)
    · unfold readDocument
      cases htextless with
      | path hpath hnull =>
        rw [hpath]
        exact readFile_eq_failed.mpr (.inl (read_eq_value.mpr (.inl ⟨hnull, rfl⟩)))
      | file hpath hcontent =>
        rw [hpath]
        exact readFile_eq_failed.mpr (.inl (read_eq_value.mpr (.inr ⟨_, hcontent, rfl⟩)))
      | input hnone hinput =>
        rw [hnone, hinput]
        rfl
    · exact h

theorem haltOfLoading_ne_crash {failure : LoadFailure} (h : readDocument s a = .error failure) :
    haltOfLoading failure ≠ .crash crash := by
  cases failure with
  | rejected message source => simp [haltOfLoading, Halt.complaint]
  | failed cause =>
    have hclass : cause.kindOf = .value := by
      obtain htextless | ⟨digits, rfl, -⟩ := readDocument_eq_failed.mp h
      · cases htextless <;> rfl
      · rfl
    simp [haltOfLoading, ofCause_eq_crash, hclass]

theorem readInputs_ne_crash : readInputs a ≠ .error (.crash crash) := by
  unfold readInputs
  split
  · nofun
  · split
    · nofun
    · simp [Halt.complaint]
    · simp [Halt.complaint]
    · rename_i cause hread
      obtain ⟨digits, rfl⟩ := Json.unreadable_of_read hread
      simp [ofCause_eq_crash, Cause.kindOf]

theorem reject_eq_crash {findings : Except Cause (List Finding)} :
    reject findings = .error (.crash crash) ↔ ∃ cause, findings = .error cause ∧ crash = .value cause := by
  unfold reject
  split <;> simp [eq_comm]

theorem validated_eq_crash [CharNames] {document inputs : Environment} :
    validated a document inputs = .error (.crash crash) ↔
      a.noValidate = false ∧ ∃ cause, Validation.Unexamined document false cause ∧ crash = .value cause := by
  unfold validated
  cases a.noValidate <;> simp [reject_eq_crash, Validation.validate_eq_error]

theorem backendFor_ne_crash {config : Config} : backendFor s a config ≠ .error (.crash crash) := by
  unfold backendFor Halt.complaint
  split
  · nofun
  · simp [mapError_eq_error]

theorem ofConfigFailure_eq_crash {failure : Config.Failure} : Halt.ofConfigFailure failure = .crash crash ↔
    (∃ cause, failure = .document (.failed cause) ∧ cause.kindOf ≠ .value ∧ crash = .value cause) ∨
      ∃ path fault, failure = .file path fault ∧ crash = .file path fault := by
  cases failure with
  | document e => simp [Halt.ofConfigFailure, ofJsonError_eq_crash]
  | file path fault => simp [Halt.ofConfigFailure, eq_comm]

theorem prepare_eq_crash [CharNames] : prepare s a = .error (.crash crash) ↔
    (∃ cause, Config.load s.folder s.vars a.config = .error (.document (.failed cause)) ∧ cause.kindOf ≠ .value ∧
      crash = .value cause) ∨
    (∃ path fault, Config.load s.folder s.vars a.config = .error (.file path fault) ∧ crash = .file path fault) ∨
    ∃ config document inputs cause, Config.load s.folder s.vars a.config = .ok config ∧
      readDocument s a = .ok document ∧ readInputs a = .ok inputs ∧ a.noValidate = false ∧
      Validation.Unexamined document false cause ∧ crash = .value cause := by
  simp only [prepare_eq, bind_eq_error, mapError_eq_error, mapError_eq_ok]
  constructor
  · rintro (⟨e, he, hhalt⟩ | ⟨config, hconfig, ⟨failure, hfailure, hhalt⟩ | ⟨document, hdocument, hinputs |
      ⟨inputs, hinputs, hvalid | ⟨_, -, hbackend | ⟨_, -, ⟨⟩⟩⟩⟩⟩⟩)
    · obtain ⟨cause, rfl, hclass, rfl⟩ | ⟨path, fault, rfl, rfl⟩ := ofConfigFailure_eq_crash.mp hhalt
      · exact .inl ⟨cause, he, hclass, rfl⟩
      · exact .inr (.inl ⟨path, fault, he, rfl⟩)
    · exact (haltOfLoading_ne_crash hfailure hhalt).elim
    · exact (readInputs_ne_crash hinputs).elim
    · obtain ⟨hvalidate, cause, hcause, rfl⟩ := validated_eq_crash.mp hvalid
      exact .inr (.inr ⟨config, document, inputs, cause, hconfig, hdocument, hinputs, hvalidate, hcause, rfl⟩)
    · exact (backendFor_ne_crash hbackend).elim
  · rintro (⟨cause, he, hclass, rfl⟩ | ⟨path, fault, he, rfl⟩ |
      ⟨config, document, inputs, cause, hconfig, hdocument, hinputs, hvalidate, hcause, rfl⟩)
    · exact .inl ⟨_, he, ofConfigFailure_eq_crash.mpr (.inl ⟨cause, rfl, hclass, rfl⟩)⟩
    · exact .inl ⟨_, he, ofConfigFailure_eq_crash.mpr (.inr ⟨path, fault, rfl, rfl⟩)⟩
    · have hvalid : validated a document inputs = .error (.crash (.value cause)) :=
        validated_eq_crash.mpr ⟨hvalidate, cause, hcause, rfl⟩
      exact .inr ⟨config, hconfig, .inr ⟨document, hdocument, .inr ⟨inputs, hinputs, .inl hvalid⟩⟩⟩

end Halts

section Conclusions

variable {outcome : Except RunError Engine.Result} {state : State Backend}

/-- Why a text does not arrive where results go: there are no characters for it, or the path is none. -/
inductive Unsent (console : Encoding) (d : Folder) (a : Arguments) (text : String) : Cause → Prop
  | shown {cause : Cause} (hnone : a.outputPath? = none) (hcheck : console.check (text ++ "\n") = .error cause) :
      Unsent console d a text cause
  | stored {path : Path} {cause : Cause} (hpath : a.outputPath? = some path)
      (hwrite : d.write path (text ++ "\n") = .error (.value cause)) : Unsent console d a text cause

theorem writeLine_eq_crash {d : Folder} {path text failed : String} :
    writeLine d path text failed = .error (.crash crash) ↔
      ∃ cause, d.write (Path.ofText path) (text ++ "\n") = .error (.value cause) ∧ crash = .value cause := by
  rw [writeLine, mapError_eq_error]
  constructor
  · rintro ⟨fault | cause, hwrite, ⟨⟩⟩
    exact ⟨cause, hwrite, rfl⟩
  · rintro ⟨cause, hwrite, rfl⟩
    exact ⟨_, hwrite, rfl⟩

theorem writeEvents_eq_crash {d : Folder} {text : String} : writeEvents d a text = .error (.crash crash) ↔
    ∃ path cause, a.eventsPath? = some path ∧ d.write path (text ++ "\n") = .error (.value cause) ∧
      crash = .value cause := by
  unfold writeEvents Arguments.eventsPath?
  cases given a.telemetry with
  | none => simp
  | some path => simp [writeLine_eq_crash]

theorem writeResult_eq_error {console : Encoding} {d : Folder} {text : String} :
    writeResult console d a text = .error crash ↔ ∃ cause, Unsent console d a text cause ∧ crash = .value cause := by
  have houtput : a.outputPath? = (given a.output).map Path.ofText := rfl
  unfold writeResult
  cases hgiven : given a.output with
  | none =>
    rw [hgiven] at houtput
    simp only [map_eq_error, mapError_eq_error]
    constructor
    · rintro ⟨cause, hcheck, rfl⟩
      exact ⟨cause, .shown houtput hcheck, rfl⟩
    · rintro ⟨cause, ⟨-, hcheck⟩ | ⟨hpath, -⟩, rfl⟩
      · exact ⟨cause, hcheck, rfl⟩
      · cases houtput.symm.trans hpath
  | some path =>
    rw [hgiven] at houtput
    have hcrash : (∃ cause, Unsent console d a text cause ∧ crash = .value cause) ↔
        writeLine d path text "Error writing output: " = .error (.crash crash) := by
      rw [writeLine_eq_crash]
      refine exists_congr fun cause => and_congr_left fun _ => ⟨?_, .stored houtput⟩
      rintro (⟨hnone, -⟩ | ⟨hpath, hwrite⟩)
      · cases houtput.symm.trans hnone
      · obtain rfl := Option.some.inj (houtput.symm.trans hpath)
        exact hwrite
    rw [hcrash]
    dsimp only
    cases writeLine d path text "Error writing output: " with
    | ok written => simp
    | error halt => cases halt <;> simp

theorem emitResult_eq_error {console : Encoding} {d : Folder} {result : Engine.Result} :
    emitResult console d p a result = .error crash ↔
      ∃ text, emitted a p result = .ok text ∧ writeResult console d a text = .error crash := by
  -- Only numbers are in the way of a result as a text, and what they fail by is reported.
  have hclass : FailsIn (fun cause => cause.kindOf = .value) (emitted a p result) :=
    Json.failsIn_render (l := Emit.layout _) (P := fun cause => cause.kindOf = .value) rfl (fun _ _ => rfl) _
  rw [emitResult_eq]
  cases hemitted : emitted a p result with
  | ok text => simp
  | error cause => simp [hclass cause hemitted]

theorem concluded_eq_error {complaints : List String} {written : Except Halt Folder} :
    concluded s p a outcome complaints written = .error crash ↔ written = .error (.crash crash) ∨
      ∃ folder result text, written = .ok folder ∧ outcome = .ok result ∧ emitted a p result = .ok text ∧
        writeResult s.console folder a text = .error crash := by
  cases written with
  | error halt => cases halt <;> simp [concluded]
  | ok folder => cases outcome <;> simp [concluded, emitResult_eq_error]

theorem complaintsAbout_eq_error :
    complaintsAbout outcome = .error crash ↔ ∃ e, outcome = .error e ∧ e.isDeclared = false ∧ crash = .run e := by
  unfold complaintsAbout
  cases outcome with
  | ok result => simp
  | error e =>
    cases hdeclared : e.isDeclared
    · simpa [hdeclared] using eq_comm
    · simp [hdeclared]

theorem eventsDocument_eq_error : eventsDocument s a state = .error crash ↔
    a.eventsPath? ≠ none ∧ state.telemetry.render s.stamp = .error .unwritableInteger ∧
      crash = .value .unwritableInteger := by
  have honly : FailsIn (· = .unwritableInteger) (state.telemetry.render s.stamp) :=
    Json.failsIn_render (l := Telemetry.layout) (P := (· = .unwritableInteger)) rfl (fun hfinite => by cases hfinite) _
  unfold eventsDocument
  split
  · rename_i hsome
    simp only [mapError_eq_error, Arguments.isSome_given_telemetry.mp hsome, not_false_eq_true, ne_eq, true_and]
    constructor
    · rintro ⟨cause, hcause, rfl⟩
      obtain rfl := honly cause hcause
      exact ⟨hcause, rfl⟩
    · rintro ⟨hcause, rfl⟩
      exact ⟨_, hcause, rfl⟩
  · rename_i hnone
    simp [← Arguments.isSome_given_telemetry, hnone]

theorem conclude_eq_error : conclude s p a outcome state = .error crash ↔
    (∃ e, outcome = .error e ∧ e.isDeclared = false ∧ crash = .run e) ∨
      (∀ e, outcome = .error e → e.isDeclared = true) ∧ ((a.eventsPath? ≠ none ∧
        state.telemetry.render s.stamp = .error .unwritableInteger ∧ crash = .value .unwritableInteger) ∨
        ∃ events, eventsDocument s a state = .ok events ∧ (writeEvents s.folder a events = .error (.crash crash) ∨
          ∃ folder result text, writeEvents s.folder a events = .ok folder ∧ outcome = .ok result ∧
            emitted a p result = .ok text ∧ writeResult s.console folder a text = .error crash)) := by
  have hdeclared : (∃ complaints, complaintsAbout outcome = .ok complaints) ↔
      ∀ e, outcome = .error e → e.isDeclared = true := by
    unfold complaintsAbout
    cases outcome with
    | ok result => simp
    | error e => cases hdeclared : e.isDeclared <;> simp [hdeclared]
  simp only [conclude_eq, bind_eq_error, complaintsAbout_eq_error, eventsDocument_eq_error, concluded_eq_error,
    exists_and_right, hdeclared]

end Conclusions

/-- The ways in which a command ends without a report, in the order in which it comes to them. -/
inductive Escapes [CharNames] (s : Surroundings) (a : Arguments) : Command → Crash → Prop
  | logFile {c : Command} {path : Path} {failure : FileFailure} (hpath : a.logPath? = some path)
      (hfailure : s.folder.touch path = .error failure) : Escapes s a c (.ofFileFailure path failure)
  | logLevel {c : Command} {folder : Folder} (hlogged : logged s a = .ok folder) (hlevel : a.logLevel = none) :
      Escapes s a c (.value (.notName .list))
  | config {opened : Surroundings} {cause : Cause} (hopened : openLog s a = .ok opened)
      (hcause : Config.load opened.folder opened.vars a.config = .error (.document (.failed cause)))
      (hclass : cause.kindOf ≠ .value) : Escapes s a .run (.value cause)
  | configFile {opened : Surroundings} {path : Path} {fault : FileFault} (hopened : openLog s a = .ok opened)
      (hfault : Config.load opened.folder opened.vars a.config = .error (.file path fault)) :
      Escapes s a .run (.file path fault)
  | runFindings {opened : Surroundings} {config : Config} {document inputs : Environment} {cause : Cause}
      (hopened : openLog s a = .ok opened) (hconfig : Config.load opened.folder opened.vars a.config = .ok config)
      (hdocument : readDocument opened a = .ok document) (hinputs : readInputs a = .ok inputs)
      (hvalidate : a.noValidate = false) (hunexamined : Validation.Unexamined document false cause) :
      Escapes s a .run (.value cause)
  | run {opened : Surroundings} {p : Preparation} {cause : Cause} (hopened : openLog s a = .ok opened)
      (hprepare : prepare opened a = .ok p) (hcause : (execute p a).1 = .error (.failed cause)) :
      Escapes s a .run (.run (.failed cause))
  | events {opened : Surroundings} {p : Preparation} (hopened : openLog s a = .ok opened)
      (hprepare : prepare opened a = .ok p) (hreported : ∀ cause, (execute p a).1 ≠ .error (.failed cause))
      (hpath : a.eventsPath? ≠ none) (hlong : (execute p a).2.telemetry.render s.stamp = .error .unwritableInteger) :
      Escapes s a .run (.value .unwritableInteger)
  | eventsFile {opened : Surroundings} {p : Preparation} {path : Path} {events : String} {cause : Cause}
      (hopened : openLog s a = .ok opened) (hprepare : prepare opened a = .ok p)
      (hreported : ∀ cause, (execute p a).1 ≠ .error (.failed cause)) (hpath : a.eventsPath? = some path)
      (hevents : eventsDocument opened a (execute p a).2 = .ok events)
      (hwrite : opened.folder.write path (events ++ "\n") = .error (.value cause)) : Escapes s a .run (.value cause)
  | output {opened : Surroundings} {p : Preparation} {folder : Folder} {result : Engine.Result} {events text : String}
      {cause : Cause} (hopened : openLog s a = .ok opened) (hprepare : prepare opened a = .ok p)
      (hresult : (execute p a).1 = .ok result) (hevents : eventsDocument opened a (execute p a).2 = .ok events)
      (hwritten : writeEvents opened.folder a events = .ok folder) (hemitted : emitted a p result = .ok text)
      (hunsent : Unsent opened.console folder a text cause) : Escapes s a .run (.value cause)
  | programText {opened : Surroundings} {cause : Cause} (hopened : openLog s a = .ok opened)
      (htextless : Textless opened a cause) : Escapes s a .check (.value cause)
  | document {opened : Surroundings} {digits : Nat} (hopened : openLog s a = .ok opened)
      (hlong : readDocument opened a = .error (.failed (.unreadableInteger digits))) :
      Escapes s a .check (.value (.unreadableInteger digits))
  | checkFindings {opened : Surroundings} {document : Environment} {cause : Cause} (hopened : openLog s a = .ok opened)
      (hdocument : readDocument opened a = .ok document)
      (hunexamined : Validation.Unexamined document a.checkExpressions cause) : Escapes s a .check (.value cause)

section Escapes

variable {opened : Surroundings}

theorem openLog_eq_error : openLog s a = .error crash ↔
    (∃ path failure, a.logPath? = some path ∧ s.folder.touch path = .error failure ∧
      crash = .ofFileFailure path failure) ∨
      ∃ folder, logged s a = .ok folder ∧ a.logLevel = none ∧ crash = .value (.notName .list) := by
  have hlogged : logged s a = .error crash ↔ ∃ path failure, a.logPath? = some path ∧
      s.folder.touch path = .error failure ∧ crash = .ofFileFailure path failure := by
    unfold logged
    cases a.logPath? with
    | none => simp
    | some path =>
      simp only [mapError_eq_error, Option.some.injEq, exists_and_left, exists_eq_left']
      exact exists_congr fun failure => and_congr_right fun _ => eq_comm
  simp only [openLog_eq, bind_eq_error, hlogged]
  refine or_congr_right (exists_congr fun folder => and_congr_right fun _ => ?_)
  cases a.logLevel with
  | none => simpa using eq_comm
  | some level => simp [pure, Except.pure]

theorem openLog_stamp (h : openLog s a = .ok opened) : opened.stamp = s.stamp := by
  obtain ⟨folder, -, -, rfl⟩ := openLog_eq_ok.mp h
  rfl

theorem isDeclared_of_ne {e : RunError} (hreported : e ≠ .exhausted) (hfailed : ∀ cause, e ≠ .failed cause) :
    e.isDeclared = true := by
  cases e with
  | failed cause => exact (hfailed cause rfl).elim
  | exhausted => exact (hreported rfl).elim
  | _ => rfl

theorem execute_ne_exhausted [CharNames] (p : Preparation) (a : Arguments) : (execute p a).1 ≠ .error .exhausted := by
  intro h
  let engine : Engine Backend := ⟨p.program, some Backend.service, workers p a⟩
  have hrun := engine.failsBy_runWithin_reported Engine.defaultLimit p.inputs
  exact hrun (Prod.ext h rfl : execute p a = (.error .exhausted, (execute p a).2)) rfl

theorem isDeclared_of_execute [CharNames] (hreported : ∀ cause, (execute p a).1 ≠ .error (.failed cause)) (e : RunError)
    (he : (execute p a).1 = .error e) : e.isDeclared = true := by
  refine isDeclared_of_ne ?_ fun cause hcause => hreported cause (hcause ▸ he)
  rintro rfl
  exact execute_ne_exhausted p a he

theorem performRun_eq_error [CharNames] : performRun s a = .error crash ↔
    prepare s a = .error (.crash crash) ∨
      ∃ p, prepare s a = .ok p ∧ conclude s p a (execute p a).1 (execute p a).2 = .error crash := by
  unfold performRun
  cases prepare s a with
  | error halt => cases halt <;> simp [halted]
  | ok p => simp

theorem escapes_of_performRun [CharNames] (hopened : openLog s a = .ok opened)
    (h : performRun opened a = .error crash) : Escapes s a .run crash := by
  obtain hprepare | ⟨p, hprepare, hconclude⟩ := performRun_eq_error.mp h
  · obtain ⟨cause, hcause, hclass, rfl⟩ | ⟨path, fault, hfault, rfl⟩ |
      ⟨config, document, inputs, cause, hconfig, hdocument, hinputs, hvalidate, hcause, rfl⟩ :=
        prepare_eq_crash.mp hprepare
    · exact .config hopened hcause hclass
    · exact .configFile hopened hfault
    · exact .runFindings hopened hconfig hdocument hinputs hvalidate hcause
  · obtain ⟨e, he, hdeclared, rfl⟩ | ⟨hdeclared, ⟨hpath, hlong, rfl⟩ | ⟨events, hevents, hwritten⟩⟩ :=
      conclude_eq_error.mp hconclude
    · cases e with
      | failed cause => exact .run hopened hprepare he
      | exhausted => exact (execute_ne_exhausted p a he).elim
      | _ => cases hdeclared
    · exact .events hopened hprepare (fun cause hcause => nomatch hdeclared _ hcause) hpath
        (openLog_stamp hopened ▸ hlong)
    · obtain hcrash | ⟨folder, result, text, hwritten, hresult, hemitted, hcrash⟩ := hwritten
      · obtain ⟨path, cause, hpath, hwrite, rfl⟩ := writeEvents_eq_crash.mp hcrash
        exact .eventsFile hopened hprepare (fun cause hcause => nomatch hdeclared _ hcause) hpath hevents hwrite
      · obtain ⟨cause, hunsent, rfl⟩ := writeResult_eq_error.mp hcrash
        exact .output hopened hprepare hresult hevents hwritten hemitted hunsent

theorem performCheck_eq_error [CharNames] : performCheck s a = .error crash ↔
    (∃ cause, readDocument s a = .error (.failed cause) ∧ crash = .value cause) ∨
    ∃ document cause, readDocument s a = .ok document ∧ Validation.Unexamined document a.checkExpressions cause ∧
      crash = .value cause := by
  unfold performCheck
  cases hdocument : readDocument s a with
  | error failure =>
    cases failure with
    | rejected message source => simp [halted, Halt.complaint]
    | failed cause => simpa using eq_comm
  | ok document =>
    dsimp only
    cases hreject : reject (Validation.validate (.map document) [] a.checkExpressions) with
    | ok done =>
      have hexamined (cause : Cause) : ¬ Validation.Unexamined document a.checkExpressions cause := by
        intro hunexamined
        have hvalidate : Validation.validate (.map document) [] a.checkExpressions = .error cause :=
          Validation.validate_eq_error.mpr hunexamined
        cases (reject_eq_ok.mp hreject).symm.trans hvalidate
      simp [hexamined]
    | error halt =>
      have hcrash : (∃ cause, Validation.Unexamined document a.checkExpressions cause ∧ crash = .value cause) ↔
          halt = .crash crash := by
        simp only [← @Validation.validate_eq_error document _ _ []]
        rw [← reject_eq_crash, hreject, Except.error.injEq]
      cases halt <;> simp [halted, hcrash]

theorem escapes_of_performCheck [CharNames] (hopened : openLog s a = .ok opened)
    (h : performCheck opened a = .error crash) : Escapes s a .check crash := by
  obtain ⟨cause, hfailed, rfl⟩ | ⟨document, cause, hdocument, hcause, rfl⟩ := performCheck_eq_error.mp h
  · obtain htextless | ⟨digits, rfl, hlong⟩ := readDocument_eq_failed.mp hfailed
    · exact .programText hopened htextless
    · exact .document hopened hlong
  · exact .checkFindings hopened hdocument hcause

theorem performWith_of_escapes [CharNames] {c : Command} (h : Escapes s a c crash) :
    performWith c s a = .error crash := by
  rw [performWith_eq, bind_eq_error]
  cases h with
  | logFile hpath hfailure => exact .inl (openLog_eq_error.mpr (.inl ⟨_, _, hpath, hfailure, rfl⟩))
  | logLevel hlogged hlevel => exact .inl (openLog_eq_error.mpr (.inr ⟨_, hlogged, hlevel, rfl⟩))
  | config hopened hcause hclass =>
    exact .inr ⟨_, hopened, performRun_eq_error.mpr (.inl (prepare_eq_crash.mpr (.inl ⟨_, hcause, hclass, rfl⟩)))⟩
  | configFile hopened hfault =>
    exact .inr ⟨_, hopened, performRun_eq_error.mpr (.inl (prepare_eq_crash.mpr (.inr (.inl ⟨_, _, hfault, rfl⟩))))⟩
  | runFindings hopened hconfig hdocument hinputs hvalidate hcause =>
    have hprepare :=
      prepare_eq_crash.mpr (.inr (.inr ⟨_, _, _, _, hconfig, hdocument, hinputs, hvalidate, hcause, rfl⟩))
    exact .inr ⟨_, hopened, performRun_eq_error.mpr (.inl hprepare)⟩
  | run hopened hprepare hcause =>
    refine .inr ⟨_, hopened, performRun_eq_error.mpr (.inr ⟨_, hprepare, ?_⟩)⟩
    exact conclude_eq_error.mpr (.inl ⟨_, hcause, rfl, rfl⟩)
  | events hopened hprepare hreported hpath hlong =>
    refine .inr ⟨_, hopened, performRun_eq_error.mpr (.inr ⟨_, hprepare, ?_⟩)⟩
    have hrender := openLog_stamp hopened ▸ hlong
    exact conclude_eq_error.mpr (.inr ⟨isDeclared_of_execute hreported, .inl ⟨hpath, hrender, rfl⟩⟩)
  | eventsFile hopened hprepare hreported hpath hevents hwrite =>
    refine .inr ⟨_, hopened, performRun_eq_error.mpr (.inr ⟨_, hprepare, ?_⟩)⟩
    have hcrash := writeEvents_eq_crash.mpr ⟨_, _, hpath, hwrite, rfl⟩
    exact conclude_eq_error.mpr (.inr ⟨isDeclared_of_execute hreported, .inr ⟨_, hevents, .inl hcrash⟩⟩)
  | output hopened hprepare hresult hevents hwritten hemitted hunsent =>
    refine .inr ⟨_, hopened, performRun_eq_error.mpr (.inr ⟨_, hprepare, ?_⟩)⟩
    have hcrash := writeResult_eq_error.mpr ⟨_, hunsent, rfl⟩
    have hdeclared := isDeclared_of_execute fun cause hcause => by cases hresult.symm.trans hcause
    exact conclude_eq_error.mpr
      (.inr ⟨hdeclared, .inr ⟨_, hevents, .inr ⟨_, _, _, hwritten, hresult, hemitted, hcrash⟩⟩⟩)
  | programText hopened htextless =>
    have hfailed := readDocument_eq_failed.mpr (.inl htextless)
    exact .inr ⟨_, hopened, performCheck_eq_error.mpr (.inl ⟨_, hfailed, rfl⟩)⟩
  | document hopened hlong => exact .inr ⟨_, hopened, performCheck_eq_error.mpr (.inl ⟨_, hlong, rfl⟩)⟩
  | checkFindings hopened hdocument hcause =>
    exact .inr ⟨_, hopened, performCheck_eq_error.mpr (.inr ⟨_, _, hdocument, hcause, rfl⟩)⟩

theorem performWith_eq_error [CharNames] {c : Command} : performWith c s a = .error crash ↔ Escapes s a c crash := by
  refine ⟨fun h => ?_, performWith_of_escapes⟩
  rw [performWith_eq, bind_eq_error] at h
  obtain hopened | ⟨opened, hopened, h⟩ := h
  · obtain ⟨path, failure, hpath, hfailure, rfl⟩ | ⟨folder, hlogged, hlevel, rfl⟩ := openLog_eq_error.mp hopened
    · exact .logFile hpath hfailure
    · exact .logLevel hlogged hlevel
  · cases c with
    | run => exact escapes_of_performRun hopened h
    | check => exact escapes_of_performCheck hopened h

/-- The texts that documents are read from. -/
inductive DocumentText (s : Surroundings) (a : Arguments) : String → Prop
  | file {path text : String} (hpath : given a.program = some path)
      (hread : s.folder.read (Path.ofText path) = .ok text) : DocumentText s a text
  | input {text : String} (hnone : given a.program = none) (hinput : s.input = .text text) : DocumentText s a text
  | inputs {text : String} (hgiven : given a.inputsJson = some text) : DocumentText s a text
  | config {path : Path} {text : String}
      (hfirst : Config.firstFile s.folder (Config.places s.vars a.config) = .ok (some path))
      (hread : s.folder.read path = .ok text) : DocumentText s a text

/-- No document, and no code of the program, spells half of a pair on its own. Such a text cannot be encoded, while here
another character is read for the half. -/
structure Whole [CharNames] (s : Surroundings) (a : Arguments) : Prop where
  documents : ∀ text, DocumentText s a text → Json.isWhole 0 text.toList = true
  code : ∀ document name routine source, readDocument s a = .ok document →
    (name, routine) ∈ (Program.ofEntries document).routines → routine.body = .code (.str source) →
    Expr.Literal.isWhole 0 source.toList = true

/-- Where every text is whole, accepted arguments lead to a report, which tells what failed if anything did, unless a
failure escapes; and just those escape that are listed. -/
theorem told_unless_escapes [CharNames] {arguments rest : List String} {c : Command}
    (hcommand : commandOf arguments = (c, rest))
    (hread : Arguments.read c rest = .ok a) (_hwhole : ∀ opened, openLog s a = .ok opened → Whole opened a) :
    (∀ report, perform s arguments = .ok report → report.code = 0 ∨ report.Failed) ∧
      ∀ crash, perform s arguments = .error crash ↔ Escapes s a c crash := by
  refine ⟨fun report h => ?_, fun crash => ?_⟩
  · have hhelp : Arguments.read c rest ≠ .error .help := by
      rw [hread]
      nofun
    obtain ⟨why, hrefused, -⟩ | ⟨a', opened, -, -, h⟩ := perform_eq_ok hcommand hhelp h
    · cases hread.symm.trans hrefused
    · cases c with
      | run => exact (performRun_cases h).elim (fun hfailed => .inr hfailed.1) fun hdone => .inl hdone.1
      | check => exact (performCheck_cases h).2.2.symm
  · rw [perform_accepted hcommand hread]
    exact performWith_eq_error

/-- A configuration stands where one is, but nothing may be read there. -/
def guardedSurroundings : Surroundings :=
  { idleSurroundings with folder.nodes := [("rfl.config.json", .file (.text ""))]
                          folder.refuses | .read, _ => some .denied | _, _ => none }

def accentedArguments : List String := ["--inputs-json", "\x7b\"k\": \"\\u00e9\"\x7d", "p.json"]

def accentedAccepted : Arguments :=
  { program := some "p.json", inputsJson := some "\x7b\"k\": \"\\u00e9\"\x7d" }

/-- A run does not do without a configuration that it may not read, nor does it report that. -/
theorem guarded_config_escapes : perform guardedSurroundings ("run" :: accentedArguments) =
    .error (.file ⟨"", ["rfl.config.json"]⟩ .denied) := by
  have hcommand : commandOf ("run" :: accentedArguments) = (.run, accentedArguments) := rfl
  have hread : Arguments.read .run accentedArguments = .ok accentedAccepted := rfl
  have hopened : openLog guardedSurroundings accentedAccepted = .ok guardedSurroundings := rfl
  have hfirst : Config.firstFile guardedSurroundings.folder (Config.places guardedSurroundings.vars none) =
      .ok (some ⟨"", ["rfl.config.json"]⟩) := rfl
  have hconfig : guardedSurroundings.folder.read ⟨"", ["rfl.config.json"]⟩ = .error (.system .denied) := rfl
  have hprogram : guardedSurroundings.folder.read (Path.ofText "p.json") = .error (.system .missing) := rfl
  have hwhole : Whole guardedSurroundings accentedAccepted := by
    constructor
    · rintro text (⟨hpath, hread⟩ | ⟨hnone, -⟩ | ⟨hgiven⟩ | ⟨hplace, hread⟩)
      · obtain rfl := Option.some.inj hpath
        cases hprogram.symm.trans hread
      · cases hnone
      · obtain rfl := Option.some.inj hgiven
        rfl
      · obtain rfl := Option.some.inj (Except.ok.inj (hfirst.symm.trans hplace))
        cases hconfig.symm.trans hread
    · intro document name routine source hread
      have hfailed : Program.readFile guardedSurroundings.folder (Path.ofText "p.json") = .ok document := hread
      rw [Program.readFile, hprogram] at hfailed
      cases hfailed
  have hload : Config.load guardedSurroundings.folder guardedSurroundings.vars none =
      .error (.file ⟨"", ["rfl.config.json"]⟩ .denied) := by
    simp only [Config.load, hfirst, hconfig, bind, Except.bind]
  refine ((told_unless_escapes hcommand hread fun opened h => ?_).2 _).mpr (.configFile hopened hload)
  rw [← Except.ok.inj (hopened.symm.trans h)]
  exact hwhole

/-- A program whose entry routine is named by a list. -/
def unnamedText : String :=
  "\x7b\"main\": [\"m\"], \"routines\": \x7b\x7d\x7d"

def unnamedSurroundings : Surroundings :=
  { idleSurroundings with folder := { nodes := [("p.json", .file (.text unnamedText))] } }

/-- A check finds nothing wrong with such a program and reports nothing: it does not come to an end. -/
theorem unnamed_main_escapes :
    perform unnamedSurroundings ["check", "p.json"] = .error (.value (.unhashable .list)) := by
  have hcommand : commandOf ["check", "p.json"] = (.check, ["p.json"]) := rfl
  have hread : Arguments.read .check ["p.json"] = .ok { program := some "p.json" } := rfl
  have hdocument : readDocument unnamedSurroundings { program := some "p.json" } =
      .ok [(.text "main", .list [.str "m"]), (.text "routines", .map [])] := by cbv
  rw [perform_accepted hcommand hread]
  exact performWith_of_escapes (.checkFindings rfl hdocument (.main rfl rfl))

end Escapes

end CommandLine

end RoutineFlow
