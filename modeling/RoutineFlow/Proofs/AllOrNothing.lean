import RoutineFlow.Proofs.Commands
import RoutineFlow.Proofs.Emission
import RoutineFlow.Proofs.Files
import RoutineFlow.Proofs.Telemetry

/-!
A command leaves its whole result or nothing of it. Failures are told at the standard error output, and neither the standard
output nor the file for the result shows any trace of them; only the events are written whatever came of the run.
-/

namespace RoutineFlow.CommandLine

open Config (given)
open Results

/-- The paths to what a command writes lead to different places. -/
def Arguments.Separate (a : Arguments) (d : Folder) : Prop :=
  ([a.logPath?, a.eventsPath?, a.outputPath?].filterMap id).Pairwise d.Apart

/-- There is a line that begins with the word for an error. -/
def Told (lines : List String) : Prop :=
  ∃ rest, "Error" ++ rest ∈ lines

/-- What a failure leaves: nothing at the standard output, and what went wrong in a line of its own. -/
structure Report.Failed (report : Report) : Prop where
  code : report.code = 1
  output : report.output = ""
  told : Told report.errors

/-- Halts that are complaints are told as errors. -/
def Halt.Told : Halt → Prop
  | .complaints messages => CommandLine.Told messages
  | .crash _ => True

section Complaints

theorem told_of_mem {lines : List String} (start rest : String) (h : "Error" ++ start ++ rest ∈ lines) : Told lines :=
  ⟨start ++ rest, by rwa [← String.append_assoc]⟩

theorem told_complaint (message : String) : (Halt.complaint message).Told :=
  told_of_mem ": " message (List.mem_singleton_self _)

theorem told_ofCause (cause : Cause) : (Halt.ofCause cause).Told := by
  unfold Halt.ofCause
  split
  · exact told_complaint _
  · trivial

theorem told_ofJsonError (e : Json.Error) : (Halt.ofJsonError e).Told := by
  cases e with
  | malformed problem position => exact told_complaint _
  | failed cause => exact told_ofCause cause

theorem told_ofConfigFailure (failure : Config.Failure) : (Halt.ofConfigFailure failure).Told := by
  cases failure with
  | document e => exact told_ofJsonError e
  | file path fault => trivial

theorem told_haltOfLoading (failure : LoadFailure) : (haltOfLoading failure).Told := by
  cases failure with
  | rejected message source => exact told_complaint _
  | failed cause => exact told_ofCause cause

variable {s : Surroundings} {a : Arguments} {halt : Halt}

theorem told_readInputs (h : readInputs a = .error halt) : halt.Told := by
  unfold readInputs at h
  split at h
  · cases h
  · split at h <;> cases h
    · exact told_complaint _
    · exact told_complaint _
    · exact told_ofCause _

theorem told_reject {findings : Except Cause (List Finding)} (h : reject findings = .error halt) : halt.Told := by
  unfold reject at h
  split at h
  · cases h
    trivial
  · cases h
  · rename_i findings hsome
    cases h
    cases findings with
    | nil => exact (hsome rfl).elim
    | cons finding rest => exact told_of_mem ": " finding.text List.mem_cons_self

theorem told_prepare [CharNames] (h : prepare s a = .error halt) : halt.Told := by
  obtain ⟨failure, -, rfl⟩ | ⟨failure, -, rfl⟩ | h | ⟨document, inputs, -, h⟩ | ⟨config, h⟩ := prepare_eq_error h
  · exact told_ofConfigFailure failure
  · exact told_haltOfLoading failure
  · exact told_readInputs h
  · unfold validated at h
    split at h
    · cases h
    · exact told_reject h
  · unfold backendFor at h
    split at h
    · cases h
    · obtain ⟨failure, -, rfl⟩ := mapError_eq_error.mp h
      exact told_complaint _

end Complaints

section Writing

variable {d d' : Folder} {a : Arguments} {text : String} {messages : List String} {console : Encoding} {report : Report}

theorem writeLine_eq_ok {path failed : String} (h : writeLine d path text failed = .ok d') :
    d.write (Path.ofText path) (text ++ "\n") = .ok d' :=
  mapError_eq_ok.mp h

/-- What the system refuses is no text that it lacks characters for: the file cannot be written at all. -/
theorem writeLine_eq_complaints {path failed : String}
    (h : writeLine d path text failed = .error (.complaints messages)) :
    ¬ d.Writable (Path.ofText path) ∧ ∃ rest, messages = [failed ++ rest] := by
  obtain ⟨failure, hwrite, hfailure⟩ := mapError_eq_error.mp h
  obtain htarget | ⟨-, cause, -, rfl⟩ := Folder.write_eq_error.mp hwrite
  · cases failure with
    | value cause => cases hfailure
    | system fault =>
      obtain rfl := Halt.complaints.inj hfailure
      refine ⟨?_, _, rfl⟩
      rintro ⟨place, hplace⟩
      cases htarget.symm.trans hplace
  · cases hfailure

theorem writeEvents_eq_ok (h : writeEvents d a text = .ok d') : Folder.Writes a.eventsPath?.toList d d' ∧
    ∀ path ∈ a.eventsPath?, d'.find? path = some (.file (.text (text ++ "\n"))) := by
  unfold writeEvents at h
  unfold Arguments.eventsPath?
  cases hgiven : given a.telemetry with
  | none =>
    rw [hgiven] at h
    cases h
    exact ⟨.refl d, nofun⟩
  | some path =>
    rw [hgiven] at h
    have hwrite := writeLine_eq_ok h
    refine ⟨Folder.writes_write hwrite, ?_⟩
    rintro _ ⟨⟩
    exact Folder.find?_write hwrite

theorem writeEvents_eq_complaints (h : writeEvents d a text = .error (.complaints messages)) :
    (∀ path ∈ a.eventsPath?, ¬ d.Writable path) ∧ ∃ rest, messages = ["Error writing telemetry: " ++ rest] := by
  unfold writeEvents at h
  unfold Arguments.eventsPath?
  cases hgiven : given a.telemetry with
  | none =>
    rw [hgiven] at h
    cases h
  | some path =>
    rw [hgiven] at h
    obtain ⟨hwritable, rest, rfl⟩ := writeLine_eq_complaints h
    refine ⟨?_, rest, rfl⟩
    rintro _ ⟨⟩
    exact hwritable

/-- A text has arrived where results go. -/
structure Delivered (a : Arguments) (text : String) (report : Report) : Prop where
  shown : a.outputPath? = none → report.output = text ++ "\n"
  stored : ∀ path ∈ a.outputPath?, report.output = "" ∧ report.folder.find? path = some (.file (.text (text ++ "\n")))

theorem writeResult_cases (h : writeResult console d a text = .ok report) :
    (report.Failed ∧ report.folder = d) ∨
      (report.code = 0 ∧ Delivered a text report ∧ Folder.Writes a.outputPath?.toList d report.folder) := by
  unfold writeResult at h
  have houtput : a.outputPath? = (given a.output).map Path.ofText := rfl
  cases hgiven : given a.output with
  | none =>
    rw [hgiven] at h houtput
    cases hcheck : console.check (text ++ "\n") with
    | error cause =>
      rw [hcheck] at h
      cases h
    | ok _ =>
      rw [hcheck] at h
      obtain rfl := Except.ok.inj h
      exact .inr ⟨rfl, ⟨fun _ => rfl, by simp [houtput]⟩, .refl d⟩
  | some path =>
    rw [hgiven] at h houtput
    dsimp only at h
    cases hwrite : writeLine d path text "Error writing output: " with
    | error halt =>
      rw [hwrite] at h
      cases halt with
      | crash c => cases h
      | complaints messages =>
        obtain rfl := Except.ok.inj h
        obtain ⟨-, rest, rfl⟩ := writeLine_eq_complaints hwrite
        exact .inl ⟨⟨rfl, rfl, told_of_mem " writing output: " rest (List.mem_singleton_self _)⟩, rfl⟩
    | ok written =>
      rw [hwrite] at h
      obtain rfl := Except.ok.inj h
      have hwrite := writeLine_eq_ok hwrite
      rw [houtput]
      refine .inr ⟨rfl, ⟨by simp [houtput], ?_⟩, Folder.writes_write hwrite⟩
      rw [houtput]
      rintro _ ⟨⟩
      exact ⟨rfl, Folder.find?_write hwrite⟩

end Writing

section Runs

variable {s opened : Surroundings} {a : Arguments} {p : Preparation} {report : Report}

/-- The text of a result as a command writes it. -/
def emitted (a : Arguments) (p : Preparation) (result : Engine.Result) : Except Cause String :=
  Emit.render (if a.compact then none else some 2) (Emit.resultDocument .default p.program result)

theorem emitResult_eq (console : Encoding) (d : Folder) (p : Preparation) (a : Arguments) (result : Engine.Result) :
    emitResult console d p a result = match emitted a p result with
      | .ok document => writeResult console d a document
      | .error cause => if cause.kindOf = .value then
          .ok ⟨1, "", [s!"Error: Cannot write result as JSON: {cause.message}"], d⟩ else .error (.value cause) := rfl

theorem emitResult_cases {console : Encoding} {d : Folder} {result : Engine.Result}
    (h : emitResult console d p a result = .ok report) :
    (report.Failed ∧ report.folder = d) ∨ ∃ text, emitted a p result = .ok text ∧ report.code = 0 ∧
      Delivered a text report ∧ Folder.Writes a.outputPath?.toList d report.folder := by
  rw [emitResult_eq] at h
  cases hrender : emitted a p result with
  | ok text =>
    rw [hrender] at h
    exact (writeResult_cases h).imp id fun hdone => ⟨text, rfl, hdone⟩
  | error cause =>
    rw [hrender] at h
    dsimp only at h
    split at h
    · obtain rfl := Except.ok.inj h
      refine .inl ⟨⟨rfl, rfl, ?_⟩, rfl⟩
      exact told_of_mem ": Cannot write result as JSON: " cause.message (List.mem_singleton_self _)
    · cases h

/-- A run that is concluded failed, and wrote at most its events, or delivered the text of its result. -/
theorem conclude_cases {outcome : Except RunError Engine.Result} {state : State Backend}
    (h : conclude s p a outcome state = .ok report) :
    (report.Failed ∧ Folder.Writes a.eventsPath?.toList s.folder report.folder) ∨
      ∃ result text, outcome = .ok result ∧ emitted a p result = .ok text ∧ report.code = 0 ∧ Delivered a text report := by
  obtain ⟨complaints, events, hcomplaints, -, ⟨messages, hwrite, rfl⟩ | ⟨folder, hwrite, hrest⟩⟩ := conclude_eq_ok h
  · obtain ⟨-, rest, rfl⟩ := writeEvents_eq_complaints hwrite
    have hmem : "Error" ++ " writing telemetry: " ++ rest ∈ complaints ++ ["Error writing telemetry: " ++ rest] :=
      List.mem_append_right _ (List.mem_singleton_self _)
    exact .inl ⟨⟨rfl, rfl, told_of_mem _ rest hmem⟩, .refl _⟩
  · have hfolder := (writeEvents_eq_ok hwrite).1
    obtain ⟨e, rfl, rfl⟩ | ⟨result, rfl, hemit⟩ := hrest
    · unfold complaintsAbout at hcomplaints
      dsimp only at hcomplaints
      split at hcomplaints
      · obtain rfl := Except.ok.inj hcomplaints
        exact .inl ⟨⟨rfl, rfl, told_of_mem ": " e.message (List.mem_singleton_self _)⟩, hfolder⟩
      · cases hcomplaints
    · obtain ⟨hfailed, rfl⟩ | ⟨text, hemitted, hcode, hdelivered, -⟩ := emitResult_cases hemit
      · exact .inl ⟨hfailed, hfolder⟩
      · exact .inr ⟨result, text, rfl, hemitted, hcode, hdelivered⟩

theorem conclude_events {outcome : Except RunError Engine.Result} {state : State Backend} {path : Path}
    (h : conclude s p a outcome state = .ok report) (hpath : a.eventsPath? = some path) (hwritable : s.folder.Writable path)
    (hseparate : ∀ output ∈ a.outputPath?, s.folder.Apart output path) :
    ∃ text, state.telemetry.render s.stamp = .ok text ∧ report.folder.find? path = some (.file (.text (text ++ "\n"))) := by
  obtain ⟨complaints, events, -, hevents, ⟨messages, hwrite, rfl⟩ | ⟨folder, hwrite, h⟩⟩ := conclude_eq_ok h
  · exact ((writeEvents_eq_complaints hwrite).1 path hpath hwritable).elim
  · have hgiven := Arguments.isSome_given_telemetry.mpr (hpath ▸ Option.some_ne_none path)
    have hrender : state.telemetry.render s.stamp = .ok events := by
      rw [eventsDocument, if_pos hgiven] at hevents
      exact mapError_eq_ok.mp hevents
    obtain ⟨hfolder, hstored⟩ := writeEvents_eq_ok hwrite
    refine ⟨events, hrender, ?_⟩
    obtain ⟨e, -, rfl⟩ | ⟨result, -, h⟩ := h
    · exact hstored path hpath
    · obtain ⟨-, rfl⟩ | ⟨text, -, -, -, hwrites⟩ := emitResult_cases h
      · exact hstored path hpath
      · -- The result is written after the events, but to a place of its own.
        rw [hwrites.find?_eq path fun output houtput =>
          hfolder.apart.mpr (hseparate output (Option.mem_toList.mp houtput))]
        exact hstored path hpath

theorem collects_execute [CharNames] (p : Preparation) {path : Path} (hpath : a.eventsPath? = some path) :
    ∃ events, (execute p a).2.telemetry = ⟨true, events⟩ := by
  have hgiven := Arguments.isSome_given_telemetry.mpr (hpath ▸ Option.some_ne_none path)
  let engine : Engine Backend := ⟨p.program, some Backend.service, workers p a⟩
  obtain ⟨result, service, requests, events, hrun⟩ :=
    Engine.onlyLogs_runWithin engine Engine.defaultLimit p.inputs p.backend []
  have hexecute : execute p a = _ := hrun ⟨p.config.runtime.telemetry || (given a.telemetry).isSome, []⟩
  refine ⟨events, ?_⟩
  rw [hexecute, hgiven, Bool.or_true]
  exact Telemetry.logAll_enabled rfl events

theorem openLog_writes (h : openLog s a = .ok opened) :
    ∃ folder, opened = { s with folder := folder } ∧ Folder.Writes a.logPath?.toList s.folder folder := by
  obtain ⟨folder, hlogged, -, rfl⟩ := openLog_eq_ok.mp h
  refine ⟨folder, rfl, ?_⟩
  unfold logged at hlogged
  split at hlogged
  · obtain rfl := Except.ok.inj hlogged
    exact .refl _
  · rename_i path hpath
    rw [hpath]
    exact Folder.writes_touch (mapError_eq_ok.mp hlogged)

/-- What a run has behind it when it reports no failure, and what it leaves. -/
structure Succeeded [CharNames] (s : Surroundings) (a : Arguments) (report : Report) (document : Environment)
    (p : Preparation) (result : Engine.Result) (text : String) : Prop where
  config : Config.load s.folder s.vars a.config = .ok p.config
  loaded : readDocument s a = .ok document
  program : p.program = Program.ofEntries document
  inputs : readInputs a = .ok p.inputs
  valid : a.noValidate = false →
    Validation.validate (.map document) (Mapping.keys (Environment.named p.inputs)) false = .ok []
  ran : (execute p a).1 = .ok result
  emitted : Emit.render (if a.compact then none else some 2) (Emit.resultDocument .default p.program result) = .ok text
  finite : (Emit.resultDocument .default p.program result).Over Number.Exact
  delivered : Delivered a text report

theorem performRun_cases [CharNames] (h : performRun s a = .ok report) :
    (report.Failed ∧ Folder.Writes a.eventsPath?.toList s.folder report.folder) ∨
      (report.code = 0 ∧ ∃ document p result text, Succeeded s a report document p result text) := by
  obtain ⟨messages, hprepare, rfl⟩ | ⟨p, hprepare, hconclude⟩ := performRun_eq_ok h
  · exact .inl ⟨⟨rfl, rfl, told_prepare hprepare⟩, .refl _⟩
  · obtain hfailed | ⟨result, text, hran, hemitted, hcode, hdelivered⟩ := conclude_cases hconclude
    · exact .inl hfailed
    · obtain ⟨document, hconfig, hloaded, hinputs, hvalidated, -, hprogram⟩ := prepare_eq_ok.mp hprepare
      refine .inr ⟨hcode, document, p, result, text, hconfig, hloaded, hprogram, hinputs, fun hvalidate => ?_, hran,
        hemitted, (Json.render_ok_iff rfl _).mp ⟨text, hemitted⟩, hdelivered⟩
      rw [validated, hvalidate] at hvalidated
      exact reject_eq_ok.mp hvalidated

theorem performCheck_cases [CharNames] (h : performCheck s a = .ok report) :
    report.folder = s.folder ∧ report.output = "" ∧ (report.Failed ∨ report.code = 0) := by
  unfold performCheck at h
  split at h
  · cases h
  · obtain rfl := Except.ok.inj h
    exact ⟨rfl, rfl, .inl ⟨rfl, rfl, told_complaint _⟩⟩
  · split at h
    · rename_i halt hreject
      cases halt with
      | complaints messages =>
        obtain rfl := Except.ok.inj h
        exact ⟨rfl, rfl, .inl ⟨rfl, rfl, told_reject hreject⟩⟩
      | crash c => cases h
    · obtain rfl := Except.ok.inj h
      exact ⟨rfl, rfl, .inr rfl⟩

end Runs

section Commands

variable {s : Surroundings} {arguments : List String} {report : Report}

/-- Arguments are refused before anything is done; else the log file is opened and the command follows. -/
theorem perform_eq_ok [CharNames] {c : Command} {rest : List String} (hcommand : commandOf arguments = (c, rest))
    (hhelp : Arguments.read c rest ≠ .error .help) (h : perform s arguments = .ok report) :
    (∃ why, Arguments.read c rest = .error (.refused why) ∧
      report = ⟨2, "", [usage c, s!"rfl {c.name}: error: {why.message}"], s.folder⟩) ∨
    ∃ a opened, Arguments.read c rest = .ok a ∧ openLog s a = .ok opened ∧ carryOut c opened a = .ok report := by
  cases hread : Arguments.read c rest with
  | error stop =>
    rw [perform, hcommand] at h
    dsimp only at h
    rw [hread] at h
    cases stop with
    | help => exact (hhelp hread).elim
    | refused why => exact .inl ⟨why, rfl, (Except.ok.inj h).symm⟩
  | ok a =>
    rw [perform_accepted hcommand hread, performWith_eq] at h
    obtain ⟨opened, hopened, h⟩ := bind_eq_ok.mp h
    exact .inr ⟨a, opened, rfl, hopened, h⟩

/-- Lines that tell of an error: of a command, or of its arguments. -/
def IsErrorLine (c : Command) (line : String) : Prop :=
  ∃ rest, line = "Error" ++ rest ∨ line = s!"rfl {c.name}: error: " ++ rest

/-- The whole result or nothing. What is refused keeps all files, and what fails keeps the file for the result, while
events are stored wherever a run was started and has a file for them. -/
structure AllOrNothing [CharNames] (s : Surroundings) (c : Command) (rest : List String) (report : Report) : Prop where
  success : c = .run → report.code = 0 → ∃ a opened, Arguments.read c rest = .ok a ∧ openLog s a = .ok opened ∧
    ∃ document p result text, Succeeded opened a report document p result text
  failure : report.code ≠ 0 → report.output = "" ∧ ∃ line ∈ report.errors, IsErrorLine c line
  kept : report.code ≠ 0 → ∀ path, (∀ a, Arguments.read c rest = .ok a → a.outputPath? = some path) →
    report.folder.find? path = s.folder.find? path
  events : ∀ a opened p path, c = .run → Arguments.read c rest = .ok a → openLog s a = .ok opened →
    prepare opened a = .ok p → a.eventsPath? = some path → s.folder.Writable path →
    ∃ events text, (execute p a).2.telemetry = ⟨true, events⟩ ∧ Telemetry.render ⟨true, events⟩ s.stamp = .ok text ∧
      report.folder.find? path = some (.file (.text (text ++ "\n")))
  check : c = .check → report.output = ""

theorem Report.Failed.exists_line (h : report.Failed) (c : Command) : ∃ line ∈ report.errors, IsErrorLine c line :=
  let ⟨rest, hmem⟩ := h.told
  ⟨_, hmem, rest, .inl rfl⟩

theorem Arguments.Separate.apart_output {a : Arguments} {d : Folder} (h : a.Separate d) :
    ∀ output ∈ a.outputPath?, ∀ path ∈ a.logPath?.toList ++ a.eventsPath?.toList, d.Apart path output := by
  unfold Separate at h
  cases hlog : a.logPath? <;> cases hevents : a.eventsPath? <;> cases houtput : a.outputPath? <;>
    simp_all

theorem performRun_events [CharNames] {s opened : Surroundings} {a : Arguments} {p : Preparation} {path : Path}
    {report : Report}
    (hopened : openLog s a = .ok opened) (hprepare : prepare opened a = .ok p) (hrun : performRun opened a = .ok report)
    (hseparate : a.Separate s.folder) (hpath : a.eventsPath? = some path) (hwritable : s.folder.Writable path) :
    ∃ events text, (execute p a).2.telemetry = ⟨true, events⟩ ∧ Telemetry.render ⟨true, events⟩ s.stamp = .ok text ∧
      report.folder.find? path = some (.file (.text (text ++ "\n"))) := by
  obtain ⟨folder, rfl, hlog⟩ := openLog_writes hopened
  obtain ⟨messages, hstopped, -⟩ | ⟨p', hprepare', hconclude⟩ := performRun_eq_ok hrun
  · cases hprepare.symm.trans hstopped
  · obtain rfl := Except.ok.inj (hprepare.symm.trans hprepare')
    have hmem : path ∈ a.logPath?.toList ++ a.eventsPath?.toList := by simp [hpath]
    have hapart : ∀ output ∈ a.outputPath?, folder.Apart output path := fun output houtput =>
      hlog.apart.mpr (hseparate.apart_output output houtput path hmem).symm
    obtain ⟨events, hevents⟩ := collects_execute p hpath
    obtain ⟨text, hrender, hstored⟩ := conclude_events hconclude hpath (hlog.writable.mpr hwritable) hapart
    exact ⟨events, text, hevents, hevents ▸ hrender, hstored⟩

theorem allOrNothing_refused [CharNames] {c : Command} {rest : List String} {why : Refusal}
    (hread : Arguments.read c rest = .error (.refused why)) (hcode : report.code = 2)
    (houtput : report.output = "") (hfolder : report.folder = s.folder)
    (hline : s!"rfl {c.name}: error: {why.message}" ∈ report.errors) : AllOrNothing s c rest report where
  success _ hzero := absurd (hcode.symm.trans hzero) (Nat.succ_ne_zero 1)
  failure _ := ⟨houtput, _, hline, why.message, .inr rfl⟩
  kept _ path _ := by rw [hfolder]
  events a opened p path _ haccepted := by cases hread.symm.trans haccepted
  check _ := houtput

theorem allOrNothing_check [CharNames] {a : Arguments} {opened : Surroundings} {rest : List String}
    (hread : Arguments.read .check rest = .ok a) (hopened : openLog s a = .ok opened)
    (hseparate : a.Separate s.folder) (h : performCheck opened a = .ok report) : AllOrNothing s .check rest report := by
  obtain ⟨folder, rfl, hlog⟩ := openLog_writes hopened
  obtain ⟨hfolder, houtput, hdone⟩ := performCheck_cases h
  exact {
    success := nofun
    failure := fun hcode => ⟨houtput, (hdone.resolve_right hcode).exists_line _⟩
    kept := fun _ path hpath => by
      rw [hfolder]
      exact (hlog.mono (List.subset_append_left _ _)).find?_eq path (hseparate.apart_output path (hpath a hread))
    events := fun _ _ _ _ hrun => nomatch hrun
    check := fun _ => houtput }

theorem allOrNothing_run [CharNames] {a : Arguments} {opened : Surroundings} {rest : List String}
    (hread : Arguments.read .run rest = .ok a) (hopened : openLog s a = .ok opened)
    (hseparate : a.Separate s.folder) (h : performRun opened a = .ok report) : AllOrNothing s .run rest report where
  success _ hcode := by
    obtain ⟨hfailed, -⟩ | ⟨-, hsucceeded⟩ := performRun_cases h
    · cases hcode.symm.trans hfailed.code
    · exact ⟨a, opened, hread, hopened, hsucceeded⟩
  failure hcode := by
    obtain ⟨hfailed, -⟩ | ⟨hzero, -⟩ := performRun_cases h
    · exact ⟨hfailed.output, hfailed.exists_line _⟩
    · exact (hcode hzero).elim
  kept hcode path hpath := by
    obtain ⟨folder, rfl, hlog⟩ := openLog_writes hopened
    obtain ⟨-, hwrites⟩ | ⟨hzero, -⟩ := performRun_cases h
    · refine ((hlog.mono ?_).trans (hwrites.mono ?_)).find?_eq path (hseparate.apart_output path (hpath a hread))
      · exact List.subset_append_left _ _
      · exact List.subset_append_right _ _
    · exact (hcode hzero).elim
  events a' opened' p path _ hread' hopened' hprepare hpath hwritable := by
    obtain rfl := Except.ok.inj (hread.symm.trans hread')
    obtain rfl := Except.ok.inj (hopened.symm.trans hopened')
    exact performRun_events hopened hprepare h hseparate hpath hwritable
  check := nofun

/-- Whatever it is asked and wherever it works, a command that comes to a report has done all of it or nothing. -/
theorem perform_all_or_nothing [CharNames] {c : Command} {rest : List String}
    (hcommand : commandOf arguments = (c, rest)) (hhelp : Arguments.read c rest ≠ .error .help)
    (hseparate : ∀ a, Arguments.read c rest = .ok a → a.Separate s.folder) (h : perform s arguments = .ok report) :
    AllOrNothing s c rest report := by
  obtain ⟨why, hread, rfl⟩ | ⟨a, opened, hread, hopened, h⟩ := perform_eq_ok hcommand hhelp h
  · exact allOrNothing_refused hread rfl rfl rfl (List.mem_cons_of_mem _ (List.mem_singleton_self _))
  · cases c with
    | run => exact allOrNothing_run hread hopened (hseparate a hread) h
    | check => exact allOrNothing_check hread hopened (hseparate a hread) h

end Commands

/-- A program that defines nothing, as a file. -/
def idleText : String :=
  "\x7b\"main\":\"m\",\"routines\":\x7b\"m\":\x7b\"type\":\"define\",\"outputs\":\x7b\x7d\x7d\x7d\x7d"

def idleDocument : Environment :=
  [(.text "main", .str "m"),
    (.text "routines", .map [(.text "m", .map [(.text "type", .str "define"), (.text "outputs", .map [])])])]

def idleFolder : Folder := { nodes := [("p.json", .file (.text idleText))] }

def idleSurroundings : Surroundings where
  folder := idleFolder
  vars := [("HOME", "/home/ann")]
  input := .text ""
  client := none
  stamp := "2025-06-01T12:00:00+00:00"

def idleArguments : List String := ["--simulate", "-o", "out.json", "--telemetry", "events.json", "p.json"]

def idleAccepted : Arguments :=
  { program := some "p.json", output := some "out.json", telemetry := some "events.json", simulate := true }

def idlePreparation : Preparation := ⟨⟨.default, ⟨1, true⟩⟩, Program.ofEntries idleDocument, [], .simulated⟩

def idleEvents : List Event :=
  [.runStart (.str "m"), .routineBegin "m" "define", .routineEnd "m" "define" [], .runComplete (.str "m") []]

def idleResult : Engine.Result := ⟨[], [], .define ⟨"m", .map [], []⟩⟩

theorem read_idleArguments : Arguments.read .run idleArguments = .ok idleAccepted := rfl

theorem prepare_idle : prepare idleSurroundings idleAccepted = .ok idlePreparation := by
  refine prepare_eq_ok.mpr ⟨idleDocument, rfl, by cbv, rfl, ?_, rfl, rfl⟩
  exact reject_eq_ok.mpr rfl

theorem execute_idle : execute idlePreparation idleAccepted = (.ok idleResult, ⟨.simulated, [], ⟨true, idleEvents⟩⟩) := by
  have hrun : (Engine.run ⟨Program.ofEntries idleDocument, some Backend.service, 1⟩ []).run ⟨.simulated, [], ⟨true, []⟩⟩ =
      (.ok idleResult, ⟨.simulated, [], ⟨true, idleEvents⟩⟩) := by cbv
  exact hrun

theorem separate_idle : idleAccepted.Separate idleFolder := by
  refine List.pairwise_pair.mpr ?_
  rintro _ _ ⟨⟩ ⟨⟩
  decide

def idleWritten (events : String) : Folder :=
  { nodes := [("p.json", .file (.text idleText)), ("events.json", .file (.text (events ++ "\n")))] }

def idleReport (events text : String) : Report :=
  ⟨0, "", ["Output written to out.json"],
    { nodes := [("p.json", .file (.text idleText)), ("events.json", .file (.text (events ++ "\n"))),
        ("out.json", .file (.text (text ++ "\n")))] }⟩

theorem opened_idle : openLog idleSurroundings idleAccepted = .ok idleSurroundings := rfl

theorem perform_idle : ∃ events text, perform idleSurroundings ("run" :: idleArguments) = .ok (idleReport events text) := by
  obtain ⟨events, hevents⟩ : ∃ text, Telemetry.render ⟨true, idleEvents⟩ idleSurroundings.stamp = .ok text := ⟨_, rfl⟩
  obtain ⟨text, htext⟩ : ∃ text, emitted idleAccepted idlePreparation idleResult = .ok text := ⟨_, rfl⟩
  have hdocument : eventsDocument idleSurroundings idleAccepted ⟨.simulated, [], ⟨true, idleEvents⟩⟩ = .ok events := by
    have hgiven : (Config.given idleAccepted.telemetry).isSome = true := rfl
    rw [eventsDocument, if_pos hgiven]
    exact mapError_eq_ok.mpr hevents
  refine ⟨events, text, ?_⟩
  have hcommand : commandOf ("run" :: idleArguments) = (.run, idleArguments) := rfl
  rw [perform_accepted hcommand read_idleArguments, performWith_eq]
  refine bind_eq_ok.mpr ⟨idleSurroundings, opened_idle, ?_⟩
  rw [carryOut, performRun, prepare_idle]
  dsimp only
  rw [execute_idle]
  dsimp only
  rw [conclude_eq]
  refine bind_eq_ok.mpr ⟨[], rfl, bind_eq_ok.mpr ⟨events, hdocument, ?_⟩⟩
  have hwrite : writeEvents idleSurroundings.folder idleAccepted events = .ok (idleWritten events) :=
    mapError_eq_ok.mpr (Folder.write_eq_ok.mpr ⟨Path.ofText "events.json", rfl, Encoding.check_utf8 _, rfl⟩)
  have hresult : writeLine (idleWritten events) "out.json" text "Error writing output: " =
      .ok (idleReport events text).folder :=
    mapError_eq_ok.mpr (Folder.write_eq_ok.mpr ⟨Path.ofText "out.json", rfl, Encoding.check_utf8 _, rfl⟩)
  have houtput : given idleAccepted.output = some "out.json" := rfl
  rw [hwrite, concluded, emitResult_eq, htext]
  dsimp only
  rw [writeResult, houtput]
  dsimp only
  rw [hresult]
  rfl

/-- The result and the events of a run go to files of their own. -/
theorem idle_all_or_nothing : ∃ report, perform idleSurroundings ("run" :: idleArguments) = .ok report ∧
    report.code = 0 ∧ AllOrNothing idleSurroundings .run idleArguments report := by
  obtain ⟨events, text, hperform⟩ := perform_idle
  refine ⟨idleReport events text, hperform, rfl, perform_all_or_nothing rfl ?_ ?_ hperform⟩
  · rw [read_idleArguments]
    nofun
  · intro a ha
    obtain rfl := Except.ok.inj (read_idleArguments.symm.trans ha)
    exact separate_idle

end RoutineFlow.CommandLine
