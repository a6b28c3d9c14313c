import RoutineFlow.Proofs.Course
import RoutineFlow.Proofs.Execution

/-!
The course of an execution says what its schedules are. What an engine does is one of them: it takes the calls
of branches in the order of the branches.
-/

namespace RoutineFlow

def Course.check {α : Type} (r : Except Cause α) (k : α → Course) : Course :=
  proceed (r.mapError .failed) k

def Outcome.result (outcome : Outcome) (env : Environment) : Except RunError Engine.Result :=
  outcome.map fun (outputs, trace) => ⟨env, outputs, trace⟩

namespace Engine

open Run Course

variable {σ : Type}

abbrev Courses := Value → Value → Course

def generateCourse (engine : Engine σ) (name : String) (r : Request) (k : Environment → Course) : Course :=
  match engine.service with
  | none => .done (.error (.service name "No generative service configured"))
  | some _ => .ask r fun answer => proceed (outputsOf name answer) k

def promptCourse (engine : Engine σ) (name : String) (initial : Environment)
    (devMessage userMessage : Value) (tags : Mapping String Value) (given : Value) : Course :=
  check (messageText userMessage given) fun text =>
    generateCourse engine name ⟨devMessage, text, tags⟩ fun generated =>
      let outputs := Mapping.merge initial generated
      .done (.ok (outputs, .prompt ⟨name, given, outputs⟩ devMessage text))

def branchCourse (courses : Courses) (name : String) (initial : Environment)
    (condition whenTrue whenFalse given : Value) : Course :=
  check (holds condition given) fun taken =>
    let target := if taken then whenTrue else whenFalse
    if target.isEmpty then .done (.error (.missingBranch name taken))
    else (courses target given).andThen fun (outputs, sub) =>
      let outputs := Mapping.merge initial outputs
      .done (.ok (outputs, .branch ⟨name, given, outputs⟩ taken sub))

def stepsCourse (courses : Courses) : List String → Value → (Environment → List Trace → Course) → Course
  | [], given, k => check given.toMapping fun env => k env []
  | step :: rest, given, k =>
    (courses (.str step) given).andThen fun (outputs, trace) =>
      stepsCourse courses rest (.map outputs) fun final traces => k final (trace :: traces)

def eachCourse (courses : Courses) (given : Value) :
    List String → (List (Environment × Trace) → Course) → Course
  | [], k => k []
  | branch :: rest, k =>
    (courses (.str branch) given).andThen fun first =>
      eachCourse courses given rest fun others => k (first :: others)

/-- All branches at a time, then their results or the first failure in their order; or one after another. -/
def branchesCourse (courses : Courses) (parallel : Bool) (given : Value) (branches : List String)
    (k : List (Environment × Trace) → Course) : Course :=
  if parallel && 1 < branches.length then
    .fork (branches.map fun branch => courses (.str branch) given) fun outcomes =>
      proceed (collect outcomes) k
  else eachCourse courses given branches k

def bodyCourse [CharNames] (engine : Engine σ) (courses : Courses) (name : String) (r : Routine) (given : Value) :
    Course :=
  let initial := initialOutputs r.passthrough given
  match r.body with
  | .prompt devMessage userMessage tags => check initial fun initial =>
    promptCourse engine name initial devMessage userMessage tags given
  | .code code => check initial fun initial =>
    let outputs := codeOutputs name initial code given
    .done (.ok (outputs, .code ⟨name, given, outputs⟩))
  | .define specs => check initial fun initial =>
    check (given.toVariables (references specs)) fun env =>
      let outputs := define initial specs env
      .done (.ok (outputs, .define ⟨name, given, outputs⟩))
  | .branch condition whenTrue whenFalse => check initial fun initial =>
    branchCourse courses name initial condition whenTrue whenFalse given
  | .compose steps => stepsCourse courses steps given fun outputs traces =>
    .done (.ok (outputs, .compose ⟨name, given, outputs⟩ traces))
  | .join branches => branchesCourse courses engine.isParallel given branches fun results =>
    let outputs := results.foldl (fun merged (o, _) => Mapping.merge merged o) []
    .done (.ok (outputs, .join ⟨name, given, outputs⟩ (results.map (·.2))))
  | .unknown kind _ => .done (.error (.unknownKind name kind))

def reported (c : Course) : Course :=
  c.andThen fun (outputs, trace) => check outputs.sortedKeys fun _ => .done (.ok (outputs, trace))

def course [CharNames] (engine : Engine σ) : Nat → Courses
  | 0, _, _ => .done (.error .exhausted)
  | limit + 1, name, given =>
    match engine.program.find? name with
    | none => .done (.error (.routineNotFound name))
    | some r => reported (bodyCourse engine (course engine limit) name.label r given)

def mainCourse [CharNames] (engine : Engine σ) (limit : Nat) (env : Environment) : Course :=
  let main := engine.program.main
  if main.isEmpty then .done (.error .missingEntry)
  else if (engine.program.find? main).isNone then .done (.error (.routineNotFound main))
  else check env.sortedKeys fun _ =>
    (course engine limit main (.map env)).bind fun outcome => .done (outcome.mapError (mainError main))

def runCourse [CharNames] (engine : Engine σ) (limit : Nat) (env : Environment) : Course :=
  reported (mainCourse engine limit env)

/-- A run up to the form in which it gives its result. -/
def completed [CharNames] (engine : Engine σ) (limit : Nat) (env : Environment) : Run σ (Environment × Trace) := do
  let main := engine.program.main
  let (outputs, trace) ← Run.onError (runMain engine limit env) fun e => .runError main e.name e.message
  Run.log (.runComplete main (← Run.sortedKeys outputs))
  return (outputs, trace)

theorem runWithin_eq_completed [CharNames] (engine : Engine σ) (limit : Nat) (env : Environment) :
    runWithin engine limit env =
      completed engine limit env >>= fun (outputs, trace) => pure ⟨env, outputs, trace⟩ := by
  simp only [completed, runWithin, bind_assoc, pure_bind]

/-- From every state a part of a run does what a schedule of the course does. -/
def Schedules (service : Service σ) (c : Course) (x : Run σ (Environment × Trace)) : Prop :=
  ∀ s, ∃ asked, Steps service c s.service asked (.done (x.perform s).1) (x.perform s).2.service ∧
    (x.perform s).2.requests = s.requests ++ asked

theorem exists_nothing_asked {service : Service σ} (outcome : Outcome) (s : State σ) :
    ∃ asked, Steps service (.done outcome) s.service asked (.done outcome) s.service ∧
      s.requests = s.requests ++ asked :=
  ⟨[], .refl _ _, (List.append_nil _).symm⟩

namespace Schedules

variable {service : Service σ} {c : Course} {x : Run σ (Environment × Trace)}

theorem pure (result : Environment × Trace) : Schedules service (.done (.ok result)) (pure result) :=
  fun s => exists_nothing_asked _ s

theorem fail (e : RunError) : Schedules service (.done (.error e)) (fail e) :=
  fun s => exists_nothing_asked _ s

theorem proceed {α : Type} {k : α → Course} {f : α → Run σ (Environment × Trace)}
    (h : ∀ a, Schedules service (k a) (f a)) (r : Except RunError α) :
    Schedules service (Course.proceed r k) (ofResult r >>= f) := by
  cases r with
  | ok a => exact h a
  | error e => exact fail e

theorem check {α : Type} {k : α → Course} {f : α → Run σ (Environment × Trace)}
    (h : ∀ a, Schedules service (k a) (f a)) (r : Except Cause α) :
    Schedules service (Course.check r k) (Run.ofExcept r >>= f) := by
  cases r with
  | ok a => exact h a
  | error cause => exact fail (.failed cause)

theorem log (h : Schedules service c x) (event : Event) :
    Schedules service c (Run.log event >>= fun _ => x) := fun s => h (s.log event)

theorem onError (h : Schedules service c x) (event : RunError → Event) :
    Schedules service c (Run.onError x event) := by
  intro s
  obtain ⟨asked, hsteps, hrequests⟩ := h s
  refine ⟨asked, ?_⟩
  rw [perform_onError]
  rcases hx : x.perform s with ⟨e | result, t⟩
  · rw [hx] at hsteps hrequests
    exact ⟨hsteps, hrequests⟩
  · rw [hx] at hsteps hrequests
    exact ⟨hsteps, hrequests⟩

theorem andThen {k : Environment × Trace → Course} {f : Environment × Trace → Run σ (Environment × Trace)}
    (h : Schedules service c x) (hk : ∀ result, Schedules service (k result) (f result)) :
    Schedules service (c.andThen k) (x >>= f) := by
  intro s
  obtain ⟨asked, hsteps, hrequests⟩ := h s
  obtain ⟨asked', hsteps', hrequests'⟩ := proceed hk (x.perform s).1 (x.perform s).2
  rw [perform_bind_ofResult]
  refine ⟨asked ++ asked', hsteps.bind hsteps', ?_⟩
  rw [hrequests', hrequests, List.append_assoc]

end Schedules

theorem schedules_generate {engine : Engine σ} {service : Service σ}
    (hservice : ∀ given ∈ engine.service, given = service) {name : String} {r : Request}
    {k : Environment → Course} {f : Environment → Run σ (Environment × Trace)}
    (hk : ∀ generated, Schedules service (k generated) (f generated)) :
    Schedules service (generateCourse engine name r k) (generate engine name r >>= f) := by
  intro s
  unfold generateCourse
  rw [perform_bind_ofResult]
  cases hengine : engine.service with
  | none =>
    rw [perform_generate_none hengine]
    exact exists_nothing_asked _ _
  | some given =>
    obtain rfl := hservice given hengine
    rw [perform_generate_some hengine]
    obtain ⟨asked, hsteps, hrequests⟩ := Schedules.proceed hk (outputsOf name (given.answer s.service r).1)
      ⟨(given.answer s.service r).2, s.requests ++ [r], s.telemetry.log (.serviceCall name r.outputs)⟩
    refine ⟨[r] ++ asked, .step (.ask r _ _) hsteps, ?_⟩
    rw [hrequests, List.append_assoc]

section Compounds

variable {service : Service σ} {courses : Courses} {execute : Executor σ}
  (hexec : ∀ name given, Schedules service (courses name given) (execute name given))

include hexec

theorem schedules_branch (name : String) (initial : Environment) (condition whenTrue whenFalse given : Value) :
    Schedules service (branchCourse courses name initial condition whenTrue whenFalse given)
      (runBranch execute name initial condition whenTrue whenFalse given) := by
  apply Schedules.check
  intro taken
  cases hempty : (if taken then whenTrue else whenFalse).isEmpty with
  | true =>
    simp only [hempty, ↓reduceIte]
    exact .fail _
  | false =>
    simp only [hempty, Bool.false_eq_true, ↓reduceIte]
    exact (hexec _ given).andThen fun _ => .pure _

theorem schedules_steps {steps : List String} {given : Value} {k : Environment → List Trace → Course}
    {f : Environment × List Trace → Run σ (Environment × Trace)}
    (hk : ∀ final traces, Schedules service (k final traces) (f (final, traces))) :
    Schedules service (stepsCourse courses steps given k) (runSteps execute steps given >>= f) := by
  induction steps generalizing given k f with
  | nil =>
    simp only [runSteps, bind_assoc, pure_bind]
    exact Schedules.check (fun env => hk env []) _
  | cons step steps ih =>
    simp only [runSteps, bind_assoc, pure_bind]
    apply (hexec _ given).andThen
    rintro ⟨outputs, trace⟩
    exact ih fun final traces => hk final (trace :: traces)

theorem schedules_each {branches : List String} {given : Value}
    {k : List (Environment × Trace) → Course}
    {f : List (Environment × Trace) → Run σ (Environment × Trace)}
    (hk : ∀ results, Schedules service (k results) (f results)) :
    Schedules service (eachCourse courses given branches k) (runEach execute given branches >>= f) := by
  induction branches generalizing k f with
  | nil =>
    simp only [runEach, pure_bind]
    exact hk []
  | cons branch branches ih =>
    simp only [runEach, bind_assoc, pure_bind]
    exact (hexec _ given).andThen fun first => ih fun others => hk (first :: others)

theorem steps_runAll (branches : List String) (given : Value) (next : List Outcome → Course)
    (before : List Outcome) (s : State σ) :
    ∃ outcomes t asked, (runAll execute given branches).perform s = (.ok outcomes, t) ∧
      Steps service
        (.fork (before.map .done ++ branches.map fun branch => courses (.str branch) given) next) s.service
        asked (.fork ((before ++ outcomes).map .done) next) t.service ∧
      t.requests = s.requests ++ asked := by
  induction branches generalizing before s with
  | nil =>
    refine ⟨[], s, [], rfl, ?_, (List.append_nil _).symm⟩
    rw [List.map_nil, List.append_nil, List.append_nil]
    exact .refl _ _
  | cons branch branches ih =>
    -- once it has run, the next branch counts among those before the others
    obtain ⟨asked, hfirst, hrequests⟩ := hexec (.str branch) given s
    obtain ⟨outcomes, t, asked', hall, hothers, hrequests'⟩ :=
      ih (before ++ [((execute (.str branch) given).perform s).1]) ((execute (.str branch) given).perform s).2
    refine ⟨((execute (.str branch) given).perform s).1 :: outcomes, t, asked ++ asked', ?_, ?_, ?_⟩
    · simp only [runAll_cons, hall, Except.map]
    · rw [List.append_cons]
      exact hfirst.first_branch hothers
    · rw [hrequests', hrequests, List.append_assoc]

theorem schedules_branches {parallel : Bool} {branches : List String} {given : Value}
    {k : List (Environment × Trace) → Course}
    {f : List (Environment × Trace) → Run σ (Environment × Trace)}
    (hk : ∀ results, Schedules service (k results) (f results)) :
    Schedules service (branchesCourse courses parallel given branches k)
      (runBranches execute parallel given branches >>= f) := by
  unfold branchesCourse
  split
  · rename_i hparallel
    intro s
    obtain ⟨outcomes, t, asked, hall, hsteps, hrequests⟩ := steps_runAll hexec branches given
      (fun outcomes => proceed (collect outcomes) k) [] s
    obtain ⟨asked', hsteps', hrequests'⟩ := Schedules.proceed hk (collect outcomes) t
    rw [runBranches_parallel hparallel, bind_assoc, perform_bind, hall]
    refine ⟨asked ++ ([] ++ asked'), hsteps.trans (.step (.join outcomes _ t.service) hsteps'), ?_⟩
    rw [hrequests', hrequests, List.nil_append, List.append_assoc]
  · rename_i hsequential
    rw [runBranches_sequential hsequential]
    exact schedules_each hexec hk

theorem schedules_body [CharNames] {engine : Engine σ} (hservice : ∀ given ∈ engine.service, given = service)
    (name : String) (r : Routine) (given : Value) :
    Schedules service (bodyCourse engine courses name r given) (runBody engine execute name r given) := by
  unfold bodyCourse runBody
  cases hbody : r.body with
  | prompt dev user tags =>
    apply Schedules.check
    intro initial
    apply Schedules.check
    intro text
    exact schedules_generate hservice fun generated => .pure _
  | code code =>
    apply Schedules.check
    intro initial s
    obtain ⟨t, hcode, hafter, hrequests⟩ := perform_runCode name initial code given s
    rw [hcode, hafter, hrequests]
    exact exists_nothing_asked _ _
  | define specs =>
    apply Schedules.check
    intro initial
    exact Schedules.check (fun env => .pure _) _
  | branch condition whenTrue whenFalse =>
    apply Schedules.check
    intro initial
    exact schedules_branch hexec name initial condition whenTrue whenFalse given
  | compose steps => exact schedules_steps hexec fun final traces => .pure _
  | join branches => exact schedules_branches hexec fun results => .pure _
  | unknown kind raw => exact .fail _

end Compounds

theorem exists_service (engine : Engine σ) : ∃ service, ∀ given ∈ engine.service, given = service := by
  cases hservice : engine.service with
  | none => exact ⟨Service.simulated, by simp⟩
  | some service => exact ⟨service, by simp [eq_comm]⟩

section Runs

variable {engine : Engine σ} {service : Service σ} (hservice : ∀ given ∈ engine.service, given = service)

theorem schedules_reported {c : Course} {x : Run σ (Environment × Trace)} (h : Schedules service c x)
    (event : List Key → Event) :
    Schedules service (reported c) (x >>= fun (outputs, trace) => do
      Run.log (event (← Run.sortedKeys outputs))
      return (outputs, trace)) := by
  apply h.andThen
  rintro ⟨outputs, trace⟩
  apply Schedules.check
  intro keys
  exact Schedules.log (.pure _) _

theorem schedules_bracket {c : Course} {work : Run σ (Environment × Trace)} (h : Schedules service c work)
    (name kind : String) : Schedules service (reported c) (bracket name kind work) :=
  (schedules_reported (h.onError _) _).log _

include hservice

theorem schedules_execute [CharNames] (limit : Nat) (name given : Value) :
    Schedules service (engine.course limit name given) (engine.execute limit name given) := by
  induction limit generalizing name given with
  | zero => exact .fail _
  | succ limit ih =>
    cases hfind : engine.program.find? name with
    | none =>
      simp only [course, execute, hfind]
      exact .fail _
    | some r =>
      have hwork := schedules_body ih hservice name.label r given
      simp only [course, execute, hfind]
      cases hbody : r.body with
      | unknown kind raw =>
        simp only [bodyCourse, hbody]
        exact .fail _
      | _ => exact schedules_bracket hwork _ _

theorem schedules_main [CharNames] (limit : Nat) (env : Environment) :
    Schedules service (engine.mainCourse limit env) (runMain engine limit env) := by
  intro s
  rw [perform_runMain]
  cases hmain : engine.program.main.isEmpty with
  | true =>
    simp only [mainCourse, hmain, ↓reduceIte]
    exact exists_nothing_asked _ _
  | false =>
    cases hfound : (engine.program.find? engine.program.main).isNone with
    | true =>
      simp only [mainCourse, hmain, hfound, Bool.false_eq_true, ↓reduceIte]
      exact exists_nothing_asked _ _
    | false =>
      simp only [mainCourse, hmain, hfound, Bool.false_eq_true, ↓reduceIte]
      cases env.sortedKeys with
      | error cause => exact exists_nothing_asked _ _
      | ok keys =>
        obtain ⟨asked, hsteps, hrequests⟩ := schedules_execute hservice limit engine.program.main (.map env)
          (s.log (.runStart engine.program.main))
        refine ⟨asked ++ [], hsteps.bind (.refl _ _), ?_⟩
        rw [List.append_nil]
        exact hrequests

/-- What a run does is a schedule of its course. -/
theorem schedules_run [CharNames] (limit : Nat) (env : Environment) (s : State σ) :
    ∃ outcome asked, ((runWithin engine limit env).perform s).1 = outcome.result env ∧
      Steps service (engine.runCourse limit env) s.service asked (.done outcome)
        ((runWithin engine limit env).perform s).2.service ∧
      ((runWithin engine limit env).perform s).2.requests = s.requests ++ asked := by
  have hcompleted : Schedules service (engine.runCourse limit env) (completed engine limit env) :=
    schedules_reported ((schedules_main hservice limit env).onError _) _
  obtain ⟨asked, hsteps, hrequests⟩ := hcompleted s
  rw [runWithin_eq_completed, perform_bind]
  rcases hresult : (completed engine limit env).perform s with ⟨e | result, t⟩
  · rw [hresult] at hsteps hrequests
    exact ⟨_, asked, rfl, hsteps, hrequests⟩
  · rw [hresult] at hsteps hrequests
    exact ⟨_, asked, rfl, hsteps, hrequests⟩

end Runs

end Engine

end RoutineFlow
