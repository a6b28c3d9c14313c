import RoutineFlow.Proofs.Events
import RoutineFlow.Run.Session

/-!
Events are written and never read: all that a run does to them is to log more, and it would have done everything else the
same with any others.
-/

namespace RoutineFlow

theorem Telemetry.logAll_disabled {t : Telemetry} (h : t.enabled = false) (events : List Event) : t.logAll events = t := by
  induction events with
  | nil => rfl
  | cons event events ih =>
    have hlog : t.log event = t := by rw [log, h]; rfl
    change (t.log event).logAll events = t
    rw [hlog, ih]

namespace Run

variable {σ α β : Type}

/-- Whatever was logged before, a part of a run comes to the same and logs the same. -/
def OnlyLogs (x : Run σ α) : Prop :=
  ∀ service requests, ∃ result service' requests' events, ∀ telemetry,
    x.perform ⟨service, requests, telemetry⟩ = (result, ⟨service', requests', telemetry.logAll events⟩)

namespace OnlyLogs

variable {x : Run σ α}

theorem pure (a : α) : OnlyLogs (pure a : Run σ α) :=
  fun service requests => ⟨.ok a, service, requests, [], fun _ => rfl⟩

theorem fail (e : RunError) : OnlyLogs (fail e : Run σ α) :=
  fun service requests => ⟨.error e, service, requests, [], fun _ => rfl⟩

theorem ofExcept (r : Except Cause α) : OnlyLogs (ofExcept r : Run σ α) := by
  cases r with
  | ok a => exact .pure a
  | error cause => exact .fail _

theorem log (event : Event) : OnlyLogs (log event : Run σ Unit) :=
  fun service requests => ⟨.ok (), service, requests, [event], fun _ => rfl⟩

theorem request (service : Service σ) (r : Request) : OnlyLogs (request service r) := by
  intro current requests
  exact ⟨.ok (service.answer current r).1, (service.answer current r).2, requests ++ [r], [], fun _ => rfl⟩

theorem bind {f : α → Run σ β} (hx : OnlyLogs x) (hf : ∀ a, OnlyLogs (f a)) : OnlyLogs (x >>= f) := by
  intro service requests
  obtain ⟨e | a, service', requests', events, hx⟩ := hx service requests
  · refine ⟨.error e, service', requests', events, fun telemetry => ?_⟩
    rw [perform_bind, hx]
  · obtain ⟨result, service'', requests'', events', hf⟩ := hf a service' requests'
    refine ⟨result, service'', requests'', events ++ events', fun telemetry => ?_⟩
    rw [perform_bind, hx, Telemetry.logAll_append]
    exact hf _

theorem onError (hx : OnlyLogs x) (event : RunError → Event) : OnlyLogs (onError x event) := by
  intro service requests
  obtain ⟨e | a, service', requests', events, hx⟩ := hx service requests
  · refine ⟨.error e, service', requests', events ++ [event e], fun telemetry => ?_⟩
    rw [perform_onError, hx, Telemetry.logAll_append]
    rfl
  · refine ⟨.ok a, service', requests', events, fun telemetry => ?_⟩
    rw [perform_onError, hx]

theorem attempt (hx : OnlyLogs x) : OnlyLogs (attempt x) := by
  intro service requests
  obtain ⟨result, service', requests', events, hx⟩ := hx service requests
  refine ⟨.ok result, service', requests', events, fun telemetry => ?_⟩
  rw [perform_attempt, hx]

end OnlyLogs

end Run

namespace Engine

open Run

variable {σ : Type}

theorem onlyLogs_generate (engine : Engine σ) (name : String) (r : Request) : OnlyLogs (generate engine name r) := by
  unfold generate
  cases engine.service with
  | none => exact .fail _
  | some service =>
    refine (OnlyLogs.log _).bind fun _ => (OnlyLogs.request service r).bind fun answer => ?_
    rcases answer with failure | v
    · exact .fail _
    · cases v with
      | map outputs => exact .pure _
      | _ => exact .fail _

theorem onlyLogs_runCode [CharNames] (name : String) (initial : Environment) (code given : Value) :
    OnlyLogs (runCode name initial code given : Run σ (Environment × Trace)) := by
  unfold runCode
  cases Expr.outputs name code given with
  | ok computed => exact .pure _
  | error failure => exact (OnlyLogs.log _).bind fun _ => .pure _

section Calls

variable {execute : Executor σ} (hexec : ∀ name given, OnlyLogs (execute name given))

include hexec

theorem onlyLogs_runBranch (name : String) (initial : Environment) (condition whenTrue whenFalse given : Value) :
    OnlyLogs (runBranch execute name initial condition whenTrue whenFalse given) := by
  refine (OnlyLogs.ofExcept _).bind fun taken => ?_
  generalize (if taken then whenTrue else whenFalse) = target
  dsimp only
  split
  · exact .fail _
  · exact (hexec target given).bind fun _ => .pure _

theorem onlyLogs_runSteps (steps : List String) (given : Value) : OnlyLogs (runSteps execute steps given) := by
  induction steps generalizing given with
  | nil => exact (OnlyLogs.ofExcept _).bind fun _ => .pure _
  | cons step rest ih => exact (hexec _ given).bind fun _ => (ih _).bind fun _ => .pure _

theorem onlyLogs_runEach (branches : List String) (given : Value) : OnlyLogs (runEach execute given branches) := by
  induction branches with
  | nil => exact .pure _
  | cons branch rest ih => exact (hexec _ given).bind fun _ => ih.bind fun _ => .pure _

theorem onlyLogs_runAll (branches : List String) (given : Value) : OnlyLogs (runAll execute given branches) := by
  induction branches with
  | nil => exact .pure _
  | cons branch rest ih => exact (hexec _ given).attempt.bind fun _ => ih.bind fun _ => .pure _

theorem onlyLogs_runBranches (parallel : Bool) (branches : List String) (given : Value) :
    OnlyLogs (runBranches execute parallel given branches) := by
  unfold runBranches
  split
  · refine (onlyLogs_runAll hexec branches given).bind fun outcomes => ?_
    cases collect outcomes with
    | ok results => exact .pure results
    | error e => exact .fail e
  · exact onlyLogs_runEach hexec branches given

theorem onlyLogs_runBody [CharNames] (engine : Engine σ) (name : String) (r : Routine) (given : Value) :
    OnlyLogs (runBody engine execute name r given) := by
  cases hbody : r.body with
  | prompt devMessage userMessage tags =>
    simp only [runBody, hbody]
    refine (OnlyLogs.ofExcept _).bind fun initial => (OnlyLogs.ofExcept _).bind fun text => ?_
    exact (onlyLogs_generate engine name _).bind fun _ => .pure _
  | code code =>
    simp only [runBody, hbody]
    exact (OnlyLogs.ofExcept _).bind fun initial => onlyLogs_runCode name initial code given
  | define specs =>
    simp only [runBody, hbody]
    exact (OnlyLogs.ofExcept _).bind fun initial => (OnlyLogs.ofExcept _).bind fun _ => .pure _
  | branch condition whenTrue whenFalse =>
    simp only [runBody, hbody]
    exact (OnlyLogs.ofExcept _).bind fun initial => onlyLogs_runBranch hexec name initial condition whenTrue whenFalse given
  | compose steps =>
    simp only [runBody, hbody]
    exact (onlyLogs_runSteps hexec steps given).bind fun _ => .pure _
  | join branches =>
    simp only [runBody, hbody]
    exact (onlyLogs_runBranches hexec _ branches given).bind fun _ => .pure _
  | unknown kind raw =>
    simp only [runBody, hbody]
    exact .fail _

end Calls

theorem onlyLogs_bracket {work : Run σ (Environment × Trace)} (hwork : OnlyLogs work) (name kind : String) :
    OnlyLogs (bracket name kind work) := by
  refine (OnlyLogs.log _).bind fun _ => (hwork.onError _).bind fun _ => ?_
  exact (OnlyLogs.ofExcept _).bind fun _ => (OnlyLogs.log _).bind fun _ => .pure _

theorem onlyLogs_execute [CharNames] (engine : Engine σ) (limit : Nat) (name given : Value) :
    OnlyLogs (engine.execute limit name given) := by
  induction limit generalizing name given with
  | zero => exact .fail _
  | succ limit ih =>
    cases hfound : engine.program.find? name with
    | none =>
      simp only [execute, hfound]
      exact .fail _
    | some r =>
      have hbody := onlyLogs_runBody ih engine name.label r given
      simp only [execute, hfound]
      cases r.body with
      | unknown kind raw => exact .fail _
      | _ => exact onlyLogs_bracket hbody _ _

theorem onlyLogs_runMain [CharNames] (engine : Engine σ) (limit : Nat) (env : Environment) : OnlyLogs
    (runMain engine limit env) := by
  unfold runMain
  dsimp only
  split
  · exact .fail _
  · split
    · exact .fail _
    · refine (OnlyLogs.ofExcept _).bind fun _ => (OnlyLogs.log _).bind fun _ => ?_
      refine (onlyLogs_execute engine limit _ _).attempt.bind fun outcome => ?_
      split
      · exact .pure _
      · exact .fail _
      · exact .fail _

theorem onlyLogs_runWithin [CharNames] (engine : Engine σ) (limit : Nat) (env : Environment) :
    OnlyLogs (runWithin engine limit env) := by
  refine ((onlyLogs_runMain engine limit env).onError _).bind fun _ => ?_
  exact (OnlyLogs.ofExcept _).bind fun _ => (OnlyLogs.log _).bind fun _ => .pure _

end Engine

namespace Session

open Engine Run

variable {σ : Type} (engine : Engine σ) (limit : Nat)

theorem ofRuns_reply [CharNames] (operation : Operation) (s : State σ) :
    (reply engine limit s operation).1.ofRuns = operation.runs := by
  cases operation with
  | run inputs =>
    unfold reply
    dsimp only
    cases Inputs.ofValue inputs <;> rfl
  | _ => rfl

theorem exists_reply_of_runs [CharNames] {operation : Operation} (h : operation.runs = true) (service : σ)
    (requests : List Request) : ∃ answer service' requests' events, ∀ telemetry,
      reply engine limit ⟨service, requests, telemetry⟩ operation =
        (answer, ⟨service', requests', telemetry.logAll events⟩) := by
  cases operation with
  | run inputs =>
    cases hinputs : Inputs.ofValue inputs with
    | error cause =>
      refine ⟨.ran (.error (.failed cause)), service, requests, [], fun telemetry => ?_⟩
      simp only [reply, hinputs]
      rfl
    | ok env =>
      obtain ⟨result, service', requests', events, hrun⟩ := onlyLogs_runWithin engine limit env service requests
      refine ⟨.ran result, service', requests', events, fun telemetry => ?_⟩
      have hrun' : (engine.runWithin limit env).run ⟨service, requests, telemetry⟩ = _ := hrun telemetry
      simp only [reply, hinputs, hrun']
  | execute name given =>
    obtain ⟨result, service', requests', events, hexec⟩ := onlyLogs_execute engine limit name given service requests
    refine ⟨.executed result, service', requests', events, fun telemetry => ?_⟩
    have hexec' : (engine.execute limit name given).run ⟨service, requests, telemetry⟩ = _ := hexec telemetry
    simp only [reply, hexec']
  | _ => cases h

theorem exists_telemetry_of_not_runs [CharNames] {operation : Operation} (h : operation.runs = false) (s : State σ) :
    ∃ telemetry, (reply engine limit s operation).2 = { s with telemetry := telemetry } := by
  cases operation with
  | run inputs => cases h
  | execute name given => cases h
  | _ => exact ⟨_, rfl⟩

/-- Runs and executions are answered as they would be without events: with none collected, and without the operations that
are about them. -/
theorem events_never_read [CharNames] (s : State σ) (operations : List Operation) :
    let watched := replies engine limit s operations
    let silent := replies engine limit { s with telemetry := ⟨false, []⟩ } (operations.filter Operation.runs)
    watched.1.filter Reply.ofRuns = silent.1 ∧ watched.2.requests = silent.2.requests ∧
      watched.2.service = silent.2.service ∧ silent.2.telemetry = ⟨false, []⟩ := by
  -- For all states at once, since each operation leaves another to both sessions; the silent one never has any events.
  induction operations generalizing s with
  | nil => exact ⟨rfl, rfl, rfl, rfl⟩
  | cons operation rest ih =>
    have hreply := ofRuns_reply engine limit operation s
    cases hruns : operation.runs with
    | false =>
      obtain ⟨telemetry, hnext⟩ := exists_telemetry_of_not_runs engine limit hruns s
      rw [hruns] at hreply
      have hrest := ih (reply engine limit s operation).2
      simp only [hnext] at hrest
      simpa only [replies, List.filter_cons, hreply, hruns, hnext, Bool.false_eq_true, ↓reduceIte] using hrest
    | true =>
      obtain ⟨service, requests, telemetry⟩ := s
      obtain ⟨answer, service', requests', events, hall⟩ := exists_reply_of_runs engine limit hruns service requests
      have hsilent := @Telemetry.logAll_disabled ⟨false, []⟩ rfl events
      rw [hruns, hall] at hreply
      have hrest := ih ⟨service', requests', telemetry.logAll events⟩
      simp only [replies, List.filter_cons, hruns, hall, hreply, hsilent, ↓reduceIte, List.cons.injEq, true_and]
      exact hrest

end Session

end RoutineFlow
