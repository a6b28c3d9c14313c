import RoutineFlow.Proofs.Events
import RoutineFlow.Proofs.Nesting
import RoutineFlow.Proofs.Sorting

/-!
What a run logs. With a result it is the trace once more, as brackets; with an error, the routines under way are
closed one by one from the innermost, and nothing else happens in between.
-/

namespace RoutineFlow.Engine

open Run

variable {σ : Type}

/-- Between two states these events were logged, and no others. -/
def Logged (s s' : State σ) (events : List Event) : Prop :=
  s'.telemetry = s.telemetry.logAll events

namespace Logged

variable {s s' t : State σ} {events events' : List Event}

theorem refl (s : State σ) : Logged s s [] := rfl

theorem trans (h : Logged s t events) (h' : Logged t s' events') : Logged s s' (events ++ events') := by
  rw [Logged, Telemetry.logAll_append, ← h]
  exact h'

theorem log (h : Logged s t events) (event : Event) : Logged s (t.log event) (events ++ [event]) :=
  h.trans rfl

theorem cons {event : Event} (h : Logged (s.log event) s' events) : Logged s s' (event :: events) := h

theorem events_eq (h : Logged s s' events) (henabled : s.telemetry.enabled = true) :
    s'.telemetry.events = s.telemetry.events ++ events := by
  rw [h, Telemetry.logAll_enabled henabled]

theorem unique (h : Logged s s' events) (henabled : s.telemetry.enabled = true) (h' : Logged s s' events') :
    events = events' :=
  List.append_cancel_left ((h.events_eq henabled).symm.trans (h'.events_eq henabled))

end Logged

/-- Whatever an executor comes to, it logs what the trace says. -/
def Logs [CharNames] (p : Program) (execute : Executor σ) : Prop :=
  ∀ {name given outputs trace s s'},
    (execute name given).perform s = (.ok (outputs, trace), s') → Logged s s' (trace.events p)

section Results

variable {engine : Engine σ} {execute : Executor σ} {given : Value} {s s' : State σ}

theorem generate_logged {name : String} {r : Request} {generated : Environment}
    (h : (generate engine name r).perform s = (.ok generated, s')) :
    Logged s s' [.serviceCall name r.outputs] := by
  cases hservice : engine.service with
  | none =>
    rw [perform_generate_none hservice] at h
    cases h
  | some service =>
    rw [perform_generate_some hservice, Prod.mk.injEq] at h
    rw [← h.2]
    rfl

theorem runSteps_logged [CharNames] (hexec : Logs engine.program execute) {steps : List String} {final : Environment}
    {subs : List Trace} (h : (runSteps execute steps given).perform s = (.ok (final, subs), s')) :
    Logged s s' (Trace.eventsAll engine.program subs) := by
  induction steps generalizing given s final subs with
  | nil =>
    obtain ⟨env, -, rfl, hresult⟩ := runSteps_nil_eq_ok.mp h
    cases hresult
    exact .refl _
  | cons step steps ih =>
    obtain ⟨outputs, sub, t, final', subs', hstep, hrest, hresult⟩ := runSteps_cons_eq_ok.mp h
    cases hresult
    exact (hexec hstep).trans (ih hrest)

theorem runEach_logged [CharNames] (hexec : Logs engine.program execute) {branches : List String}
    {results : List (Environment × Trace)} (h : (runEach execute given branches).perform s = (.ok results, s')) :
    Logged s s' (Trace.eventsAll engine.program (results.map (·.2))) := by
  induction branches generalizing s results with
  | nil =>
    obtain ⟨rfl, rfl⟩ := runEach_nil_eq_ok.mp h
    exact .refl _
  | cons branch branches ih =>
    obtain ⟨first, t, others, hfirst, hothers, rfl⟩ := runEach_cons_eq_ok.mp h
    exact (hexec hfirst).trans (ih hothers)

theorem runCode_logged [CharNames] {name : String} {r : Routine} {initial : Environment} {code : Value}
    {outputs : Environment} {trace : Trace} (hfound : engine.program.find? (.str name) = some r)
    (hbody : r.body = .code code) (h : (runCode name initial code given).perform s = (.ok (outputs, trace), s')) :
    trace = .code ⟨name, given, outputs⟩ ∧
      Logged s s' (Trace.recovered engine.program ⟨name, given, outputs⟩) := by
  obtain ⟨doc, names, body⟩ := r
  cases hbody
  simp only [Trace.recovered, hfound]
  unfold runCode at h
  cases hcode : Expr.outputs name code given with
  | ok computed =>
    rw [hcode] at h
    cases h
    exact ⟨rfl, .refl _⟩
  | error failure =>
    rw [hcode] at h
    obtain ⟨_, t, hlog, h⟩ := bind_eq_ok.mp h
    cases hlog
    cases h
    exact ⟨rfl, rfl⟩

/-- A routine that came to a result logged, between its two events, what the trace says. -/
theorem runBody_logged [CharNames] (hsequential : engine.isParallel = false) (hexec : Logs engine.program execute)
    {name : String} {r : Routine} (hfound : engine.program.find? (.str name) = some r) {outputs : Environment}
    {trace : Trace} (h : (runBody engine execute name r given).perform s = (.ok (outputs, trace), s')) :
    ∃ events, Logged s s' events ∧
      trace.events engine.program = Trace.enclosed ⟨name, given, outputs⟩ r.body.kind events ∧
      ∀ running, Leads (⟨name, r.body.kind⟩ :: running) events (⟨name, r.body.kind⟩ :: running) := by
  cases hbody : r.body with
  | prompt dev user tags =>
    simp only [runBody, hbody] at h
    obtain ⟨initial, -, h⟩ := ofExcept_bind_eq_ok.mp h
    obtain ⟨text, generated, -, hgenerated, hresult⟩ := runPrompt_eq_ok.mp h
    cases hresult
    have htags : Trace.requested engine.program name = tags := by
      obtain ⟨doc, names, body⟩ := r
      cases hbody
      simp only [Trace.requested, hfound]
    refine ⟨_, generate_logged hgenerated, ?_, fun running => .call (.nil _)⟩
    rw [← htags]
    rfl
  | code code =>
    simp only [runBody, hbody] at h
    obtain ⟨initial, -, h⟩ := ofExcept_bind_eq_ok.mp h
    obtain ⟨rfl, hlogged⟩ := runCode_logged hfound hbody h
    exact ⟨_, hlogged, rfl, Trace.leads_recovered engine.program ⟨name, given, outputs⟩⟩
  | define specs =>
    simp only [runBody, hbody] at h
    obtain ⟨initial, -, h⟩ := ofExcept_bind_eq_ok.mp h
    obtain ⟨env, -, rfl, hresult⟩ := runDefine_eq_ok.mp h
    cases hresult
    exact ⟨[], .refl _, rfl, fun running => .nil _⟩
  | branch condition whenTrue whenFalse =>
    simp only [runBody, hbody] at h
    obtain ⟨initial, -, h⟩ := ofExcept_bind_eq_ok.mp h
    obtain ⟨taken, outputs', sub, -, -, hsub, hresult⟩ := runBranch_eq_ok.mp h
    cases hresult
    exact ⟨_, hexec hsub, rfl, fun running => sub.leads_events engine.program _⟩
  | compose steps =>
    simp only [runBody, hbody] at h
    obtain ⟨⟨final, subs⟩, t, hsteps, hresult⟩ := bind_eq_ok.mp h
    cases hresult
    exact ⟨_, runSteps_logged hexec hsteps, rfl, fun running => Trace.leads_eventsAll engine.program subs _⟩
  | join branches =>
    simp only [runBody, hbody] at h
    obtain ⟨results, t, hbranches, hresult⟩ := bind_eq_ok.mp h
    rw [runBranches_sequential (by simp [hsequential])] at hbranches
    cases hresult
    exact ⟨_, runEach_logged hexec hbranches, rfl, fun running => Trace.leads_eventsAll engine.program _ _⟩
  | unknown kind raw => simp [runBody, hbody] at h

theorem execute_logged [CharNames] (hsequential : engine.isParallel = false) (limit : Nat) :
    Logs engine.program (engine.execute limit) := by
  induction limit with
  | zero =>
    intro name given outputs trace s s' h
    cases h
  | succ limit ih =>
    intro name given outputs trace s s' h
    obtain ⟨n, r, t, keys, rfl, hfound, hbody, hkeys, rfl⟩ := execute_eq_ok.mp h
    obtain ⟨events, hlogged, htrace, -⟩ := runBody_logged hsequential ih hfound hbody
    rw [htrace, Trace.enclosed, Trace.reportedKeys, hkeys]
    exact hlogged.cons.log _

end Results

/-- Inputs or outputs that could not be reported, for their keys have no order. -/
def Unreported (env : Environment) (e : RunError) : Prop :=
  ∃ cause, env.sortedKeys = .error cause ∧ e = .failed cause ∧ ∃ key ∈ Mapping.keys env, key.text? = none

theorem unreported_of_sortedKeys {env : Environment} {cause : Cause} (h : env.sortedKeys = .error cause) :
    Unreported env (.failed cause) :=
  ⟨cause, h, rfl, Environment.exists_key_of_unsorted h⟩

/-- Events after which all routines begun since then were closed by an error, the innermost first, but for those
that are left. -/
def Closes (left running : List Running) (e : RunError) (events : List Event) : Prop :=
  ∃ before opened, Leads running before (left ++ (opened ++ running)) ∧
    events = before ++ opened.map (Running.failed e)

/-- In the course of an execution a routine did its work, and then could not report its outputs. -/
def LeftOpen [CharNames] (engine : Engine σ) (top : Nat) (outer : Call σ) (routine : Running) (e : RunError) : Prop :=
  ∃ limit env s r outputs trace t, Reaches engine top outer (limit + 1) ⟨.str routine.routine, env, s⟩ ∧
    engine.program.find? (.str routine.routine) = some r ∧ r.body.kind = routine.kind ∧
    (runBody engine (engine.execute limit) routine.routine r (.map env)).perform
      (s.log (.routineBegin routine.routine routine.kind)) = (.ok (outputs, trace), t) ∧
    Unreported outputs e

/-- In a run a routine was left open. -/
def LeftOpenRun [CharNames] (engine : Engine σ) (limit : Nat) (env : Environment) (s : State σ) (routine : Running)
    (e : RunError) : Prop :=
  Starts engine env ∧ LeftOpen engine limit (mainCall engine env s) routine e

/-- An execution ends with an error, by which every routine that it began is closed, but for those that are left. -/
def Fails [CharNames] (engine : Engine σ) (left : List Running) (limit : Nat) (call : Call σ) (e : RunError) : Prop :=
  ∃ s events, (engine.execute limit call.name (.map call.env)).perform call.state = (.error e, s) ∧
    Logged call.state s events ∧ ∀ running, Closes left running e events

theorem LeftOpen.eq_failed [CharNames] {engine : Engine σ} {top : Nat} {outer : Call σ} {routine : Running}
    {e : RunError} (h : LeftOpen engine top outer routine e) : ∃ cause, e = .failed cause := by
  obtain ⟨limit, env, s, r, outputs, trace, t, -, -, -, -, cause, -, rfl, -⟩ := h
  exact ⟨cause, rfl⟩

theorem LeftOpen.not_atLimit [CharNames] {engine : Engine σ} {top : Nat} {outer : Call σ} {routine : Running}
    {e : RunError} (h : LeftOpen engine top outer routine e) : ¬e.AtLimit := by
  obtain ⟨cause, rfl⟩ := h.eq_failed
  nofun

section Errors

variable {engine : Engine σ} {limit : Nat} {call inner : Call σ} {e : RunError} {s s' : State σ}

theorem Closes.within {left running : List Running} (routine : Running) {first events : List Event}
    (hfirst : Leads (routine :: running) first (routine :: running))
    (h : Closes left (routine :: running) e events) :
    Closes left running e
      (.routineBegin routine.routine routine.kind :: (first ++ events) ++ [routine.failed e]) := by
  obtain ⟨before, opened, hleads, rfl⟩ := h
  refine ⟨.routineBegin routine.routine routine.kind :: (first ++ before), opened ++ [routine], ?_, ?_⟩
  · rw [List.append_assoc]
    exact .enter (hfirst.append hleads)
  · simp

theorem closes_nothing (running : List Running) (e : RunError) : Closes [] running e [] :=
  ⟨[], [], .nil _, rfl⟩

theorem Breaks.logged {name : String} {body : Body} (h : Breaks name body s e s') :
    ∃ events, Logged s s' events ∧
      ∀ running, Leads (⟨name, body.kind⟩ :: running) events (⟨name, body.kind⟩ :: running) := by
  cases h with
  | atOnce other => exact ⟨[], .refl _, fun running => .nil _⟩
  | @asked _ _ tags _ _ _ other logged => exact ⟨[.serviceCall name tags], logged, fun running => .call (.nil _)⟩

theorem Calls.logged [CharNames] (hsequential : engine.isParallel = false) {name : String} {r : Routine}
    {env : Environment} (hfound : engine.program.find? (.str name) = some r)
    (h : Calls engine (engine.execute limit) ⟨.str name, env, s⟩ inner) :
    ∃ events, Logged (s.log (.routineBegin name r.body.kind)) inner.state events ∧
      ∀ running, Leads running events running := by
  have hexec : Logs engine.program (engine.execute limit) := execute_logged hsequential limit
  cases h with
  | branch found body chosen given =>
    obtain rfl := Option.some.inj (hfound.symm.trans found)
    rw [body]
    exact ⟨[], .refl _, fun running => .nil _⟩
  | step found body reached =>
    obtain rfl := Option.some.inj (hfound.symm.trans found)
    rw [body]
    exact ⟨_, runSteps_logged hexec reached, Trace.leads_eventsAll engine.program _⟩
  | each found body sequential reached =>
    obtain rfl := Option.some.inj (hfound.symm.trans found)
    rw [body]
    exact ⟨_, runEach_logged hexec reached, Trace.leads_eventsAll engine.program _⟩
  | all found body parallel reached =>
    rw [hsequential] at parallel
    cases parallel

/-- An execution fails as one that it calls does, and closes its own routine behind it. -/
theorem Calls.fails [CharNames] (hsequential : engine.isParallel = false) {left : List Running}
    (h : Calls engine (engine.execute limit) call inner) (hinner : Fails engine left limit inner e) :
    Fails engine left (limit + 1) call e := by
  obtain ⟨t, events, hperform, hlogged', hcloses⟩ := hinner
  obtain ⟨n, r, hname, hfound, hexec⟩ := h.execute_error hsequential hperform
  obtain ⟨name, env, s⟩ := call
  obtain rfl : name = .str n := hname
  obtain ⟨first, hlogged, hfirst⟩ := h.logged hsequential hfound
  refine ⟨_, _, hexec, (hlogged.trans hlogged').cons.log _, fun running => ?_⟩
  exact (hcloses _).within ⟨n, r.body.kind⟩ (hfirst _)

theorem fails_of_unreported [CharNames] (hsequential : engine.isParallel = false) {name : String} {r : Routine}
    {env outputs : Environment} {trace : Trace} (hfound : engine.program.find? (.str name) = some r)
    (hbody : (runBody engine (engine.execute limit) name r (.map env)).perform
      (s.log (.routineBegin name r.body.kind)) = (.ok (outputs, trace), s'))
    (hunreported : Unreported outputs e) : Fails engine [⟨name, r.body.kind⟩] (limit + 1) ⟨.str name, env, s⟩ e := by
  obtain ⟨events, hlogged, -, hleads⟩ :=
    runBody_logged hsequential (execute_logged hsequential limit) hfound hbody
  obtain ⟨cause, hcause, rfl, -⟩ := hunreported
  have hknown : ∀ kind raw, r.body ≠ .unknown kind raw := by
    intro kind raw hunknown
    simp [runBody, hunknown] at hbody
  have hexec : (engine.execute (limit + 1) (.str name) (.map env)).perform s = (.error (.failed cause), s') := by
    rw [execute_known hfound hknown]
    exact bracket_eq_error.mpr (.inr ⟨outputs, trace, cause, hbody, hcause, rfl⟩)
  refine ⟨s', _, hexec, hlogged.cons, fun running => ⟨_, [], .enter (hleads running), ?_⟩⟩
  rw [List.map_nil, List.append_nil]

theorem Reaches.fails [CharNames] (hsequential : engine.isParallel = false) {top : Nat} {outer : Call σ}
    {left : List Running} (h : Reaches engine top outer limit call) (hcall : Fails engine left limit call e) :
    Fails engine left top outer e := by
  induction h with
  | start => exact hcall
  | within reached calls ih => exact ih (calls.fails hsequential hcall)

/-- An execution that ends with an error closed what it had under way, but for a routine that was left open. -/
theorem execute_fails [CharNames] (hsequential : engine.isParallel = false) (he : ¬e.AtLimit) {top : Nat}
    {outer : Call σ} (hreached : Reaches engine top outer limit call)
    (h : (engine.execute limit call.name (.map call.env)).perform call.state = (.error e, s')) :
    ∃ left, Fails engine left limit call e ∧
      (left = [] ∨ ∃ routine, LeftOpen engine top outer routine e) := by
  induction limit generalizing call s' with
  | zero =>
    cases h
    exact absurd trivial he
  | succ limit ih =>
    obtain ⟨-, rfl⟩ | ⟨n, r, hname, hfound, hbracket⟩ := execute_eq_error h
    · exact ⟨[], ⟨_, [], h, .refl _, fun running => closes_nothing running e⟩, .inl rfl⟩
    obtain ⟨name, env, s⟩ := call
    obtain rfl : name = .str n := hname
    obtain ⟨t, hbody, rfl⟩ | ⟨outputs, trace, cause, hbody, hcause, rfl⟩ := bracket_eq_error.mp hbracket
    · obtain hbreaks | ⟨inner, hcalls, hinner⟩ := runBody_eq_error hsequential hfound hbody
      · obtain ⟨first, hlogged, hfirst⟩ := hbreaks.logged
        refine ⟨[], ⟨_, _, h, hlogged.cons.log _, fun running => ?_⟩, .inl rfl⟩
        have hcloses := (closes_nothing _ e).within ⟨n, r.body.kind⟩ (hfirst running)
        rw [List.append_nil] at hcloses
        exact hcloses
      · obtain ⟨left, hfails, hleft⟩ := ih (hreached.within hcalls) hinner
        exact ⟨left, hcalls.fails hsequential hfails, hleft⟩
    · have hunreported := unreported_of_sortedKeys hcause
      refine ⟨_, fails_of_unreported hsequential hfound hbody hunreported, .inr ⟨⟨n, r.body.kind⟩, ?_⟩⟩
      exact ⟨limit, env, s, r, outputs, trace, _, hreached, hfound, rfl, hbody, hunreported⟩

/-- A routine that was left open is the only one. -/
theorem LeftOpen.fails [CharNames] (hsequential : engine.isParallel = false) {top : Nat} {outer : Call σ}
    {routine : Running} (h : LeftOpen engine top outer routine e) : Fails engine [routine] top outer e := by
  obtain ⟨limit, env, s, r, outputs, trace, t, hreached, hfound, hkind, hbody, hunreported⟩ := h
  obtain ⟨name, kind⟩ := routine
  obtain rfl : r.body.kind = kind := hkind
  exact hreached.fails hsequential (fails_of_unreported hsequential hfound hbody hunreported)

theorem run_completes [CharNames] (hsequential : engine.isParallel = false) {env : Environment} {result : Result}
    (h : (runWithin engine limit env).perform s = (.ok result, s')) :
    ¬engine.program.MainAbsent ∧ ∃ keys, result.outputs.sortedKeys = .ok keys ∧ Logged s s'
      (.runStart engine.program.main :: result.trace.events engine.program ++
        [.runComplete engine.program.main keys]) := by
  obtain ⟨t, keys, hmain, -, hkeys, rfl⟩ := runWithin_eq_ok.mp h
  obtain ⟨hgiven, hsorted, hexec⟩ := runMain_eq_ok.mp hmain
  have hfound := Option.isNone_eq_false_iff.mp (find?_of_execute_eq_ok hexec)
  have hstarts : Starts engine env := ⟨hgiven, hfound, hsorted⟩
  exact ⟨hstarts.not_mainAbsent, keys, hkeys, (execute_logged hsequential limit hexec).cons.log _⟩

theorem mainError_eq_self (main : Value) (he : ¬e.AtLimit) : mainError main e = e := by
  cases e with
  | exhausted => exact absurd trivial he
  | tooDeep main => exact absurd trivial he
  | _ => rfl

theorem run_absent [CharNames] {env : Environment} (habsent : engine.program.MainAbsent) :
    ∃ e : RunError, (runWithin engine limit env).perform s =
      (.error e, s.log (.runError engine.program.main e.name e.message)) := by
  by_cases hempty : engine.program.main.isEmpty = true
  · exact ⟨_, runWithin_eq_error.mpr ⟨s, by rw [perform_runMain, if_pos hempty], rfl⟩⟩
  · have hnone := habsent.resolve_left hempty
    exact ⟨_, runWithin_eq_error.mpr ⟨s, by rw [perform_runMain, if_neg hempty, if_pos hnone], rfl⟩⟩

theorem run_refuses [CharNames] {env : Environment} {cause : Cause} (hpresent : ¬engine.program.MainAbsent)
    (hcause : env.sortedKeys = .error cause) :
    (runWithin engine limit env).perform s = (.error (.failed cause),
      s.log (.runError engine.program.main (RunError.failed cause).name (RunError.failed cause).message)) := by
  obtain ⟨hgiven, hfound⟩ := not_or.mp hpresent
  refine runWithin_eq_error.mpr ⟨s, ?_, rfl⟩
  rw [perform_runMain, if_neg hgiven, if_neg hfound, hcause]

theorem run_fails [CharNames] {env : Environment} {left : List Running} (hstarts : Starts engine env) (he : ¬e.AtLimit)
    (h : Fails engine left limit (mainCall engine env s) e) :
    ∃ s' events, (runWithin engine limit env).perform s = (.error e, s') ∧ Closes left [] e events ∧
      Logged s s' (.runStart engine.program.main :: events ++
        [.runError engine.program.main e.name e.message]) := by
  obtain ⟨t, events, hexec, hlogged, hcloses⟩ := h
  have hrun := runWithin_of_execute hstarts hexec
  rw [mainError_eq_self _ he] at hrun
  exact ⟨_, events, hrun, hcloses [], hlogged.cons.log _⟩

/-- A run that started and ends with an error closed what was under way, but for a routine that was left open. -/
theorem run_eq_error [CharNames] (hsequential : engine.isParallel = false) {env : Environment}
    (hstarts : Starts engine env) (hlimit : ∀ main, e ≠ .tooDeep main)
    (h : (runWithin engine limit env).perform s = (.error e, s')) :
    ¬e.AtLimit ∧ ∃ left, Fails engine left limit (mainCall engine env s) e ∧
      (left = [] ∨ ∃ routine, LeftOpenRun engine limit env s routine e) := by
  obtain ⟨t, hmain, rfl⟩ := runWithin_eq_error.mp h
  obtain ⟨-, -, habsent | ⟨cause, hcause, -⟩⟩ | ⟨-, e', hexec, rfl⟩ := runMain_eq_error hmain
  · exact absurd habsent hstarts.not_mainAbsent
  · obtain ⟨keys, hkeys⟩ := hstarts.inputs_sorted
    rw [hcause] at hkeys
    cases hkeys
  · have he : ¬e'.AtLimit := by
      rintro hatLimit
      cases e' with
      | exhausted => exact hlimit engine.program.main rfl
      | tooDeep main => exact hlimit main rfl
      | _ => cases hatLimit
    rw [mainError_eq_self _ he]
    refine ⟨he, ?_⟩
    have hreached : Reaches engine limit (mainCall engine env s) limit (mainCall engine env s) := .start
    obtain ⟨left, hfails, rfl | ⟨routine, hopen⟩⟩ := execute_fails hsequential he hreached hexec
    · exact ⟨[], hfails, .inl rfl⟩
    · exact ⟨left, hfails, .inr ⟨routine, hstarts, hopen⟩⟩

theorem run_logged [CharNames] (hsequential : engine.isParallel = false) {env : Environment}
    {outcome : Except RunError Result} (h : (runWithin engine limit env).perform s = (outcome, s'))
    (hlimit : ∀ main, outcome ≠ .error (.tooDeep main)) : ∃ events, Logged s s' events := by
  rcases outcome with e | result
  · by_cases hstarts : Starts engine env
    · have he : ∀ main, e ≠ .tooDeep main := by simpa using hlimit
      obtain ⟨he, left, hfails, -⟩ := run_eq_error hsequential hstarts he h
      obtain ⟨t, events, hrun, -, hlogged⟩ := run_fails hstarts he hfails
      cases h.symm.trans hrun
      exact ⟨_, hlogged⟩
    · obtain ⟨t, hmain, rfl⟩ := runWithin_eq_error.mp h
      obtain ⟨-, rfl, -⟩ | ⟨hstarts', -⟩ := runMain_eq_error hmain
      · exact ⟨_, (Logged.refl t).log _⟩
      · exact absurd hstarts' hstarts
  · obtain ⟨-, keys, -, hlogged⟩ := run_completes hsequential h
    exact ⟨_, hlogged⟩

end Errors

def mixed : Program where
  routines := [
    ("main", ⟨.null, [], .join ["keep", "add"]⟩),
    ("keep", ⟨.null, [], .compose []⟩),
    ("add", ⟨.null, [], .define [("1", .literal (.str "string") (some (.str "y")) false)]⟩)]
  main := .str "main"
  doc := .null

def mixedEngine : Engine Unit := ⟨mixed, none, 1⟩

def mixedStart : State Unit := ⟨(), [], ⟨true, []⟩⟩

def numbered : Environment := [(.num (.int 3), .str "x")]

/-- What the program makes of the numbered input: a number and a text for keys. -/
def unordered : Environment := [(.num (.int 3), .str "x"), (.text "1", .str "y")]

def mixedError : RunError := .failed (.unordered "<" .text .integer)

def mixedEvents : List Event :=
  [.routineBegin "main" "join", .routineBegin "keep" "compose", .routineEnd "keep" "compose" [.num (.int 3)],
    .routineBegin "add" "define", .routineEnd "add" "define" [.text "1"]]

theorem sortedKeys_unordered : unordered.sortedKeys = .error (.unordered "<" .text .integer) := by cbv

theorem unordered_refused : (runWithin mixedEngine 3 unordered).perform mixedStart = (.error mixedError,
    ⟨(), [], ⟨true, [.runError (.str "main") mixedError.name mixedError.message]⟩⟩) :=
  run_refuses (by decide) sortedKeys_unordered

theorem numbered_body : ∃ trace, (runBody mixedEngine (mixedEngine.execute 2) "main"
    ⟨.null, [], .join ["keep", "add"]⟩ (.map numbered)).perform
      ((mixedStart.log (.runStart (.str "main"))).log (.routineBegin "main" "join")) =
      (.ok (unordered, trace), ⟨(), [], ⟨true, .runStart (.str "main") :: mixedEvents⟩⟩) := by
  constructor
  cbv

theorem numbered_leftOpenRun : LeftOpenRun mixedEngine 3 numbered mixedStart ⟨"main", "join"⟩ mixedError := by
  obtain ⟨trace, hbody⟩ := numbered_body
  exact ⟨⟨rfl, rfl, [.num (.int 3)], by cbv⟩, 2, numbered, _, _, unordered, trace, _, .start, rfl, rfl, hbody,
    unreported_of_sortedKeys sortedKeys_unordered⟩

theorem numbered_left_open : (runWithin mixedEngine 3 numbered).perform mixedStart = (.error mixedError,
    ⟨(), [], ⟨true, .runStart (.str "main") :: mixedEvents ++
      [.runError (.str "main") mixedError.name mixedError.message]⟩⟩) := by
  obtain ⟨trace, hbody⟩ := numbered_body
  obtain ⟨hstarts, -⟩ := numbered_leftOpenRun
  have hexec : (mixedEngine.execute 3 (.str "main") (.map numbered)).perform
      (mixedStart.log (.runStart (.str "main"))) =
      (.error mixedError, ⟨(), [], ⟨true, .runStart (.str "main") :: mixedEvents⟩⟩) :=
    bracket_eq_error.mpr (.inr ⟨unordered, trace, _, hbody, sortedKeys_unordered, rfl⟩)
  exact runWithin_of_execute hstarts hexec

/-- A run without a main routine logs its error and nothing else, and so does one whose inputs cannot be reported.
Any other one starts. Then it completes behind the brackets of its trace, or ends with the error by which it closed
all routines under way, but for the one whose outputs could not be reported. -/
theorem run_events [CharNames] (engine : Engine σ) (hsequential : engine.isParallel = false) (limit : Nat)
    (env : Environment) (s s' : State σ) (outcome : Except RunError Result) (henabled : s.telemetry.enabled = true)
    (h : (runWithin engine limit env).perform s = (outcome, s')) (hlimit : ∀ main, outcome ≠ .error (.tooDeep main)) :
    let main := engine.program.main
    ∃ logged, s'.telemetry.events = s.telemetry.events ++ logged ∧
      (engine.program.MainAbsent → ∃ e, outcome = .error e ∧ logged = [.runError main e.name e.message]) ∧
      (¬engine.program.MainAbsent →
        (∀ cause, env.sortedKeys = .error cause → ∃ e, outcome = .error e ∧ Unreported env e ∧
          logged = [.runError main e.name e.message]) ∧
        (∀ result, outcome = .ok result →
          (∃ keys, result.outputs.sortedKeys = .ok keys ∧
            logged = .runStart main :: result.trace.events engine.program ++ [.runComplete main keys]) ∧
            ∀ event ∈ logged, event.type ≠ "routine.error") ∧
        (∀ routine e, LeftOpenRun engine limit env s routine e → outcome = .error e ∧
          ∃ events, logged = .runStart main :: events ++ [.runError main e.name e.message] ∧
            Closes [routine] [] e events) ∧
        ∀ e keys, outcome = .error e → env.sortedKeys = .ok keys →
          (∀ routine, ¬LeftOpenRun engine limit env s routine e) →
          ∃ events, logged = .runStart main :: events ++ [.runError main e.name e.message] ∧
            Closes [] [] e events) := by
  intro main
  obtain ⟨logged, hlogged⟩ := run_logged hsequential h hlimit
  have hunique : ∀ {events}, Logged s s' events → logged = events := hlogged.unique henabled
  refine ⟨logged, hlogged.events_eq henabled, fun habsent => ?_, fun hpresent => ⟨?_, ?_, ?_, ?_⟩⟩
  · obtain ⟨e, hrun⟩ : ∃ e : RunError, (runWithin engine limit env).perform s =
        (.error e, s.log (.runError main e.name e.message)) := run_absent habsent
    cases h.symm.trans hrun
    exact ⟨e, rfl, hunique ((Logged.refl s).log _)⟩
  · intro cause hcause
    cases h.symm.trans (run_refuses hpresent hcause)
    exact ⟨_, rfl, unreported_of_sortedKeys hcause, hunique ((Logged.refl s).log _)⟩
  · rintro result rfl
    obtain ⟨-, keys, hkeys, hcompleted⟩ := run_completes hsequential h
    obtain rfl := hunique hcompleted
    refine ⟨⟨keys, hkeys, rfl⟩, ?_⟩
    have htrace := (result.trace.leads_events engine.program []).no_error
    simp only [List.forall_mem_append, List.forall_mem_cons]
    exact ⟨⟨by simp [Event.runStart], htrace⟩, by simp [Event.runComplete]⟩
  · rintro routine e ⟨hstarts, hopen⟩
    obtain ⟨t, events, hrun, hcloses, hfailed⟩ := run_fails hstarts hopen.not_atLimit (hopen.fails hsequential)
    cases h.symm.trans hrun
    exact ⟨rfl, events, hunique hfailed, hcloses⟩
  · rintro e keys rfl hkeys hnone
    have hstarts := starts_of_present hpresent hkeys
    obtain ⟨he, left, hfails, rfl | ⟨routine, hopen⟩⟩ :=
      run_eq_error hsequential hstarts (by simpa using hlimit) h
    · obtain ⟨t, events, hrun, hcloses, hfailed⟩ := run_fails hstarts he hfails
      cases h.symm.trans hrun
      exact ⟨events, hunique hfailed, hcloses⟩
    · exact absurd hopen (hnone routine)

/-- The sample program with a service that answers once and then declines. -/
def brokenStart : State (List Service.Step) :=
  ⟨[.give (.record [("line", .str "High.")]), .decline "gone"], [], ⟨true, []⟩⟩

def brokenEvents : List Event :=
  [.runStart (.str "main"), .routineBegin "main" "compose", .routineBegin "ask" "prompt",
    .serviceCall "ask" [("line", .str "string")], .routineEnd "ask" "prompt" ["line", "topic"],
    .routineBegin "choose" "if", .routineBegin "both" "join", .routineBegin "keep" "define",
    .routineEnd "keep" "define" ["kept"], .routineBegin "ask" "prompt", .serviceCall "ask" [("line", .str "string")]]

def brokenError : RunError := .service "ask" "gone"

/-- The state of the sample run behind the first of these events. -/
def brokenAt (logged : List Event) (requests : List Request) : State (List Service.Step) :=
  ⟨[.decline "gone"], requests, ⟨true, logged⟩⟩

theorem ask_broken : (sampleEngine.execute 1 (.str "ask") (.map (sampleLine "High."))).perform
    (brokenAt (brokenEvents.take 9) [sampleRequest]) =
      (.error brokenError, (brokenAt brokenEvents [sampleRequest, sampleRequest]).log
        (.routineError "ask" "prompt" brokenError.name brokenError.message)) := by
  have hwork : (runBody sampleEngine (sampleEngine.execute 0) "ask"
      ⟨.null, ["topic"], .prompt (.str "Be brief.") (.str "On ${topic}") [("line", .str "string")]⟩
      (.map (sampleLine "High."))).perform
        ((brokenAt (brokenEvents.take 9) [sampleRequest]).log (.routineBegin "ask" "prompt")) =
      (.error brokenError, brokenAt brokenEvents [sampleRequest, sampleRequest]) := by cbv
  exact bracket_eq_error.mpr (.inl ⟨_, hwork, rfl⟩)

theorem broken_calls :
    Calls sampleEngine (sampleEngine.execute 3)
        ⟨.str "main", sampleInputs, brokenStart.log (.runStart (.str "main"))⟩
        ⟨.str "choose", sampleLine "High.", brokenAt (brokenEvents.take 5) [sampleRequest]⟩ ∧
      Calls sampleEngine (sampleEngine.execute 2)
        ⟨.str "choose", sampleLine "High.", brokenAt (brokenEvents.take 5) [sampleRequest]⟩
        ⟨.str "both", sampleLine "High.", brokenAt (brokenEvents.take 6) [sampleRequest]⟩ ∧
      Calls sampleEngine (sampleEngine.execute 1)
        ⟨.str "both", sampleLine "High.", brokenAt (brokenEvents.take 6) [sampleRequest]⟩
        ⟨.str "ask", sampleLine "High.", brokenAt (brokenEvents.take 9) [sampleRequest]⟩ := by
  have hmain : (runSteps (sampleEngine.execute 3) ["ask"] (.map sampleInputs)).perform
      ((brokenStart.log (.runStart (.str "main"))).log (.routineBegin "main" "compose")) =
      (.ok (sampleLine "High.", [sampleAsk sampleInputs "High."]),
        brokenAt (brokenEvents.take 5) [sampleRequest]) := by cbv
  have hboth : (runEach (sampleEngine.execute 1) (.map (sampleLine "High.")) ["keep"]).perform
      ((brokenAt (brokenEvents.take 6) [sampleRequest]).log (.routineBegin "both" "join")) =
      (.ok [([("kept", .str "High.")], .define ⟨"keep", .map (sampleLine "High."), [("kept", .str "High.")]⟩)],
        brokenAt (brokenEvents.take 9) [sampleRequest]) := by cbv
  have hchoose : holds (.str "line") (.map (sampleLine "High.")) = .ok true := by cbv
  exact ⟨.step rfl rfl hmain, .branch rfl rfl hchoose rfl, .each rfl rfl rfl hboth⟩

def brokenClosed : List Running := [⟨"ask", "prompt"⟩, ⟨"both", "join"⟩, ⟨"choose", "if"⟩, ⟨"main", "compose"⟩]

theorem broken_run : (runWithin sampleEngine 4 sampleInputs).perform brokenStart =
    (.error brokenError, (brokenAt (brokenEvents ++ brokenClosed.map (Running.failed brokenError))
      [sampleRequest, sampleRequest]).log (.runError (.str "main") brokenError.name brokenError.message)) := by
  obtain ⟨hmain, hchoose, hboth⟩ := broken_calls
  obtain ⟨_, _, ⟨⟩, ⟨⟩, hexec⟩ := hboth.execute_error rfl ask_broken
  obtain ⟨_, _, ⟨⟩, ⟨⟩, hexec⟩ := hchoose.execute_error rfl hexec
  obtain ⟨_, _, ⟨⟩, ⟨⟩, hexec⟩ := hmain.execute_error rfl hexec
  have hstarts : Starts sampleEngine sampleInputs := ⟨rfl, rfl, ["topic"], by cbv⟩
  exact runWithin_of_execute hstarts hexec

theorem sample_run_events :
    (∃ s' keys, (runWithin sampleEngine 4 sampleInputs).perform { sampleStart with telemetry := ⟨true, []⟩ } =
        (.ok ⟨sampleInputs, sampleOutputs, sampleTrace⟩, s') ∧
      s'.telemetry.events =
        .runStart (.str "main") :: sampleTrace.events sample ++ [.runComplete (.str "main") keys]) ∧
    (∃ s' events, (runWithin sampleEngine 4 sampleInputs).perform brokenStart = (.error brokenError, s') ∧
      s'.telemetry.events = .runStart (.str "main") :: events ++
        [.runError (.str "main") brokenError.name brokenError.message] ∧
      .runStart (.str "main") :: events = brokenEvents ++ brokenClosed.map (Running.failed brokenError) ∧
      Closes [] [] brokenError events) ∧
    (∃ s' events, (runWithin mixedEngine 3 numbered).perform mixedStart = (.error mixedError, s') ∧
      s'.telemetry.events = .runStart (.str "main") :: events ++
        [.runError (.str "main") mixedError.name mixedError.message] ∧
      Closes [⟨"main", "join"⟩] [] mixedError events) ∧
    ∃ s', (runWithin mixedEngine 3 unordered).perform mixedStart = (.error mixedError, s') ∧
      s'.telemetry.events = [.runError (.str "main") mixedError.name mixedError.message] := by
  refine ⟨?_, ?_, ?_, ?_⟩
  · have hrun : ∃ s', (runWithin sampleEngine 4 sampleInputs).perform
        { sampleStart with telemetry := ⟨true, []⟩ } =
        (.ok ⟨sampleInputs, sampleOutputs, sampleTrace⟩, s') := by
      constructor
      cbv
    obtain ⟨s', hrun⟩ := hrun
    obtain ⟨logged, hlogged, -, hpresent⟩ :=
      run_events sampleEngine rfl 4 sampleInputs _ s' _ rfl hrun (by simp)
    obtain ⟨-, hcompletes, -⟩ := hpresent (by decide)
    obtain ⟨⟨keys, -, rfl⟩, -⟩ := hcompletes _ rfl
    exact ⟨s', keys, hrun, hlogged⟩
  · have hrun := broken_run
    obtain ⟨logged, hlogged, -, hpresent⟩ :=
      run_events sampleEngine rfl 4 sampleInputs _ _ _ rfl hrun (by simp [brokenError])
    obtain ⟨-, -, -, hfails⟩ := hpresent (by decide)
    have hkeys : sampleInputs.sortedKeys = .ok ["topic"] := by cbv
    have hnone : ∀ routine, ¬LeftOpenRun sampleEngine 4 sampleInputs brokenStart routine brokenError := by
      rintro routine ⟨-, hopen⟩
      obtain ⟨cause, hcause⟩ := hopen.eq_failed
      cases hcause
    obtain ⟨events, rfl, hcloses⟩ := hfails _ _ rfl hkeys hnone
    exact ⟨_, events, hrun, hlogged, (List.append_cancel_right hlogged).symm, hcloses⟩
  · have hrun := numbered_left_open
    obtain ⟨logged, hlogged, -, hpresent⟩ :=
      run_events mixedEngine rfl 3 numbered _ _ _ rfl hrun (by simp [mixedError])
    obtain ⟨-, -, hopen, -⟩ := hpresent (by decide)
    obtain ⟨-, events, rfl, hcloses⟩ := hopen _ _ numbered_leftOpenRun
    exact ⟨_, events, hrun, hlogged, hcloses⟩
  · have hrun := unordered_refused
    obtain ⟨logged, hlogged, -, hpresent⟩ :=
      run_events mixedEngine rfl 3 unordered _ _ _ rfl hrun (by simp [mixedError])
    obtain ⟨hrefused, -⟩ := hpresent (by decide)
    obtain ⟨e, he, -, rfl⟩ := hrefused _ sortedKeys_unordered
    cases he
    exact ⟨_, hrun, hlogged⟩

/-- Keys that are not all texts keep a run from starting, or leave a routine open. -/
theorem mixed_runs_break_off :
    mixedEngine.isParallel = false ∧ ¬mixed.MainAbsent ∧ ∀ env ∈ [numbered, unordered],
      ∃ logged, (runWithin mixedEngine 3 env).perform mixedStart = (.error mixedError, ⟨(), [], ⟨true, logged⟩⟩) ∧
        ¬∃ events, logged = .runStart (.str "main") :: events ++
          [.runError (.str "main") mixedError.name mixedError.message] ∧ Closes [] [] mixedError events := by
  refine ⟨rfl, by decide, ?_⟩
  simp only [List.forall_mem_cons, List.not_mem_nil, false_implies, implies_true, and_true]
  refine ⟨⟨_, numbered_left_open, ?_⟩, ⟨_, unordered_refused, ?_⟩⟩
  · rintro ⟨events, hlogged, before, opened, hleads, rfl⟩
    have hevents : mixedEvents = before ++ opened.map (Running.failed mixedError) :=
      (List.cons.inj (List.append_cancel_right hlogged)).2
    have herrors : ∀ event ∈ mixedEvents, event.type ≠ "routine.error" := by decide
    cases opened with
    -- three routines begin and two end, so one is under way
    | nil =>
      rw [List.map_nil, List.append_nil] at hevents
      have hlength := hleads.length_eq
      rw [← hevents] at hlength
      exact absurd hlength (by decide)
    | cons routine opened =>
      have hmem : routine.failed mixedError ∈ mixedEvents := by
        rw [hevents]
        exact List.mem_append_right _ List.mem_cons_self
      exact herrors _ hmem rfl
  · rintro ⟨events, hlogged, -⟩
    have hlength := congrArg List.length hlogged
    simp at hlength

end RoutineFlow.Engine
