import RoutineFlow.Proofs.Replay

/-!
The events of routines are brackets: each routine begins and ends, and what it runs does so in between. Read in
order they say at any time which routines are under way.
-/

namespace RoutineFlow

namespace Telemetry

def logAll (t : Telemetry) (events : List Event) : Telemetry :=
  events.foldl log t

theorem logAll_append (t : Telemetry) (events events' : List Event) :
    t.logAll (events ++ events') = (t.logAll events).logAll events' :=
  List.foldl_append

theorem logAll_enabled {t : Telemetry} (h : t.enabled = true) (events : List Event) :
    t.logAll events = { t with events := t.events ++ events } := by
  induction events generalizing t with
  | nil => rw [logAll, List.foldl_nil, List.append_nil]
  | cons event events ih =>
    have hlog : t.log event = ⟨t.enabled, t.events ++ [event]⟩ := if_pos h
    change (t.log event).logAll events = _
    rw [hlog, @ih ⟨t.enabled, t.events ++ [event]⟩ h, List.append_assoc, List.singleton_append]

end Telemetry

/-- A routine that has begun and has not ended. -/
structure Running where
  routine : String
  kind : String

def Running.failed (e : RunError) (r : Running) : Event :=
  .routineError r.routine r.kind e.name e.message

/-- Events change which routines are under way, the innermost first. Only that one ends, and only that one can
have called the service or recovered. -/
inductive Leads : List Running → List Event → List Running → Prop
  | nil (running : List Running) : Leads running [] running
  | enter {name kind : String} {running after : List Running} {events : List Event}
      (h : Leads (⟨name, kind⟩ :: running) events after) :
      Leads running (.routineBegin name kind :: events) after
  | leave {name kind : String} {keys : List Key} {running after : List Running} {events : List Event}
      (h : Leads running events after) :
      Leads (⟨name, kind⟩ :: running) (.routineEnd name kind keys :: events) after
  | call {name : String} {tags : Mapping String Value} {running after : List Running} {events : List Event}
      (h : Leads (⟨name, "prompt"⟩ :: running) events after) :
      Leads (⟨name, "prompt"⟩ :: running) (.serviceCall name tags :: events) after
  | recover {name message : String} {running after : List Running} {events : List Event}
      (h : Leads (⟨name, "code"⟩ :: running) events after) :
      Leads (⟨name, "code"⟩ :: running) (.codeRecovered name message :: events) after

namespace Leads

variable {before between after : List Running} {events events' : List Event}

theorem append (h : Leads before events between) (h' : Leads between events' after) :
    Leads before (events ++ events') after := by
  induction h with
  | nil running => exact h'
  | enter _ ih => exact .enter (ih h')
  | leave _ ih => exact .leave (ih h')
  | call _ ih => exact .call (ih h')
  | recover _ ih => exact .recover (ih h')

theorem no_error (h : Leads before events after) : ∀ event ∈ events, event.type ≠ "routine.error" := by
  induction h with
  | nil running => exact List.forall_mem_nil _
  | enter _ ih => exact List.forall_mem_cons.mpr ⟨by simp [Event.routineBegin], ih⟩
  | leave _ ih => exact List.forall_mem_cons.mpr ⟨by simp [Event.routineEnd], ih⟩
  | call _ ih => exact List.forall_mem_cons.mpr ⟨by simp [Event.serviceCall], ih⟩
  | recover _ ih => exact List.forall_mem_cons.mpr ⟨by simp [Event.codeRecovered], ih⟩

/-- As many routines are under way as began and did not end. -/
theorem length_eq (h : Leads before events after) :
    after.length + events.countP (·.type == "routine.end") =
      before.length + events.countP (·.type == "routine.begin") := by
  induction h with
  | nil running => rfl
  | enter _ ih =>
    simp only [List.countP_cons, Event.routineBegin, List.length_cons] at ih ⊢
    simp only [beq_iff_eq, String.reduceEq, ↓reduceIte]
    omega
  | leave _ ih =>
    simp only [List.countP_cons, Event.routineEnd, List.length_cons] at ih ⊢
    simp only [beq_iff_eq, String.reduceEq, ↓reduceIte]
    omega
  | call _ ih =>
    simp only [List.countP_cons, Event.serviceCall, List.length_cons] at ih ⊢
    simpa using ih
  | recover _ ih =>
    simp only [List.countP_cons, Event.codeRecovered, List.length_cons] at ih ⊢
    simpa using ih

end Leads

namespace Trace

def reportedKeys (outputs : Environment) : List Key :=
  match outputs.sortedKeys with
  | .ok keys => keys
  | .error _ => []

def enclosed (record : Record) (kind : String) (events : List Event) : List Event :=
  .routineBegin record.routine kind :: events ++
    [.routineEnd record.routine kind (reportedKeys record.outputs)]

/-- The event of code that gave no outputs. -/
def recovered [CharNames] (p : Program) (record : Record) : List Event :=
  match p.find? (.str record.routine) with
  | some ⟨_, _, .code source⟩ => match Expr.outputs record.routine source record.inputs with
    | .ok _ => []
    | .error failure => [.codeRecovered record.routine failure.message]
  | _ => []

mutual

/-- The events of an execution that left a trace. -/
def events [CharNames] (p : Program) : Trace → List Event
  | .prompt record _ _ =>
    enclosed record "prompt" [.serviceCall record.routine (requested p record.routine)]
  | .code record => enclosed record "code" (recovered p record)
  | .define record => enclosed record "define" []
  | .branch record _ sub => enclosed record "if" (events p sub)
  | .compose record subs => enclosed record "compose" (eventsAll p subs)
  | .join record subs => enclosed record "join" (eventsAll p subs)

def eventsAll [CharNames] (p : Program) : List Trace → List Event
  | [] => []
  | t :: rest => events p t ++ eventsAll p rest

end

theorem leads_enclosed {record : Record} {kind : String} {events : List Event} {running : List Running}
    (h : Leads (⟨record.routine, kind⟩ :: running) events (⟨record.routine, kind⟩ :: running)) :
    Leads running (enclosed record kind events) running :=
  .enter (h.append (.leave (.nil running)))

theorem leads_recovered [CharNames] (p : Program) (record : Record) (running : List Running) :
    Leads (⟨record.routine, "code"⟩ :: running) (recovered p record) (⟨record.routine, "code"⟩ :: running) := by
  unfold recovered
  split
  · split
    · exact .nil _
    · exact .recover (.nil _)
  · exact .nil _

mutual

/-- What left a trace is over: the routines under way are the same as before. -/
theorem leads_events [CharNames] (p : Program) (t : Trace) (running : List Running) : Leads running
    (t.events p) running := by
  cases t with
  | prompt record dev text => exact leads_enclosed (.call (.nil _))
  | code record => exact leads_enclosed (leads_recovered p record running)
  | define record => exact leads_enclosed (.nil _)
  | branch record taken sub => exact leads_enclosed (leads_events p sub _)
  | compose record subs => exact leads_enclosed (leads_eventsAll p subs _)
  | join record subs => exact leads_enclosed (leads_eventsAll p subs _)

theorem leads_eventsAll [CharNames] (p : Program) (subs : List Trace) (running : List Running) :
    Leads running (eventsAll p subs) running := by
  cases subs with
  | nil => exact .nil _
  | cons sub subs => exact (leads_events p sub _).append (leads_eventsAll p subs _)

end

end Trace

end RoutineFlow
