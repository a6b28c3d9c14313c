import RoutineFlow.Proofs.Derivation

/-!
A trace records enough to repeat its run. Answers come back merged with what the routine passed on, so
the replay rests on merging being idempotent; the rest of a run depends on the answers only.
-/

namespace RoutineFlow

namespace Trace

theorem walk_eq (t : Trace) : t.walk = t :: t.children.flatMap walk := by
  cases t with
  | compose record subs => rw [walk, walkAll_eq_flatMap, children]
  | join record subs => rw [walk, walkAll_eq_flatMap, children]
  | _ => simp [walk, children]

theorem filterMap_walk {α : Type} (f : Trace → Option α) (t : Trace) :
    t.walk.filterMap f = (f t).toList ++ t.children.flatMap fun sub => sub.walk.filterMap f := by
  rw [walk_eq, List.filterMap_cons, List.filterMap_flatMap]
  cases f t <;> rfl

def requested (p : Program) (name : String) : Mapping String Value :=
  match p.find? (.str name) with
  | some ⟨_, _, .prompt _ _ tags⟩ => tags
  | _ => []

def request? (p : Program) : Trace → Option Request
  | .prompt record dev text => some ⟨dev, text, requested p record.routine⟩
  | _ => none

def answer? : Trace → Option Environment
  | .prompt record _ _ => some record.outputs
  | _ => none

/-- What the prompts of a trace asked, in the order in which they are walked. -/
def requests (p : Program) (t : Trace) : List Request :=
  t.walk.filterMap (request? p)

/-- What the prompts of a trace gave, in the same order. -/
def answers (t : Trace) : List Environment :=
  t.walk.filterMap answer?

end Trace

namespace Service

variable {σ : Type}

/-- Answers its calls in turn by the given outputs, whatever it is asked. -/
def Recites (service : Service σ) : σ → List Environment → Prop
  | _, [] => True
  | s, outputs :: rest => ∀ r, (service.answer s r).1 = .ok (.map outputs) ∧
      service.Recites (service.answer s r).2 rest

theorem scripted_recites (answers : List Environment) :
    scripted.Recites (answers.map fun outputs => .give (.map outputs)) answers := by
  induction answers with
  | nil => trivial
  | cons outputs rest ih =>
    intro r
    cases rest with
    | nil => exact ⟨rfl, trivial⟩
    | cons next rest => exact ⟨rfl, ih⟩

end Service

namespace Engine

open Run

variable {σ τ α β : Type}

theorem distinct_passthrough (names : List String) (env : Environment) :
    Mapping.Distinct (passthrough names env) := by
  unfold passthrough
  apply List.foldlRecOn names
  · exact List.Pairwise.nil
  · intro outputs houtputs name _
    cases Mapping.get? env (name : Key) with
    | none => exact houtputs
    | some v => exact Mapping.distinct_insert houtputs _ v

theorem distinct_initialOutputs {names : List String} {given : Value} {initial : Environment}
    (h : initialOutputs names given = .ok initial) : Mapping.Distinct initial := by
  unfold initialOutputs at h
  cases hvars : given.toVariables names with
  | error cause =>
    rw [hvars] at h
    cases h
  | ok env =>
    rw [hvars] at h
    cases h
    exact distinct_passthrough names env

/-- Between two states a run asked what the prompts of the traces say, and the other one comes to `a` by
asking the same, if the service that it has next gives what they gave. -/
def Replayed (p : Program) (service : Service τ) (traces : List Trace) (s s' : State σ) (y : Run τ α)
    (a : α) : Prop :=
  s'.requests = s.requests ++ traces.flatMap (Trace.requests p) ∧
    ∀ (t : State τ) (rest : List Environment),
      service.Recites t.service (traces.flatMap Trace.answers ++ rest) →
      ∃ t', y.perform t = (.ok a, t') ∧
        t'.requests = t.requests ++ traces.flatMap (Trace.requests p) ∧
        service.Recites t'.service rest

namespace Replayed

variable {p : Program} {service : Service τ} {s s' u : State σ} {a : α}

theorem pure : Replayed p service [] s s (pure a) a :=
  ⟨by simp, fun t _ hrest => ⟨t, rfl, by simp, hrest⟩⟩

theorem ofExcept {r : Except Cause α} (h : r = .ok a) :
    Replayed p service [] s s (Run.ofExcept r) a := by
  subst h
  exact pure

theorem bind {before after : List Trace} {y : Run τ α} {g : α → Run τ β} {b : β}
    (hy : Replayed p service before s u y a) (hg : Replayed p service after u s' (g a) b) :
    Replayed p service (before ++ after) s s' (y >>= g) b := by
  obtain ⟨hasked, hreplay⟩ := hy
  obtain ⟨hasked', hreplay'⟩ := hg
  refine ⟨by rw [hasked', hasked, List.flatMap_append, List.append_assoc], ?_⟩
  intro t rest hrest
  rw [List.flatMap_append, List.append_assoc] at hrest
  obtain ⟨t', hfirst, hrequests, hrest'⟩ := hreplay t _ hrest
  obtain ⟨t'', hsecond, hrequests', hrest''⟩ := hreplay' t' rest hrest'
  refine ⟨t'', bind_eq_ok.mpr ⟨a, t', hfirst, hsecond⟩, ?_, hrest''⟩
  rw [hrequests', hrequests, List.flatMap_append, List.append_assoc]

theorem map {traces : List Trace} {y : Run τ α} (f : α → β) (hy : Replayed p service traces s s' y a) :
    Replayed p service traces s s' (y >>= fun a => Pure.pure (f a)) (f a) := by
  rw [← List.append_nil traces]
  exact hy.bind pure

theorem node {node : Trace} {y : Run τ α} (hrequest : Trace.request? p node = none)
    (hanswer : Trace.answer? node = none) (hy : Replayed p service node.children s s' y a) :
    Replayed p service [node] s s' y a := by
  have hrequests : Trace.requests p node = node.children.flatMap (Trace.requests p) := by
    rw [Trace.requests, Trace.filterMap_walk, hrequest]
    rfl
  have hanswers : Trace.answers node = node.children.flatMap Trace.answers := by
    rw [Trace.answers, Trace.filterMap_walk, hanswer]
    rfl
  rw [Replayed, List.flatMap_singleton, List.flatMap_singleton, hrequests, hanswers]
  exact hy

end Replayed

def onService (engine : Engine σ) (service : Service τ) : Engine τ :=
  ⟨engine.program, some service, engine.workers⟩

/-- What one executor did the other repeats. -/
def Repeats (p : Program) (service : Service τ) (execute : Executor σ) (execute' : Executor τ) : Prop :=
  ∀ {name given s s' outputs trace}, (execute name given).perform s = (.ok (outputs, trace), s') →
    Replayed p service [trace] s s' (execute' name given) (outputs, trace)

variable {p : Program} {service : Service τ} {execute : Executor σ} {execute' : Executor τ}
  {given : Value} {s s' : State σ}

theorem runSteps_replayed (hexec : Repeats p service execute execute') {steps : List String}
    {final : Environment} {subs : List Trace}
    (h : (runSteps execute steps given).perform s = (.ok (final, subs), s')) :
    Replayed p service subs s s' (runSteps execute' steps given) (final, subs) := by
  induction steps generalizing given s final subs with
  | nil =>
    obtain ⟨env, henv, rfl, hresult⟩ := runSteps_nil_eq_ok.mp h
    cases hresult
    exact (Replayed.ofExcept henv).map _
  | cons step steps ih =>
    obtain ⟨outputs, sub, u, final', subs', hstep, hsteps, hresult⟩ := runSteps_cons_eq_ok.mp h
    cases hresult
    exact (hexec hstep).bind ((ih hsteps).map _)

theorem runEach_replayed (hexec : Repeats p service execute execute') {branches : List String}
    {results : List (Environment × Trace)}
    (h : (runEach execute given branches).perform s = (.ok results, s')) :
    Replayed p service (results.map (·.2)) s s' (runEach execute' given branches) results := by
  induction branches generalizing s results with
  | nil =>
    obtain ⟨rfl, rfl⟩ := runEach_nil_eq_ok.mp h
    exact .pure
  | cons branch branches ih =>
    obtain ⟨first, u, others, hfirst, hothers, rfl⟩ := runEach_cons_eq_ok.mp h
    exact (hexec hfirst).bind ((ih hothers).map _)

theorem generate_replayed {engine : Engine σ} {name text : String} {dev : Value}
    {tags : Mapping String Value} {generated : Environment} (service : Service τ) (given : Value)
    (initial : Environment) (htags : Trace.requested p name = tags)
    (h : (generate engine name ⟨dev, text, tags⟩).perform s = (.ok generated, s')) :
    Replayed p service [.prompt ⟨name, given, Mapping.merge initial generated⟩ dev text] s s'
      (generate (engine.onService service) name ⟨dev, text, tags⟩) (Mapping.merge initial generated) := by
  have hrequests : [Trace.prompt ⟨name, given, Mapping.merge initial generated⟩ dev text].flatMap
      (Trace.requests p) = [⟨dev, text, tags⟩] := by
    rw [← htags]
    rfl
  rw [Replayed, hrequests]
  constructor
  · cases hasked : engine.service with
    | none => simp [perform_generate_none hasked] at h
    | some original =>
      rw [perform_generate_some hasked, Prod.mk.injEq] at h
      rw [← h.2]
  · intro t rest hrest
    obtain ⟨hanswer, hrest'⟩ := hrest ⟨dev, text, tags⟩
    rw [perform_generate_some rfl, hanswer]
    exact ⟨_, rfl, rfl, hrest'⟩

theorem runBody_replayed [CharNames] {engine : Engine σ} (hparallel : engine.isParallel = false)
    (hexec : Repeats p service execute execute') {name : String} {r : Routine} (hfound : p.find? (.str name) = some r)
    {outputs : Environment} {trace : Trace}
    (h : (runBody engine execute name r given).perform s = (.ok (outputs, trace), s')) :
    Replayed p service [trace] s s' (runBody (engine.onService service) execute' name r given)
      (outputs, trace) := by
  have htags : ∀ dev user tags, r.body = .prompt dev user tags → Trace.requested p name = tags := by
    intro dev user tags hbody
    obtain ⟨doc, names, body⟩ := r
    cases hbody
    simp only [Trace.requested, hfound]
  have hparallel' : (engine.onService service).isParallel = false := hparallel
  cases hbody : r.body with
  | prompt dev user tags =>
    simp only [runBody, hbody] at h ⊢
    obtain ⟨initial, u, hstart, h⟩ := bind_eq_ok.mp h
    obtain ⟨hinitial, rfl⟩ := ofExcept_eq_ok.mp hstart
    obtain ⟨text, generated, htext, hgenerated, hresult⟩ := runPrompt_eq_ok.mp h
    cases hresult
    apply (Replayed.ofExcept hinitial).bind
    apply (Replayed.ofExcept htext).bind
    have hasked := generate_replayed service given initial (htags dev user tags hbody) hgenerated
    have hreplayed := hasked.map fun answer => (Mapping.merge initial answer,
      Trace.prompt ⟨name, given, Mapping.merge initial answer⟩ dev text)
    -- the answer that is given back holds already what the routine passes on
    rw [Mapping.merge_merge (distinct_initialOutputs hinitial)] at hreplayed
    exact hreplayed
  | code code =>
    simp only [runBody, hbody] at h ⊢
    obtain ⟨initial, u, hstart, h⟩ := bind_eq_ok.mp h
    obtain ⟨hinitial, rfl⟩ := ofExcept_eq_ok.mp hstart
    apply (Replayed.ofExcept hinitial).bind
    obtain ⟨u, hcode, -, hrequests⟩ := perform_runCode name initial code given s
    rw [hcode] at h
    cases h
    refine .node rfl rfl ⟨by rw [hrequests]; exact (List.append_nil _).symm, fun t rest hrest => ?_⟩
    obtain ⟨t', hcode', hservice', hrequests'⟩ := perform_runCode name initial code given t
    refine ⟨t', hcode', by rw [hrequests']; exact (List.append_nil _).symm, ?_⟩
    rw [hservice']
    exact hrest
  | define specs =>
    simp only [runBody, hbody] at h ⊢
    obtain ⟨initial, u, hstart, h⟩ := bind_eq_ok.mp h
    obtain ⟨hinitial, rfl⟩ := ofExcept_eq_ok.mp hstart
    obtain ⟨env, henv, rfl, hresult⟩ := runDefine_eq_ok.mp h
    cases hresult
    apply (Replayed.ofExcept hinitial).bind
    exact .node rfl rfl ((Replayed.ofExcept henv).map _)
  | branch condition whenTrue whenFalse =>
    simp only [runBody, hbody] at h ⊢
    obtain ⟨initial, u, hstart, h⟩ := bind_eq_ok.mp h
    obtain ⟨hinitial, rfl⟩ := ofExcept_eq_ok.mp hstart
    obtain ⟨taken, outputs', sub, htaken, hempty, hsub, hresult⟩ := runBranch_eq_ok.mp h
    cases hresult
    apply (Replayed.ofExcept hinitial).bind
    apply (Replayed.ofExcept htaken).bind
    simp only [hempty, Bool.false_eq_true, ↓reduceIte]
    exact .node rfl rfl ((hexec hsub).map _)
  | compose steps =>
    simp only [runBody, hbody] at h ⊢
    obtain ⟨⟨final, subs⟩, u, hsteps, hresult⟩ := bind_eq_ok.mp h
    cases hresult
    exact .node rfl rfl ((runSteps_replayed hexec hsteps).map _)
  | join branches =>
    simp only [runBody, hbody, hparallel, hparallel', runBranches, Bool.false_and, Bool.false_eq_true,
      ↓reduceIte] at h ⊢
    obtain ⟨results, u, hbranches, hresult⟩ := bind_eq_ok.mp h
    cases hresult
    exact .node rfl rfl ((runEach_replayed hexec hbranches).map _)
  | unknown kind raw => simp [runBody, hbody] at h

theorem execute_repeats [CharNames] (engine : Engine σ) (service : Service τ) (hparallel : engine.isParallel = false)
    (limit : Nat) :
    Repeats engine.program service (engine.execute limit) ((engine.onService service).execute limit) := by
  induction limit with
  | zero =>
    intro name given s s' outputs trace h
    cases h
  | succ limit ih =>
    intro name given s s' outputs trace h
    obtain ⟨n, r, t, keys, rfl, hfound, hbody, hkeys, rfl⟩ := execute_eq_ok.mp h
    obtain ⟨hasked, hreplay⟩ := runBody_replayed hparallel ih hfound hbody
    refine ⟨hasked, fun u rest hrest => ?_⟩
    obtain ⟨u', hbody', hafter⟩ := hreplay (u.log (.routineBegin n r.body.kind)) rest hrest
    exact ⟨_, execute_eq_ok.mpr ⟨n, r, u', keys, rfl, hfound, hbody', hkeys, rfl⟩, hafter⟩

/-- A run asks what the prompts of its trace say, in the order in which they are walked. Run on a service that
gives the recorded answers, the program asks the same and comes to the same result. -/
theorem run_replays [CharNames] (engine : Engine σ) (hparallel : engine.isParallel = false) (limit : Nat)
    (env : Environment) (result : Result) (s s' : State σ)
    (h : (runWithin engine limit env).perform s = (.ok result, s')) :
    s'.requests = s.requests ++ result.trace.requests engine.program ∧
      ∀ {τ : Type} (service : Service τ) (start : State τ),
        service.Recites start.service result.trace.answers →
        ∃ final, (runWithin (engine.onService service) limit env).perform start = (.ok result, final) ∧
          final.requests = start.requests ++ result.trace.requests engine.program := by
  obtain ⟨t, keys, hrun, hinputs, hkeys, rfl⟩ := runWithin_eq_ok.mp h
  obtain ⟨hmain, hsorted, hexec⟩ := runMain_eq_ok.mp hrun
  constructor
  · obtain ⟨hasked, -⟩ := execute_repeats engine Service.scripted hparallel limit hexec
    rw [List.flatMap_singleton] at hasked
    exact hasked
  · intro τ service start hrecites
    obtain ⟨-, hreplay⟩ := execute_repeats engine service hparallel limit hexec
    have hrecites' : service.Recites (start.log (.runStart engine.program.main)).service
        ([result.trace].flatMap Trace.answers ++ []) := by
      rw [List.flatMap_singleton, List.append_nil]
      exact hrecites
    obtain ⟨t', hexec', hrequests, -⟩ := hreplay _ [] hrecites'
    rw [List.flatMap_singleton] at hrequests
    have hrun' : (runMain (engine.onService service) limit env).perform start =
        (.ok (result.outputs, result.trace), t') := runMain_eq_ok.mpr ⟨hmain, hsorted, hexec'⟩
    exact ⟨_, runWithin_eq_ok.mpr ⟨t', keys, hrun', hinputs, hkeys, rfl⟩, hrequests⟩

theorem sample_replays :
    (runWithin sampleEngine 4 sampleInputs).perform sampleStart =
        (.ok ⟨sampleInputs, sampleOutputs, sampleTrace⟩, sampleEnd) ∧
      ∃ final, (runWithin sampleEngine 4 sampleInputs).perform
          ⟨[.give (.map (sampleLine "High.")), .give (.map (sampleLine "Low."))], [], ⟨false, []⟩⟩ =
          (.ok ⟨sampleInputs, sampleOutputs, sampleTrace⟩, final) ∧
        final.requests = [sampleRequest, sampleRequest] := by
  have h : (runWithin sampleEngine 4 sampleInputs).perform sampleStart =
      (.ok ⟨sampleInputs, sampleOutputs, sampleTrace⟩, sampleEnd) := by cbv
  obtain ⟨-, hreplay⟩ := run_replays sampleEngine rfl 4 sampleInputs _ _ _ h
  exact ⟨h, hreplay Service.scripted _ (Service.scripted_recites [sampleLine "High.", sampleLine "Low."])⟩

end Engine

end RoutineFlow
