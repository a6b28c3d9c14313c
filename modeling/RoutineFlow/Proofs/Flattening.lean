import RoutineFlow.Proofs.Bracketing
import RoutineFlow.Proofs.Likeness
import RoutineFlow.Proofs.Mapping

/-!
Steps that call for further steps, and branches that call for further branches, can be written out in place: the runs of
both programs are the same to the service and give the same outputs. Routines may refer to themselves, so the two programs
nest their executions to different depths.
-/

namespace RoutineFlow

/-- One entry of a list is the name of a routine with a list of the same kind, and is replaced by the entries of that
list. -/
inductive Body.Splices (p : Program) (step : String) : Body → Body → Prop
  | compose {before inner after : List String} {r : Routine} (hfound : p.find? (.str step) = some r)
      (hbody : r.body = .compose inner) :
      Splices p step (.compose (before ++ step :: after)) (.compose (before ++ inner ++ after))
  | join {before inner after : List String} {r : Routine} (hfound : p.find? (.str step) = some r)
      (hbody : r.body = .join inner) :
      Splices p step (.join (before ++ step :: after)) (.join (before ++ inner ++ after))

section Splices

variable {p : Program} {step : String} {body body' : Body}

theorem Body.Splices.known (h : Body.Splices p step body body') (kind : String) (raw : Environment) :
    body ≠ .unknown kind raw := by
  cases h <;> nofun

theorem Body.Splices.known_spliced (h : Body.Splices p step body body') (kind : String) (raw : Environment) :
    body' ≠ .unknown kind raw := by
  cases h <;> nofun

end Splices

namespace Program

def replace (p : Program) (name : String) (r : Routine) : Program :=
  { p with routines := Mapping.insert p.routines name r }

theorem find?_replace_self (p : Program) (name : String) (r : Routine) :
    (p.replace name r).find? (.str name) = some r := by
  simp [find?, replace, Mapping.get?_insert]

theorem find?_replace_of_ne (p : Program) {name : String} (r : Routine) {other : Value} (h : other ≠ .str name) :
    (p.replace name r).find? other = p.find? other := by
  cases other with
  | str s =>
    have hne : s ≠ name := fun hs => h (congrArg Value.str hs)
    simp [find?, replace, Mapping.get?_insert, hne]
  | _ => rfl

theorem isNone_find?_replace {p : Program} {name : String} {r : Routine} (h : p.find? (.str name) = some r)
    (r' : Routine) (other : Value) : ((p.replace name r').find? other).isNone = (p.find? other).isNone := by
  by_cases hother : other = .str name
  · rw [hother, find?_replace_self, h]
    rfl
  · rw [find?_replace_of_ne p r' hother]

end Program

namespace Engine

open Run

variable {σ : Type} {E F : RunError → Prop}

theorem mergeOnto_append (start : Environment) (results results' : List (Environment × Trace)) :
    mergeOnto start (results ++ results') = mergeOnto (mergeOnto start results) results' :=
  List.foldl_append

theorem distinct_mergeOnto {start : Environment} (h : Mapping.Distinct start) (results : List (Environment × Trace)) :
    Mapping.Distinct (mergeOnto start results) := by
  induction results generalizing start with
  | nil => exact h
  | cons result results ih => exact ih (Mapping.distinct_merge h result.1)

theorem merge_mergeOnto {start merged : Environment} (hstart : Mapping.Distinct start) (hmerged : Mapping.Distinct merged)
    (results : List (Environment × Trace)) :
    Mapping.merge start (mergeOnto merged results) = mergeOnto (Mapping.merge start merged) results := by
  induction results generalizing merged with
  | nil => rfl
  | cons result results ih =>
    have hassoc := Mapping.merge_assoc hstart hmerged result.1
    have hcons := ih (Mapping.distinct_merge hmerged result.1)
    rw [hassoc] at hcons
    exact hcons

theorem merge_mergeOnto_nil {start : Environment} (h : Mapping.Distinct start) (results : List (Environment × Trace)) :
    Mapping.merge start (mergeOnto [] results) = mergeOnto start results := by
  have hnil : Mapping.Distinct ([] : Environment) := List.Pairwise.nil
  exact merge_mergeOnto h hnil results

/-- A routine on one side only: it is excused where it cannot report its outputs. -/
theorem alike_bracket_left {β : Type} {R : Environment × Trace → β → Prop} {work : Run σ (Environment × Trace)}
    {y : Run σ β} {name kind : String} {s : State σ} (h : Alike E F R (s.log (.routineBegin name kind)) work y)
    (hleft : ∀ s' outputs trace b cause, work.perform (s.log (.routineBegin name kind)) = (.ok (outputs, trace), s') →
      R (outputs, trace) b → outputs.sortedKeys = .error cause → E (.failed cause)) :
    Alike E F R s (bracket name kind work) y := by
  intro t hlevel
  have hends := h t (hlevel.log_left _)
  rcases hwork : work.perform (s.log (.routineBegin name kind)) with ⟨e | ⟨outputs, trace⟩, s'⟩ <;>
      rw [hwork] at hends <;> generalize y.perform t = right at hends ⊢
  · rw [bracket_eq_error.mpr (.inl ⟨s', hwork, rfl⟩)]
    cases hends with
    | error _ hlevel' => exact .error e (hlevel'.log_left _)
    | left he _ _ => exact .left he _ _
    | right he _ _ => exact .right he _ _
  · cases hkeys : outputs.sortedKeys with
    | error cause =>
      rw [bracket_eq_error.mpr (.inr ⟨outputs, trace, cause, hwork, hkeys, rfl⟩)]
      cases hends with
      | ok hR _ => exact .left (hleft _ _ _ _ _ hwork hR hkeys) _ _
      | right he _ _ => exact .right he _ _
    | ok keys =>
      rw [bracket_eq_ok.mpr ⟨s', keys, hwork, hkeys, rfl⟩]
      cases hends with
      | ok hR hlevel' => exact .ok hR (hlevel'.log_left _)
      | right he _ _ => exact .right he _ _

/-- The same call made by two executors, alike if what it is given can be reported. -/
def Alongside (E F : RunError → Prop) (execute execute' : Executor σ) (call : Call σ) : Prop :=
  call.env.Sortable →
    Alike E F Agree call.state (execute call.name (.map call.env)) (execute' call.name (.map call.env))

section Splicing

variable {engine : Engine σ} {execute execute' : Executor σ} {env : Environment} {s : State σ}
  {before inner after : List String} {step : String}

theorem alongside_runSteps {steps : List String}
    (h : ∀ call, StepCall execute steps env s call → Alongside E F execute execute' call) (hsortable : env.Sortable) :
    Alike E F Agree s (runSteps execute steps (.map env)) (runSteps execute' steps (.map env)) := by
  apply alike_runSteps (A := fun env env' => env = env' ∧ env.Sortable) (fun _ h => ⟨rfl, h⟩) _ ⟨rfl, hsortable⟩
  · exact fun _ => ⟨rfl, hsortable⟩
  · rintro call hcall _ ⟨rfl, hsortable⟩
    exact h call hcall hsortable

theorem alongside_runEach {branches : List String}
    (h : ∀ call, EachCall execute branches env s call → Alongside E F execute execute' call)
    (hsortable : env.Sortable) :
    Alike E F (List.Forall₂ Agree) s (runEach execute (.map env) branches) (runEach execute' (.map env) branches) := by
  apply alike_runEach
  intro call hcall
  have halike := h call hcall
  rw [Alongside, hcall.env_eq] at halike
  rw [hcall.env_eq]
  exact halike hsortable

theorem alike_spliced_steps (inner : List String)
    (hcalls : ∀ call, StepCall execute (before ++ step :: after) env s call → Alongside E F execute execute' call)
    (hstep : ∀ env' s', StepCall execute (before ++ step :: after) env s ⟨.str step, env', s'⟩ → env'.Sortable →
      Alike E F Agree s' (execute (.str step) (.map env')) (runSteps execute' inner (.map env')))
    (hsortable : env.Sortable) :
    Alike E F Agree s (runSteps execute (before ++ step :: after) (.map env))
      (runSteps execute' (before ++ inner ++ after) (.map env)) := by
  rw [List.append_assoc, runSteps_append, runSteps_append]
  apply (alongside_runSteps (fun call h => hcalls call (h.append_left _)) hsortable).bind
  rintro ⟨first, traces⟩ ⟨first', traces'⟩ t hbefore ⟨hsame : first = first', hsortable : first.Sortable⟩
  subst hsame
  have hrest : Alike E F Agree t (runSteps execute (step :: after) (.map first))
      (runSteps execute' (inner ++ after) (.map first)) := by
    rw [runSteps_append]
    apply (hstep first t (.after hbefore (.head ..)) hsortable).bind
    rintro ⟨second, trace⟩ ⟨second', traces'⟩ t' hperform ⟨hsame : second = second', hsortable : second.Sortable⟩
    subst hsame
    have hafter := alongside_runSteps (fun call h => hcalls call (.after hbefore (.tail hperform h))) hsortable
    exact hafter.bind fun _ _ _ _ h => .pure h
  exact hrest.bind fun _ _ _ _ h => .pure h

def MergeAlike (results results' : List (Environment × Trace)) : Prop :=
  ∀ start, Mapping.Distinct start → mergeOnto start results = mergeOnto start results'

theorem alike_spliced_branches (inner : List String)
    (hcalls : ∀ call, EachCall execute (before ++ step :: after) env s call → Alongside E F execute execute' call)
    (hstep : ∀ s', EachCall execute (before ++ step :: after) env s ⟨.str step, env, s'⟩ →
      Alike E F (fun result results => MergeAlike [result] results) s' (execute (.str step) (.map env))
        (runEach execute' (.map env) inner)) (hsortable : env.Sortable) :
    Alike E F MergeAlike s (runEach execute (.map env) (before ++ step :: after))
      (runEach execute' (.map env) (before ++ inner ++ after)) := by
  rw [List.append_assoc, runEach_append, runEach_append]
  apply (alongside_runEach (fun call h => hcalls call (h.append_left _)) hsortable).bind
  intro first first' t hbefore hfirst
  have hrest : Alike E F MergeAlike t (runEach execute (.map env) (step :: after))
      (runEach execute' (.map env) (inner ++ after)) := by
    rw [runEach_append]
    apply (hstep t (.after hbefore (.head ..))).bind
    intro result results t' hperform hresult
    apply (alongside_runEach (fun call h => hcalls call (.after hbefore (.tail hperform h))) hsortable).bind
    intro last last' _ _ hlast
    refine .pure fun start hstart => ?_
    calc mergeOnto start (result :: last)
      _ = mergeOnto (mergeOnto start [result]) last := rfl
      _ = mergeOnto (mergeOnto start results) last' := by rw [hresult start hstart, mergeOnto_congr hlast]
      _ = mergeOnto start (results ++ last') := (mergeOnto_append _ _ _).symm
  apply hrest.bind
  intro rest rest' _ _ hrest
  refine .pure fun start hstart => ?_
  rw [mergeOnto_append, mergeOnto_append, mergeOnto_congr hfirst, hrest _ (distinct_mergeOnto hstart first')]

variable {r : Routine} {top limit : Nat} {outer : Call σ}

theorem alike_step [CharNames] (hE : E .exhausted) (hfound : engine.program.find? (.str step) = some r)
    (hbody : r.body = .compose inner) (hreached : Reaches engine top outer limit ⟨.str step, env, s⟩)
    (hcalls : ∀ lower < limit, ∀ call, Reaches engine top outer lower call →
      Alongside E F (engine.execute lower) execute' call) (hsortable : env.Sortable) :
    Alike E F Agree s (engine.execute limit (.str step) (.map env)) (runSteps execute' inner (.map env)) := by
  cases limit with
  | zero => exact .fail_left hE _
  | succ limit =>
    rw [execute_known hfound (by simp [hbody])]
    apply alike_bracket_left
    · rw [← bind_pure (runSteps execute' inner (.map env))]
      simp only [runBody, hbody]
      have hsteps : Alike E F Agree (s.log (.routineBegin step "compose"))
          (runSteps (engine.execute limit) inner (.map env)) (runSteps execute' inner (.map env)) := by
        apply alongside_runSteps _ hsortable
        intro call hcall
        exact hcalls limit limit.lt_succ_self call (hreached.within (hcall.calls hfound hbody))
      exact hsteps.bind fun _ _ _ _ h => .pure h
    -- what the last step leaves was reported at its own end
    · rintro s' outputs trace b cause - ⟨-, keys, hkeys⟩ hcause
      rw [hcause] at hkeys
      cases hkeys

theorem alike_branch [CharNames] (hsequential : engine.isParallel = false) (hE : E .exhausted)
    (hopen : ∀ e, LeftOpen engine top outer ⟨step, "join"⟩ e → E e)
    (hfound : engine.program.find? (.str step) = some r) (hbody : r.body = .join inner)
    (hreached : Reaches engine top outer limit ⟨.str step, env, s⟩)
    (hcalls : ∀ lower < limit, ∀ call, Reaches engine top outer lower call →
      Alongside E F (engine.execute lower) execute' call) (hsortable : env.Sortable) :
    Alike E F (fun result results => MergeAlike [result] results) s (engine.execute limit (.str step) (.map env))
      (runEach execute' (.map env) inner) := by
  cases limit with
  | zero => exact .fail_left hE _
  | succ limit =>
    have hkind : r.body.kind = "join" := by rw [hbody]; rfl
    rw [execute_known hfound (by simp [hbody]), hkind]
    apply alike_bracket_left
    · rw [← bind_pure (runEach execute' (.map env) inner)]
      simp only [runBody, hbody, hsequential, runBranches, Bool.false_and, Bool.false_eq_true, ↓reduceIte]
      have hbranches : Alike E F (List.Forall₂ Agree) (s.log (.routineBegin step "join"))
          (runEach (engine.execute limit) (.map env) inner) (runEach execute' (.map env) inner) := by
        apply alongside_runEach _ hsortable
        intro call hcall
        exact hcalls limit limit.lt_succ_self call (hreached.within (hcall.calls hsequential hfound hbody))
      apply hbranches.bind
      intro results results' _ _ hresults
      refine .pure fun start hstart => ?_
      exact (merge_mergeOnto_nil hstart results).trans (mergeOnto_congr hresults start)
    · intro s' outputs trace b cause hwork _ hcause
      exact hopen _ ⟨limit, env, s, r, outputs, trace, s', hreached, hfound, hkind, hwork,
        unreported_of_sortedKeys hcause⟩

end Splicing

def withBody (engine : Engine σ) (name : String) (r : Routine) (body : Body) : Engine σ :=
  { engine with program := engine.program.replace name { r with body := body } }

theorem atLimit_mainError (main : Value) {e : RunError} (h : e.AtLimit) : (mainError main e).AtLimit := by
  cases e <;> trivial

section Programs

variable {engine : Engine σ} {step name : String} {r : Routine} {body : Body} {top : Nat} {outer : Call σ}

theorem alike_spliced_body [CharNames] (hsequential : engine.isParallel = false) (hE : E .exhausted)
    (hopen : r.body.kind = "join" → ∀ e, LeftOpen engine top outer ⟨step, "join"⟩ e → E e)
    (hfound : engine.program.find? (.str name) = some r) (hsplices : r.body.Splices engine.program step body)
    {limit limit' : Nat} {env : Environment} {s : State σ}
    (hreached : Reaches engine top outer (limit + 1) ⟨.str name, env, s⟩)
    (hcalls : ∀ lower ≤ limit, ∀ call, Reaches engine top outer lower call →
      Alongside E F (engine.execute lower) ((engine.withBody name r body).execute limit') call)
    (hsortable : env.Sortable) :
    Alike E F SameOutputs (s.log (.routineBegin name r.body.kind))
      (runBody engine (engine.execute limit) name r (.map env))
      (runBody (engine.withBody name r body) ((engine.withBody name r body).execute limit') name { r with body := body }
        (.map env)) := by
  have hsequential' : (engine.withBody name r body).isParallel = false := hsequential
  have hlower := fun lower (hlt : lower < limit) => hcalls lower hlt.le
  obtain ⟨doc, passthrough, old⟩ := r
  cases hsplices with
  | @compose before inner after target hstep hinner =>
    have hreaches : ∀ call, StepCall (engine.execute limit) (before ++ step :: after) env
        (s.log (.routineBegin name "compose")) call → Reaches engine top outer limit call :=
      fun call hcall => hreached.within (hcall.calls hfound rfl)
    have hsteps := alike_spliced_steps inner
      (fun call hcall => hcalls limit le_rfl call (hreaches call hcall))
      (fun env' s' hcall => alike_step hE hstep hinner (hreaches _ hcall) hlower) hsortable
    exact hsteps.bind fun _ _ _ _ h => .pure h.1
  | @join before inner after target hstep hinner =>
    simp only [runBody, hsequential, hsequential', runBranches, Bool.false_and, Bool.false_eq_true, ↓reduceIte]
    have hreaches : ∀ call, EachCall (engine.execute limit) (before ++ step :: after) env
        (s.log (.routineBegin name "join")) call → Reaches engine top outer limit call :=
      fun call hcall => hreached.within (hcall.calls hsequential hfound rfl)
    have hbranches := alike_spliced_branches inner
      (fun call hcall => hcalls limit le_rfl call (hreaches call hcall))
      (fun s' hcall => alike_branch hsequential hE (hopen rfl) hstep hinner (hreaches _ hcall) hlower hsortable)
      hsortable
    exact hbranches.bind fun _ _ _ _ h => .pure (h [] List.Pairwise.nil)

theorem alongside_withBody [CharNames] (hsequential : engine.isParallel = false) (hE : E .exhausted) (hF : F .exhausted)
    (hopen : r.body.kind = "join" → ∀ e, LeftOpen engine top outer ⟨step, "join"⟩ e → E e)
    (hfound : engine.program.find? (.str name) = some r) (hsplices : r.body.Splices engine.program step body)
    (limit limit' : Nat) {call : Call σ} (hreached : Reaches engine top outer limit call) :
    Alongside E F (engine.execute limit) ((engine.withBody name r body).execute limit') call := by
  -- written out, the entries are called one level up, so that the first limit may go down by two
  induction limit using Nat.strong_induction_on generalizing limit' call with
  | h limit ih =>
    intro hsortable
    cases limit with
    | zero => exact .fail_left hE _
    | succ limit =>
      cases limit' with
      | zero => exact .fail_right hF _
      | succ limit' =>
        obtain ⟨called, env, s⟩ := call
        have hcalls : ∀ lower ≤ limit, ∀ call, Reaches engine top outer lower call →
            Alongside E F (engine.execute lower) ((engine.withBody name r body).execute limit') call :=
          fun lower hle call hcall => ih lower (Nat.lt_succ_of_le hle) limit' hcall
        by_cases hcalled : called = .str name
        · subst hcalled
          have hfound' : (engine.withBody name r body).program.find? (.str name) = some { r with body := body } :=
            Program.find?_replace_self _ _ _
          have hbody := alike_spliced_body hsequential hE hopen hfound hsplices hreached hcalls hsortable
          rw [execute_known hfound hsplices.known, execute_known hfound' hsplices.known_spliced]
          exact alike_bracket hbody _
        · have hservice : engine.service = (engine.withBody name r body).service := rfl
          have hsequential' : (engine.withBody name r body).isParallel = false := hsequential
          have hfind : engine.program.find? called = (engine.withBody name r body).program.find? called :=
            (Program.find?_replace_of_ne _ _ hcalled).symm
          apply alike_execute (A := fun env env' => env = env' ∧ env.Sortable) hservice hsequential hsequential'
            (fun _ h => ⟨rfl, h⟩) hfind _ ⟨rfl, hsortable⟩
          · exact fun r _ => .refl r hsortable
          · rintro inner hinner _ ⟨rfl, hsortable⟩
            exact hcalls limit le_rfl inner (hreached.within hinner) hsortable

/-- A list within a list of the same kind can be written out in place: where neither program comes to its limit, the runs
make the same requests and end with the same outputs or the same error. Branches that are merged before others are also
reported on their own, so that a run may end there, if the keys of their outputs have no order. -/
theorem nested_list_written_out [CharNames] (engine : Engine σ) (hsequential : engine.isParallel = false)
    (hfound : engine.program.find? (.str name) = some r) (hsplices : r.body.Splices engine.program step body)
    (env : Environment) (limit limit' : Nat) (s : State σ)
    (hlimit : ∀ e, ((engine.runWithin limit env).perform s).1 = .error e → ¬e.AtLimit)
    (hlimit' : ∀ e, (((engine.withBody name r body).runWithin limit' env).perform s).1 = .error e → ¬e.AtLimit)
    (hreported : r.body.kind = "join" → ∀ e, ((engine.runWithin limit env).perform s).1 = .error e →
      ¬LeftOpenRun engine limit env s ⟨step, "join"⟩ e) :
    ((engine.runWithin limit env).perform s).1.map Result.outputs =
        (((engine.withBody name r body).runWithin limit' env).perform s).1.map Result.outputs ∧
      ((engine.runWithin limit env).perform s).2.requests =
        (((engine.withBody name r body).runWithin limit' env).perform s).2.requests ∧
      ((engine.runWithin limit env).perform s).2.service =
        (((engine.withBody name r body).runWithin limit' env).perform s).2.service := by
  let E : RunError → Prop := fun e =>
    e.AtLimit ∨ (r.body.kind = "join" ∧ LeftOpenRun engine limit env s ⟨step, "join"⟩ e)
  have hE : ∀ e, E e → E (mainError engine.program.main e) := by
    rintro e (hatLimit | ⟨hkind, hstarts, hopen⟩)
    · exact .inl (atLimit_mainError _ hatLimit)
    · rw [mainError_eq_self _ hopen.not_atLimit]
      exact .inr ⟨hkind, hstarts, hopen⟩
  have hF : ∀ e, RunError.AtLimit e → (mainError engine.program.main e).AtLimit := fun _ => atLimit_mainError _
  have hmain : engine.program.main = (engine.withBody name r body).program.main := rfl
  have hpresent : (engine.program.find? engine.program.main).isNone =
      ((engine.withBody name r body).program.find? engine.program.main).isNone :=
    (Program.isNone_find?_replace hfound _ _).symm
  have halike : Alike E RunError.AtLimit Result.Agree s (engine.runWithin limit env)
      ((engine.withBody name r body).runWithin limit' env) := by
    apply alike_runWithin hmain hpresent hE hF (.inr rfl)
    intro hstarts
    have hopen : r.body.kind = "join" → ∀ e, LeftOpen engine limit (mainCall engine env s) ⟨step, "join"⟩ e → E e :=
      fun hkind e he => .inr ⟨hkind, hstarts, he⟩
    exact alongside_withBody hsequential (.inl trivial) trivial hopen hfound hsplices limit limit' .start
      hstarts.inputs_sorted
  have hnotE : ∀ e, ((engine.runWithin limit env).perform s).1 = .error e → ¬E e := by
    rintro e he (hatLimit | ⟨hkind, hopen⟩)
    · exact hlimit e he hatLimit
    · exact hreported hkind e he hopen
  obtain ⟨houtputs, hlevel⟩ := (halike s (.refl s)).map_eq (fun _ _ h => h) hnotE hlimit'
  exact ⟨houtputs, hlevel.requests, hlevel.service⟩

end Programs

def roundsMain : Routine := ⟨.null, [], .join ["ask", "rest"]⟩

/-- A program that refers back to itself from a branch of a branch. -/
def rounds : Program where
  routines := [
    ("main", roundsMain),
    ("rest", ⟨.null, [], .join ["again", "ask"]⟩),
    ("again", ⟨.null, [], .branch (.str "more") (.str "back") (.str "end")⟩),
    ("back", ⟨.null, [], .compose ["end", "main"]⟩),
    ("end", ⟨.null, [], .define [("ended", .literal (.str "boolean") (some (.bool true)) false)]⟩),
    ("ask", ⟨.null, [], .prompt (.str "") (.str "More? ${more}") [("answer", .str "string")]⟩)]
  main := .str "main"
  doc := .null

def roundsEngine : Engine (List Service.Step) := ⟨rounds, some Service.scripted, 1⟩

def roundsWritten : Body := .join ["ask", "again", "ask"]

def roundsInputs : Environment := [("more", .bool true)]

def roundsStart : State (List Service.Step) :=
  ⟨[.give (.map [("answer", .str "yes")]), .give (.map [("reason", .str "rain")]), .give (.map [("answer", .str "no")])],
    [], ⟨true, []⟩⟩

def roundsOutputs : Environment := [("answer", .str "no"), ("reason", .str "rain"), ("ended", .bool true)]

theorem ne_error_of_outputs {result : Except RunError Result} {outputs : Environment}
    (h : result.map Result.outputs = .ok outputs) (e : RunError) : result ≠ .error e := by
  rintro rfl
  cases h

theorem rounds_written_out :
    ((roundsEngine.runWithin 8 roundsInputs).perform roundsStart).1.map Result.outputs =
        (((roundsEngine.withBody "main" roundsMain roundsWritten).runWithin 6 roundsInputs).perform roundsStart).1.map
          Result.outputs ∧
      ((roundsEngine.runWithin 8 roundsInputs).perform roundsStart).2.requests =
        (((roundsEngine.withBody "main" roundsMain roundsWritten).runWithin 6 roundsInputs).perform
          roundsStart).2.requests ∧
      ((roundsEngine.runWithin 8 roundsInputs).perform roundsStart).2.service =
        (((roundsEngine.withBody "main" roundsMain roundsWritten).runWithin 6 roundsInputs).perform
          roundsStart).2.service := by
  have hrun : ((roundsEngine.runWithin 8 roundsInputs).perform roundsStart).1.map Result.outputs =
      .ok roundsOutputs := by
    cbv
  have hwritten : (((roundsEngine.withBody "main" roundsMain roundsWritten).runWithin 6 roundsInputs).perform
      roundsStart).1.map Result.outputs = .ok roundsOutputs := by
    cbv
  have hfound : roundsEngine.program.find? (.str "main") = some roundsMain := rfl
  have hsplices : roundsMain.body.Splices roundsEngine.program "rest" roundsWritten :=
    @Body.Splices.join _ _ ["ask"] ["again", "ask"] [] _ rfl rfl
  exact nested_list_written_out roundsEngine rfl hfound hsplices roundsInputs 8 6 roundsStart
    (fun e he => absurd he (ne_error_of_outputs hrun e)) (fun e he => absurd he (ne_error_of_outputs hwritten e))
    fun _ e he => absurd he (ne_error_of_outputs hrun e)

def tangledMain : Routine := ⟨.null, [], .join ["mark", "inner"]⟩

def tangledInner : Routine := ⟨.null, [], .join ["keep", "add"]⟩

def tangled : Program where
  routines := [
    ("main", tangledMain),
    ("inner", tangledInner),
    ("mark", ⟨.null, [], .define [("0", .literal (.str "string") (some (.str "x")) false)]⟩),
    ("keep", ⟨.null, [], .compose []⟩),
    ("add", ⟨.null, [], .define [("1", .literal (.str "string") (some (.str "y")) false)]⟩)]
  main := .str "main"
  doc := .null

def tangledEngine : Engine Unit := ⟨tangled, none, 1⟩

def tangledWritten : Engine Unit := tangledEngine.withBody "main" tangledMain (.join ["mark", "keep", "add"])

def quietStart : State Unit := ⟨(), [], ⟨false, []⟩⟩

theorem tangled_left_open : ((tangledEngine.runWithin 3 numbered).perform quietStart).1 =
    .error (.failed (.unordered "<" .text .integer)) := by
  have hinner : ∃ trace, (runBody tangledEngine (tangledEngine.execute 1) "inner" tangledInner (.map numbered)).perform
      quietStart = (.ok (unordered, trace), quietStart) := by
    constructor
    cbv
  obtain ⟨trace, hinner⟩ := hinner
  have hexec : (tangledEngine.execute 2 (.str "inner") (.map numbered)).perform quietStart =
      (.error (.failed (.unordered "<" .text .integer)), quietStart) :=
    bracket_eq_error.mpr (.inr ⟨unordered, trace, _, hinner, sortedKeys_unordered, rfl⟩)
  have hbranches : (runEach (tangledEngine.execute 2) (.map numbered) ["mark", "inner"]).perform quietStart =
      (.error (.failed (.unordered "<" .text .integer)), quietStart) :=
    runEach_eq_error.mpr ⟨["mark"], "inner", [], _, quietStart, rfl, rfl, hexec⟩
  have hmain : (tangledEngine.execute 3 (.str "main") (.map numbered)).perform quietStart =
      (.error (.failed (.unordered "<" .text .integer)), quietStart) :=
    bracket_eq_error.mpr (.inl ⟨quietStart, bind_eq_error.mpr (.inl hbranches), rfl⟩)
  have hstarts : Starts tangledEngine numbered := ⟨rfl, rfl, [.num (.int 3)], by cbv⟩
  exact congrArg Prod.fst (runWithin_of_execute (s := quietStart) hstarts hmain)

def tangledOutputs : Environment := [(.text "0", .str "x"), (.num (.int 3), .str "x"), (.text "1", .str "y")]

theorem tangledWritten_left_open : ((tangledWritten.runWithin 2 numbered).perform quietStart).1 =
    .error (.failed (.unordered "<" .integer .text)) := by
  have hkeys : tangledOutputs.sortedKeys = .error (.unordered "<" .integer .text) := by cbv
  have hbody : ∃ trace, (runBody tangledWritten (tangledWritten.execute 1) "main"
      ⟨.null, [], .join ["mark", "keep", "add"]⟩ (.map numbered)).perform quietStart =
        (.ok (tangledOutputs, trace), quietStart) := by
    constructor
    cbv
  obtain ⟨trace, hbody⟩ := hbody
  have hmain : (tangledWritten.execute 2 (.str "main") (.map numbered)).perform quietStart =
      (.error (.failed (.unordered "<" .integer .text)), quietStart) :=
    bracket_eq_error.mpr (.inr ⟨tangledOutputs, trace, _, hbody, hkeys, rfl⟩)
  have hstarts : Starts tangledWritten numbered := ⟨rfl, rfl, [.num (.int 3)], by cbv⟩
  exact congrArg Prod.fst (runWithin_of_execute (s := quietStart) hstarts hmain)

/-- Neither run comes to its limit, yet they end with different errors. -/
theorem tangled_runs_differ :
    tangled.find? (.str "main") = some tangledMain ∧
      tangledMain.body.Splices tangled "inner" (.join ["mark", "keep", "add"]) ∧ tangledEngine.isParallel = false ∧
      ((tangledEngine.runWithin 3 numbered).perform quietStart).1 = .error (.failed (.unordered "<" .text .integer)) ∧
      ((tangledWritten.runWithin 2 numbered).perform quietStart).1 = .error (.failed (.unordered "<" .integer .text)) :=
  ⟨rfl, @Body.Splices.join _ _ ["mark"] ["keep", "add"] [] _ rfl rfl, rfl, tangled_left_open, tangledWritten_left_open⟩

end Engine

end RoutineFlow
