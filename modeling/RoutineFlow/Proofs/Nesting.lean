import RoutineFlow.Proofs.Derivation
import RoutineFlow.Proofs.Failure
import RoutineFlow.Proofs.Limit
import RoutineFlow.Proofs.Outcomes

/-!
The executions that are under way at the same time, each within the one before it. A run ends at its limit
exactly when these come to be more than the limit: no routine makes anything else of it. Without references that
lead back, they are never more than there are names.
-/

namespace RoutineFlow.Engine

open Run

variable {σ : Type}

/-- An execution at its start. -/
structure Call (σ : Type) where
  name : Value
  env : Environment
  state : State σ

/-- The calls that an execution comes to make, each from the state that what was done before it left. -/
inductive Calls (engine : Engine σ) (execute : Executor σ) : Call σ → Call σ → Prop
  | branch {name : String} {r : Routine} {env : Environment} {s : State σ}
      {condition whenTrue whenFalse : Value} {taken : Bool}
      (found : engine.program.find? (.str name) = some r)
      (body : r.body = .branch condition whenTrue whenFalse)
      (chosen : holds condition (.map env) = .ok taken)
      (given : (if taken then whenTrue else whenFalse).isEmpty = false) :
      Calls engine execute ⟨.str name, env, s⟩
        ⟨if taken then whenTrue else whenFalse, env, s.log (.routineBegin name "if")⟩
  | step {name step : String} {r : Routine} {env env' : Environment} {s s' : State σ}
      {before after : List String} {subs : List Trace}
      (found : engine.program.find? (.str name) = some r)
      (body : r.body = .compose (before ++ step :: after))
      (reached : (runSteps execute before (.map env)).perform (s.log (.routineBegin name "compose")) =
        (.ok (env', subs), s')) :
      Calls engine execute ⟨.str name, env, s⟩ ⟨.str step, env', s'⟩
  | each {name branch : String} {r : Routine} {env : Environment} {s s' : State σ}
      {before after : List String} {results : List (Environment × Trace)}
      (found : engine.program.find? (.str name) = some r)
      (body : r.body = .join (before ++ branch :: after))
      (sequential : (engine.isParallel && decide (1 < (before ++ branch :: after).length)) = false)
      (reached : (runEach execute (.map env) before).perform (s.log (.routineBegin name "join")) =
        (.ok results, s')) :
      Calls engine execute ⟨.str name, env, s⟩ ⟨.str branch, env, s'⟩
  | all {name branch : String} {r : Routine} {env : Environment} {s s' : State σ}
      {before after : List String} {outcomes : List (Except RunError (Environment × Trace))}
      (found : engine.program.find? (.str name) = some r)
      (body : r.body = .join (before ++ branch :: after))
      (parallel : (engine.isParallel && decide (1 < (before ++ branch :: after).length)) = true)
      (reached : (runAll execute (.map env) before).perform (s.log (.routineBegin name "join")) =
        (.ok outcomes, s')) :
      Calls engine execute ⟨.str name, env, s⟩ ⟨.str branch, env, s'⟩

/-- Executions of which each calls the next, from the given one on, under a limit. The last may be one that the
limit does not let begin. -/
inductive Nested [CharNames] (engine : Engine σ) : Nat → Call σ → List (Call σ) → Prop
  | last (limit : Nat) (call : Call σ) : Nested engine limit call [call]
  | within {limit : Nat} {call inner : Call σ} {chain : List (Call σ)}
      (calls : Calls engine (engine.execute limit) call inner) (nested : Nested engine limit inner chain) :
      Nested engine (limit + 1) call (call :: chain)

/-- The executions that an execution comes to, each called by the one before it, and the limits they run under. -/
inductive Reaches [CharNames] (engine : Engine σ) (top : Nat) (outer : Call σ) : Nat → Call σ → Prop
  | start : Reaches engine top outer top outer
  | within {limit : Nat} {call inner : Call σ} (reached : Reaches engine top outer (limit + 1) call)
      (calls : Calls engine (engine.execute limit) call inner) : Reaches engine top outer limit inner

variable {engine : Engine σ} {execute : Executor σ} {call inner : Call σ} {limit : Nat}

theorem Calls.refers (h : Calls engine execute call inner) : engine.program.Refers call.name inner.name := by
  cases h with
  | @branch _ r _ _ _ _ _ taken found body chosen given =>
    refine ⟨r, found, ?_⟩
    rw [body]
    exact Body.taken_mem_references given
  | step found body reached => exact Program.refers_of_listed found (.inl body) (by simp)
  | each found body sequential reached => exact Program.refers_of_listed found (.inr body) (by simp)
  | all found body parallel reached => exact Program.refers_of_listed found (.inr body) (by simp)

theorem Nested.exists_chain [CharNames] {chain : List (Call σ)} (h : Nested engine limit call chain) :
    ∃ rest, chain = call :: rest ∧ (call.name :: rest.map Call.name).IsChain engine.program.Refers := by
  induction h with
  | last limit call => exact ⟨[], rfl, .singleton _⟩
  | within calls nested ih =>
    obtain ⟨rest, rfl, hrest⟩ := ih
    exact ⟨_, rfl, .cons_cons calls.refers hrest⟩

section Errors

variable {name : String} {env : Environment} {e : RunError} {s s' : State σ}

theorem ofExcept_initialOutputs (names : List String) (env : Environment) :
    ofExcept (initialOutputs names (.map env)) = (pure (passthrough names env) : Run σ Environment) := rfl

/-- An error of a body is one of its own or that of a call, with which everything stopped. -/
theorem runBody_eq_error [CharNames] (hsequential : engine.isParallel = false) {r : Routine}
    (hfound : engine.program.find? (.str name) = some r)
    (h : (runBody engine execute name r (.map env)).perform (s.log (.routineBegin name r.body.kind)) =
      (.error e, s')) :
    Breaks name r.body (s.log (.routineBegin name r.body.kind)) e s' ∨
      ∃ inner, Calls engine execute ⟨.str name, env, s⟩ inner ∧
        (execute inner.name (.map inner.env)).perform inner.state = (.error e, s') := by
  cases hbody : r.body with
  | prompt dev user tags =>
    simp only [runBody, hbody, ofExcept_initialOutputs, pure_bind] at h
    exact .inl (runPrompt_breaks h)
  | code code =>
    simp only [runBody, hbody, ofExcept_initialOutputs, pure_bind] at h
    exact absurd h runCode_ne_error
  | define specs =>
    simp only [runBody, hbody, ofExcept_initialOutputs, pure_bind] at h
    exact .inl (runDefine_breaks h)
  | branch condition whenTrue whenFalse =>
    simp only [runBody, hbody, ofExcept_initialOutputs, pure_bind] at h
    obtain hbreaks | ⟨taken, hholds, hempty, hexec⟩ := runBranch_eq_error h
    · exact .inl hbreaks
    · exact .inr ⟨_, .branch hfound hbody hholds hempty, hexec⟩
  | compose steps =>
    simp only [runBody, hbody] at h
    obtain hsteps | ⟨_, _, -, hpure⟩ := bind_eq_error.mp h
    · obtain ⟨before, step, after, env', subs, t, rfl, hbefore, hstep⟩ := runSteps_eq_error.mp hsteps
      exact .inr ⟨_, .step hfound hbody hbefore, hstep⟩
    · cases hpure
  | join branches =>
    simp only [runBody, hbody] at h
    obtain hbranches | ⟨_, _, -, hpure⟩ := bind_eq_error.mp h
    · rw [runBranches_sequential (by simp [hsequential])] at hbranches
      obtain ⟨before, branch, after, results, t, rfl, hbefore, hbranch⟩ := runEach_eq_error.mp hbranches
      exact .inr ⟨_, .each hfound hbody (by simp [hsequential]) hbefore, hbranch⟩
    · cases hpure
  | unknown kind raw =>
    simp only [runBody, hbody, perform_fail] at h
    cases h
    exact .inl (.atOnce id)

/-- No routine handles the error of a routine that it called: it is left by the same error, which it logs. -/
theorem Calls.execute_error [CharNames] (hsequential : engine.isParallel = false)
    (h : Calls engine (engine.execute limit) call inner)
    (herror : (engine.execute limit inner.name (.map inner.env)).perform inner.state = (.error e, s')) :
    ∃ n r, call.name = .str n ∧ engine.program.find? (.str n) = some r ∧
      (engine.execute (limit + 1) call.name (.map call.env)).perform call.state =
        (.error e, s'.log (.routineError n r.body.kind e.name e.message)) := by
  have hcall : ∀ {n : String} {r : Routine} {env : Environment} {s : State σ},
      engine.program.find? (.str n) = some r → (∀ kind raw, r.body ≠ .unknown kind raw) →
      (runBody engine (engine.execute limit) n r (.map env)).perform (s.log (.routineBegin n r.body.kind)) =
        (.error e, s') →
      ∃ n' r', Value.str n = .str n' ∧ engine.program.find? (.str n') = some r' ∧
        (engine.execute (limit + 1) (.str n) (.map env)).perform s =
          (.error e, s'.log (.routineError n' r'.body.kind e.name e.message)) := by
    intro n r env s hfound hknown hbody
    refine ⟨n, r, rfl, hfound, ?_⟩
    rw [execute_known hfound hknown]
    exact bracket_eq_error.mpr (.inl ⟨s', hbody, rfl⟩)
  cases h with
  | @branch _ r _ _ _ _ _ taken found body chosen given =>
    refine hcall found (by simp [body]) ?_
    simp only [runBody, body, ofExcept_initialOutputs, pure_bind]
    refine ofExcept_bind_eq_error.mpr (.inr ⟨taken, chosen, ?_⟩)
    simp only [given, Bool.false_eq_true, ↓reduceIte]
    exact bind_eq_error.mpr (.inl herror)
  | step found body reached =>
    refine hcall found (by simp [body]) ?_
    simp only [runBody, body]
    refine bind_eq_error.mpr (.inl (runSteps_eq_error.mpr ?_))
    exact ⟨_, _, _, _, _, _, rfl, reached, herror⟩
  | each found body sequential reached =>
    refine hcall found (by simp [body]) ?_
    simp only [runBody, body]
    refine bind_eq_error.mpr (.inl ?_)
    rw [runBranches_sequential (by simp [hsequential])]
    exact runEach_eq_error.mpr ⟨_, _, _, _, _, rfl, reached, herror⟩
  | all found body parallel reached =>
    rw [hsequential] at parallel
    cases parallel

/-- An execution ends at its limit exactly when more executions nest than the limit lets. -/
theorem execute_exhausted [CharNames] (hsequential : engine.isParallel = false) (limit : Nat) (call : Call σ) :
    (∃ t, (engine.execute limit call.name (.map call.env)).perform call.state = (.error .exhausted, t)) ↔
      ∃ chain, Nested engine limit call chain ∧ limit < chain.length := by
  constructor
  · intro h
    induction limit generalizing call with
    | zero => exact ⟨[call], .last 0 call, Nat.zero_lt_one⟩
    | succ limit ih =>
      obtain ⟨t, h⟩ := h
      obtain ⟨hother, -⟩ | ⟨n, r, hname, hfound, hbracket⟩ := execute_eq_error h
      · exact absurd trivial hother
      obtain ⟨t', hbody, -⟩ | ⟨_, _, _, -, -, hfailed⟩ := bracket_eq_error.mp hbracket
      · obtain hbreaks | ⟨inner, hcalls, hinner⟩ := runBody_eq_error hsequential hfound hbody
        · exact absurd trivial hbreaks.not_atLimit
        · obtain ⟨chain, hnested, hlength⟩ := ih inner ⟨t', hinner⟩
          rw [← hname] at hcalls
          exact ⟨call :: chain, .within hcalls hnested, Nat.succ_lt_succ hlength⟩
      · cases hfailed
  · rintro ⟨chain, hnested, hlength⟩
    induction hnested with
    | last limit call =>
      obtain rfl := Nat.lt_one_iff.mp hlength
      exact ⟨call.state, rfl⟩
    | within calls nested ih =>
      obtain ⟨t, hinner⟩ := ih (Nat.lt_of_succ_lt_succ hlength)
      obtain ⟨n, r, -, -, hexec⟩ := calls.execute_error hsequential hinner
      exact ⟨_, hexec⟩

end Errors

/-- The execution of the main routine of a run. -/
def mainCall (engine : Engine σ) (env : Environment) (s : State σ) : Call σ :=
  ⟨engine.program.main, env, s.log (.runStart engine.program.main)⟩

/-- Executions that nest in a run, from that of its main routine on. -/
def NestedRun [CharNames] (engine : Engine σ) (limit : Nat) (env : Environment) (s : State σ)
    (chain : List (Call σ)) : Prop :=
  Starts engine env ∧ Nested engine limit (mainCall engine env s) chain

/-- What ends an execution at its limit is a path of references as long as the limit. -/
theorem exists_path_of_gives [CharNames] {name given : Value} {e : RunError} (he : e.AtLimit)
    (h : (engine.course limit name given).Gives (.error e)) :
    e = .exhausted ∧ ∃ names, names.length = limit ∧ (name :: names).IsChain engine.program.Refers := by
  induction limit generalizing name given with
  | zero =>
    cases h
    exact ⟨rfl, [], rfl, .singleton _⟩
  | succ limit ih =>
    obtain ⟨e', heq, hown⟩ | ⟨r, hfound, harises⟩ := arises_course h
    · cases heq
      exact absurd he hown
    · cases harises with
      | own hown => exact absurd he hown
      | @called target _ _ hreferred hgives =>
        obtain ⟨rfl, names, rfl, hnames⟩ := ih hgives
        exact ⟨rfl, target :: names, rfl, .cons_cons ⟨r, hfound, hreferred⟩ hnames⟩

theorem run_tooDeep [CharNames] (hsequential : engine.isParallel = false) (env : Environment) (s : State σ) :
    (∃ main, ((runWithin engine limit env).perform s).1 = .error (.tooDeep main)) ↔
      ∃ chain, NestedRun engine limit env s chain ∧ limit < chain.length := by
  constructor
  · rintro ⟨main, h⟩
    obtain ⟨t, hmain, -⟩ := runWithin_eq_error.mp (Prod.ext h rfl)
    obtain ⟨hown, -⟩ | ⟨hstarts, e, hexec, he⟩ := runMain_eq_error hmain
    · exact absurd trivial hown
    · have hlimit : e.AtLimit := by
        cases e <;> trivial
      have hgives := gives_execute engine limit engine.program.main (.map env)
        (s.log (.runStart engine.program.main))
      rw [hexec] at hgives
      obtain ⟨rfl, -⟩ := exists_path_of_gives hlimit hgives
      obtain ⟨chain, hnested, hlength⟩ :=
        (execute_exhausted hsequential limit (mainCall engine env s)).mp ⟨t, hexec⟩
      exact ⟨chain, ⟨hstarts, hnested⟩, hlength⟩
  · rintro ⟨chain, ⟨hstarts, hnested⟩, hlength⟩
    obtain ⟨t, hexec⟩ :=
      (execute_exhausted hsequential limit (mainCall engine env s)).mpr ⟨chain, hnested, hlength⟩
    exact ⟨_, congrArg Prod.fst (runWithin_of_execute hstarts hexec)⟩

/-- A run that does not end at its limit is the same under any higher limit. One that does has asked what is asked
first under any higher limit, and some of its executions nest deeper than the limit. -/
theorem limits_agree [CharNames] (engine : Engine σ) (hsequential : engine.isParallel = false) (limit limit' : Nat)
    (hlimits : limit ≤ limit') (env : Environment) (s : State σ) :
    let low := (runWithin engine limit env).perform s
    let high := (runWithin engine limit' env).perform s
    ((∀ main, low.1 ≠ .error (.tooDeep main)) → high = low) ∧
      (∃ asked later, low.2.requests = s.requests ++ asked ∧ high.2.requests = s.requests ++ asked ++ later) ∧
      ((∃ main, low.1 = .error (.tooDeep main)) ↔
        ∃ chain, NestedRun engine limit env s chain ∧ limit < chain.length) := by
  have hextends := extends_runWithin hsequential hlimits env
  refine ⟨fun hlow => hextends.same s (hlow _), ?_, run_tooDeep hsequential env s⟩
  obtain ⟨asked, hasked⟩ := hextends.asks s
  obtain ⟨later, hlater⟩ := hextends.before s
  exact ⟨asked, later, hasked.symm, by rw [hasked, hlater]⟩

def sampleChain : List (Call (List Service.Step)) :=
  [⟨.str "main", sampleInputs, sampleStart⟩,
    ⟨.str "choose", sampleLine "High.", ⟨[.give (.record [("line", .str "Low.")])], [sampleRequest], ⟨false, []⟩⟩⟩,
    ⟨.str "both", sampleLine "High.", ⟨[.give (.record [("line", .str "Low.")])], [sampleRequest], ⟨false, []⟩⟩⟩]

theorem sample_limits :
    NestedRun sampleEngine 2 sampleInputs sampleStart sampleChain ∧
      (∃ main, ((runWithin sampleEngine 2 sampleInputs).perform sampleStart).1 = .error (.tooDeep main)) ∧
      ∃ asked later, ((runWithin sampleEngine 2 sampleInputs).perform sampleStart).2.requests = asked ∧
        ((runWithin sampleEngine 4 sampleInputs).perform sampleStart).2.requests = asked ++ later := by
  have hchain : NestedRun sampleEngine 2 sampleInputs sampleStart sampleChain := by
    refine ⟨⟨rfl, rfl, [.text "topic"], by cbv⟩, ?_⟩
    have hreached : (runSteps (sampleEngine.execute 1) ["ask"] (.map sampleInputs)).perform
        ((sampleStart.log (.runStart (.str "main"))).log (.routineBegin "main" "compose")) =
        (.ok (sampleLine "High.", [sampleAsk sampleInputs "High."]),
          ⟨[.give (.record [("line", .str "Low.")])], [sampleRequest], ⟨false, []⟩⟩) := by cbv
    have hsteps : Body.compose ["ask", "choose"] = .compose (["ask"] ++ "choose" :: []) := rfl
    have hchosen : holds (.str "line") (.map (sampleLine "High.")) = .ok true := by cbv
    exact .within (.step rfl hsteps hreached) (.within (.branch rfl rfl hchosen rfl) (.last 0 _))
  obtain ⟨-, ⟨asked, later, hasked, hlater⟩, hdeep⟩ :=
    limits_agree sampleEngine rfl 2 4 (by decide) sampleInputs sampleStart
  exact ⟨hchain, hdeep.mpr ⟨_, hchain, by decide⟩, asked, later, hasked, hlater⟩

section Acyclic

variable {env : Environment} (hacyclic : engine.program.Acyclic)

include hacyclic

theorem length_of_nestedRun [CharNames] {s : State σ} {chain : List (Call σ)} (h : NestedRun engine limit env s chain) :
    chain.length ≤ engine.program.reachable.ncard := by
  obtain ⟨rest, rfl, hpath⟩ := h.2.exists_chain
  have hlength := hacyclic.length_le_ncard hpath
  rw [List.length_cons, List.length_map] at hlength
  exact hlength

theorem not_atLimit_of_gives [CharNames] {e : RunError} (hlimit : engine.program.reachable.ncard ≤ limit)
    (h : (engine.runCourse limit env).Gives (.error e)) : ¬e.AtLimit := by
  intro he
  obtain ⟨e', heq, hown⟩ | ⟨first, hfirst, heq⟩ := gives_runCourse h
  · cases heq
    exact hown he
  · rcases first with e' | result
    · cases heq
      have he' : e'.AtLimit := by
        cases e' <;> trivial
      obtain ⟨-, names, hnames, hpath⟩ := exists_path_of_gives he' hfirst
      have hlength := hacyclic.length_le_ncard hpath
      rw [List.length_cons, hnames] at hlength
      omega
    · cases heq

end Acyclic

/-- Without references that lead back, executions nest no deeper than there are names. A limit as high as that is
never met: a run, and every schedule of it, ends by a result or by another error. -/
theorem acyclic_run [CharNames] (engine : Engine σ) (hacyclic : engine.program.Acyclic) (limit : Nat)
    (env : Environment) :
    (∀ (s : State σ) (chain : List (Call σ)), NestedRun engine limit env s chain →
        chain.length ≤ engine.program.reachable.ncard) ∧
      (engine.program.reachable.ncard ≤ limit →
        (∀ s : State σ, (∃ result, ((runWithin engine limit env).perform s).1 = .ok result) ∨
          ∃ e, ((runWithin engine limit env).perform s).1 = .error e ∧ ¬e.AtLimit) ∧
        ∀ (service : Service σ) (s s' : σ) (asked : List Request) (outcome : Outcome),
          Course.Steps service (engine.runCourse limit env) s asked (.done outcome) s' →
            (∃ result, outcome = .ok result) ∨ ∃ e, outcome = .error e ∧ ¬e.AtLimit) := by
  refine ⟨fun s chain => length_of_nestedRun hacyclic, fun hlimit => ?_⟩
  have houtcome : ∀ outcome, (engine.runCourse limit env).Gives outcome →
      (∃ result, outcome = .ok result) ∨ ∃ e, outcome = .error e ∧ ¬e.AtLimit := by
    rintro (e | result) hgives
    · exact .inr ⟨e, rfl, not_atLimit_of_gives hacyclic hlimit hgives⟩
    · exact .inl ⟨result, rfl⟩
  refine ⟨?_, ?_⟩
  · intro s
    obtain ⟨outcome, hgives, hresult⟩ := gives_run engine limit env s
    rw [hresult]
    obtain ⟨result, rfl⟩ | ⟨e, rfl, he⟩ := houtcome outcome hgives
    · exact .inl ⟨_, rfl⟩
    · exact .inr ⟨e, rfl, he⟩
  · intro service s s' asked outcome hsteps
    exact houtcome outcome hsteps.gives

def sampleRank : Value → ℕ
  | .str "main" => 3
  | .str "choose" => 2
  | .str "both" => 1
  | _ => 0

theorem sample_acyclic_run :
    sample.Acyclic ∧ sample.reachable.ncard ≤ 7 ∧ ∀ s : State (List Service.Step),
      (∃ result, ((runWithin sampleEngine 7 sampleInputs).perform s).1 = .ok result) ∨
        ∃ e, ((runWithin sampleEngine 7 sampleInputs).perform s).1 = .error e ∧ ¬e.AtLimit := by
  have hacyclic : sample.Acyclic := Program.acyclic_of_rank sampleRank (by decide)
  have hnames : sample.reachable.ncard ≤ 7 := sample.ncard_reachable_le
  exact ⟨hacyclic, hnames, ((acyclic_run sampleEngine hacyclic 7 sampleInputs).2 hnames).1⟩

end RoutineFlow.Engine
