import RoutineFlow.Proofs.Run
import RoutineFlow.Run.Execute

/-!
What the parts of an execution give, and what they did when they came to a result. The equivalences take
a run apart from left to right and put one together from right to left.
-/

namespace RoutineFlow.Engine

open Run

variable {σ : Type}

def outputsOf (name : String) : Except ServiceFailure Value → Except RunError Environment
  | .error failure => .error (.service name failure.message)
  | .ok (.map outputs) => .ok outputs
  | .ok v => .error (.service name s!"Service returned {v.kind.name}, expected a mapping")

def codeOutputs [CharNames] (name : String) (initial : Environment) (code given : Value) : Environment :=
  match Expr.outputs name code given with
  | .ok computed => Mapping.merge initial computed
  | .error failure => Mapping.insert initial "error" (.str failure.message)

theorem outputsOf_eq_ok {name : String} {answer : Except ServiceFailure Value} {outputs : Environment} :
    outputsOf name answer = .ok outputs ↔ answer = .ok (.map outputs) := by
  rcases answer with failure | v
  · simp [outputsOf]
  · cases v <;> simp [outputsOf]

theorem outputsOf_eq_error {name : String} {answer : Except ServiceFailure Value} {e : RunError}
    (h : outputsOf name answer = .error e) : ∃ message, e = .service name message := by
  rcases answer with failure | v
  · cases h
    exact ⟨_, rfl⟩
  · cases v <;> cases h <;> exact ⟨_, rfl⟩

section Leaves

variable {engine : Engine σ} {name : String} {initial : Environment} {given : Value} {s s' : State σ}
  {result : Environment × Trace}

theorem perform_generate_none (h : engine.service = none) (r : Request) (s : State σ) :
    (generate engine name r).perform s =
      (.error (.service name "No generative service configured"), s) := by
  simp only [generate, h, perform_fail]

theorem perform_generate_some {service : Service σ} (h : engine.service = some service) (r : Request)
    (s : State σ) :
    (generate engine name r).perform s = (outputsOf name (service.answer s.service r).1,
      ⟨(service.answer s.service r).2, s.requests ++ [r],
        s.telemetry.log (.serviceCall name r.outputs)⟩) := by
  simp only [generate, h, perform_bind, perform_log, perform_request, State.log_service]
  rcases (service.answer s.service r).1 with failure | v
  · rfl
  · cases v <;> rfl

theorem perform_runCode [CharNames] (name : String) (initial : Environment) (code given : Value) (s : State σ) :
    ∃ t, (runCode name initial code given).perform s = (.ok (codeOutputs name initial code given,
        .code ⟨name, given, codeOutputs name initial code given⟩), t) ∧
      t.service = s.service ∧ t.requests = s.requests := by
  unfold runCode codeOutputs
  cases Expr.outputs name code given with
  | ok computed => exact ⟨s, rfl, rfl, rfl⟩
  | error failure =>
    simp only [perform_bind, perform_log, perform_pure]
    exact ⟨_, rfl, rfl, rfl⟩

theorem runPrompt_eq_ok {dev user : Value} {tags : Mapping String Value} :
    (runPrompt engine name initial dev user tags given).perform s = (.ok result, s') ↔
      ∃ text generated, messageText user given = .ok text ∧
        (generate engine name ⟨dev, text, tags⟩).perform s = (.ok generated, s') ∧
        result = (Mapping.merge initial generated,
          .prompt ⟨name, given, Mapping.merge initial generated⟩ dev text) := by
  simp only [runPrompt, bind_eq_ok, ofExcept_eq_ok, perform_pure, Prod.mk.injEq, Except.ok.injEq]
  constructor
  · rintro ⟨text, t, ⟨htext, rfl⟩, generated, t', hgen, rfl, rfl⟩
    exact ⟨text, generated, htext, hgen, rfl⟩
  · rintro ⟨text, generated, htext, hgen, rfl⟩
    exact ⟨text, s, ⟨htext, rfl⟩, generated, s', hgen, rfl, rfl⟩

theorem runDefine_eq_ok {specs : Mapping String OutputSpec} :
    (runDefine name initial specs given).perform s = (.ok result, s') ↔
      ∃ env, given.toVariables (references specs) = .ok env ∧ s' = s ∧
        result = (define initial specs env, .define ⟨name, given, define initial specs env⟩) := by
  simp only [runDefine, bind_eq_ok, ofExcept_eq_ok, perform_pure, Prod.mk.injEq, Except.ok.injEq]
  constructor
  · rintro ⟨env, t, ⟨henv, rfl⟩, rfl, rfl⟩
    exact ⟨env, henv, rfl, rfl⟩
  · rintro ⟨env, henv, rfl, rfl⟩
    exact ⟨env, s', ⟨henv, rfl⟩, rfl, rfl⟩

end Leaves

section Compounds

variable {execute : Executor σ} {given : Value} {s s' : State σ}

theorem runBranch_eq_ok {name : String} {initial : Environment} {condition whenTrue whenFalse : Value}
    {result : Environment × Trace} :
    (runBranch execute name initial condition whenTrue whenFalse given).perform s = (.ok result, s') ↔
      ∃ taken outputs sub, holds condition given = .ok taken ∧
        (if taken then whenTrue else whenFalse).isEmpty = false ∧
        (execute (if taken then whenTrue else whenFalse) given).perform s = (.ok (outputs, sub), s') ∧
        result = (Mapping.merge initial outputs,
          .branch ⟨name, given, Mapping.merge initial outputs⟩ taken sub) := by
  simp only [runBranch, bind_eq_ok, ofExcept_eq_ok]
  constructor
  · rintro ⟨taken, t, ⟨htaken, rfl⟩, h⟩
    cases hempty : (if taken then whenTrue else whenFalse).isEmpty with
    | true => simp [hempty] at h
    | false =>
      simp only [hempty, Bool.false_eq_true, ↓reduceIte, bind_eq_ok, perform_pure, Prod.mk.injEq,
        Except.ok.injEq] at h
      obtain ⟨⟨outputs, sub⟩, t, hexec, rfl, rfl⟩ := h
      exact ⟨taken, outputs, sub, htaken, hempty, hexec, rfl⟩
  · rintro ⟨taken, outputs, sub, htaken, hempty, hexec, rfl⟩
    refine ⟨taken, s, ⟨htaken, rfl⟩, ?_⟩
    simp only [hempty, Bool.false_eq_true, ↓reduceIte, bind_eq_ok, perform_pure, Prod.mk.injEq,
      Except.ok.injEq]
    exact ⟨(outputs, sub), s', hexec, ⟨rfl, rfl⟩, rfl⟩

theorem runSteps_nil_eq_ok {result : Environment × List Trace} :
    (runSteps execute [] given).perform s = (.ok result, s') ↔
      ∃ env, given.toMapping = .ok env ∧ s' = s ∧ result = (env, []) := by
  simp only [runSteps, bind_eq_ok, ofExcept_eq_ok, perform_pure, Prod.mk.injEq, Except.ok.injEq]
  constructor
  · rintro ⟨env, t, ⟨henv, rfl⟩, rfl, rfl⟩
    exact ⟨env, henv, rfl, rfl⟩
  · rintro ⟨env, henv, rfl, rfl⟩
    exact ⟨env, s', ⟨henv, rfl⟩, rfl, rfl⟩

theorem runSteps_cons_eq_ok {step : String} {rest : List String} {result : Environment × List Trace} :
    (runSteps execute (step :: rest) given).perform s = (.ok result, s') ↔
      ∃ outputs sub t final subs, (execute (.str step) given).perform s = (.ok (outputs, sub), t) ∧
        (runSteps execute rest (.map outputs)).perform t = (.ok (final, subs), s') ∧
        result = (final, sub :: subs) := by
  simp only [runSteps, bind_eq_ok, perform_pure, Prod.mk.injEq, Except.ok.injEq]
  constructor
  · rintro ⟨⟨outputs, sub⟩, t, hstep, ⟨final, subs⟩, t', hrest, rfl, rfl⟩
    exact ⟨outputs, sub, t, final, subs, hstep, hrest, rfl⟩
  · rintro ⟨outputs, sub, t, final, subs, hstep, hrest, rfl⟩
    exact ⟨(outputs, sub), t, hstep, (final, subs), s', hrest, rfl, rfl⟩

theorem runEach_nil_eq_ok {results : List (Environment × Trace)} :
    (runEach execute given []).perform s = (.ok results, s') ↔ results = [] ∧ s' = s := by
  simp only [runEach, perform_pure, Prod.mk.injEq, Except.ok.injEq]
  exact and_congr eq_comm eq_comm

theorem runEach_cons_eq_ok {branch : String} {rest : List String}
    {results : List (Environment × Trace)} :
    (runEach execute given (branch :: rest)).perform s = (.ok results, s') ↔
      ∃ first t others, (execute (.str branch) given).perform s = (.ok first, t) ∧
        (runEach execute given rest).perform t = (.ok others, s') ∧ results = first :: others := by
  simp only [runEach, bind_eq_ok, perform_pure, Prod.mk.injEq, Except.ok.injEq]
  constructor
  · rintro ⟨first, t, hfirst, others, t', hothers, rfl, rfl⟩
    exact ⟨first, t, others, hfirst, hothers, rfl⟩
  · rintro ⟨first, t, others, hfirst, hothers, rfl⟩
    exact ⟨first, t, hfirst, others, s', hothers, rfl, rfl⟩

theorem collect_error {α : Type} (e : RunError) (rest : List (Except RunError α)) :
    collect (.error e :: rest) = .error e := rfl

theorem collect_ok {α : Type} (first : α) (rest : List (Except RunError α)) :
    collect (.ok first :: rest) = (collect rest).map (first :: ·) := by
  cases h : collect rest <;> simp only [collect, h, bind, Except.bind, pure, Except.pure, Except.map]

theorem collect_cons_eq_ok {α : Type} {outcome : Except RunError α} {outcomes : List (Except RunError α)}
    {results : List α} :
    collect (outcome :: outcomes) = .ok results ↔
      ∃ first others, outcome = .ok first ∧ collect outcomes = .ok others ∧ results = first :: others := by
  rcases outcome with e | first
  · simp [collect_error]
  · rw [collect_ok]
    cases collect outcomes <;> simp [Except.map, eq_comm]

theorem eq_of_collect_eq_ok {α : Type} {outcomes : List (Except RunError α)} {results : List α}
    (h : collect outcomes = .ok results) : outcomes = results.map .ok := by
  induction outcomes generalizing results with
  | nil =>
    cases h
    rfl
  | cons outcome outcomes ih =>
    obtain ⟨first, others, rfl, hothers, rfl⟩ := collect_cons_eq_ok.mp h
    rw [ih hothers, List.map_cons]

theorem error_mem_of_collect_eq_error {α : Type} {outcomes : List (Except RunError α)} {e : RunError}
    (h : collect outcomes = .error e) : .error e ∈ outcomes := by
  induction outcomes with
  | nil => cases h
  | cons outcome outcomes ih =>
    rcases outcome with e' | first
    · cases h
      exact List.mem_cons_self
    · rw [collect_ok] at h
      cases hrest : collect outcomes with
      | error e' =>
        rw [hrest] at h
        cases h
        exact List.mem_cons_of_mem _ (ih hrest)
      | ok others =>
        rw [hrest] at h
        cases h

theorem runAll_cons (branch : String) (rest : List String) (s : State σ) :
    (runAll execute given (branch :: rest)).perform s =
      let first := (execute (.str branch) given).perform s
      let others := (runAll execute given rest).perform first.2
      (others.1.map (first.1 :: ·), others.2) := by
  simp only [runAll, perform_bind, perform_attempt]
  rcases (runAll execute given rest).perform ((execute (.str branch) given).perform s).2 with ⟨_ | _, t⟩ <;>
    rfl

theorem runAll_eq_ok {branches : List String} {outcomes : List (Except RunError (Environment × Trace))}
    (h : (runAll execute given branches).perform s = (.ok outcomes, s')) :
    List.Forall₂ (fun branch outcome => ∃ t t', (execute (.str branch) given).perform t = (outcome, t'))
      branches outcomes := by
  induction branches generalizing s outcomes with
  | nil =>
    cases h
    exact .nil
  | cons branch rest ih =>
    rw [runAll_cons] at h
    rcases hothers : (runAll execute given rest).perform
      ((execute (.str branch) given).perform s).2 with ⟨_ | others, t⟩
    · simp [hothers, Except.map] at h
    · simp only [hothers, Except.map, Prod.mk.injEq, Except.ok.injEq] at h
      obtain ⟨rfl, rfl⟩ := h
      exact .cons ⟨s, _, rfl⟩ (ih hothers)

theorem runEach_eq_ok {branches : List String} {results : List (Environment × Trace)}
    (h : (runEach execute given branches).perform s = (.ok results, s')) :
    List.Forall₂ (fun branch result => ∃ t t', (execute (.str branch) given).perform t = (.ok result, t'))
      branches results := by
  induction branches generalizing s results with
  | nil =>
    rw [(runEach_nil_eq_ok.mp h).1]
    exact .nil
  | cons branch rest ih =>
    obtain ⟨first, t, others, hfirst, hothers, rfl⟩ := runEach_cons_eq_ok.mp h
    exact .cons ⟨s, t, hfirst⟩ (ih hothers)

theorem runBranches_parallel {parallel : Bool} {branches : List String}
    (h : (parallel && decide (1 < branches.length)) = true) :
    runBranches execute parallel given branches =
      runAll execute given branches >>= fun outcomes => ofResult (collect outcomes) := by
  unfold runBranches
  rw [if_pos h]
  congr 1
  funext outcomes
  cases collect outcomes <;> rfl

theorem runBranches_sequential {parallel : Bool} {branches : List String}
    (h : ¬(parallel && decide (1 < branches.length)) = true) :
    runBranches execute parallel given branches = runEach execute given branches := by
  unfold runBranches
  rw [if_neg h]

theorem runBranches_eq_ok {parallel : Bool} {branches : List String}
    {results : List (Environment × Trace)}
    (h : (runBranches execute parallel given branches).perform s = (.ok results, s')) :
    List.Forall₂ (fun branch result => ∃ t t', (execute (.str branch) given).perform t = (.ok result, t'))
      branches results := by
  unfold runBranches at h
  split at h
  · obtain ⟨outcomes, t, hall, h⟩ := bind_eq_ok.mp h
    cases hcollect : collect outcomes with
    | error e =>
      rw [hcollect] at h
      cases h
    | ok results' =>
      rw [hcollect] at h
      cases h
      have hbranches := runAll_eq_ok hall
      rw [eq_of_collect_eq_ok hcollect, List.forall₂_map_right_iff] at hbranches
      exact hbranches
  · exact runEach_eq_ok h

end Compounds

section Routines

variable {engine : Engine σ} {execute : Executor σ} {name : String} {given : Value} {s s' : State σ}
  {outputs : Environment} {trace : Trace}

theorem bracket_eq_ok {kind : String} {work : Run σ (Environment × Trace)} :
    (bracket name kind work).perform s = (.ok (outputs, trace), s') ↔
      ∃ t keys, work.perform (s.log (.routineBegin name kind)) = (.ok (outputs, trace), t) ∧
        outputs.sortedKeys = .ok keys ∧ s' = t.log (.routineEnd name kind keys) := by
  simp only [bracket, bind_eq_ok, perform_log, onError_eq_ok, sortedKeys, ofExcept_eq_ok, perform_pure,
    Prod.mk.injEq, Except.ok.injEq]
  constructor
  · rintro ⟨-, t, ⟨-, rfl⟩, ⟨outputs', trace'⟩, t', hwork, keys, u, ⟨hkeys, rfl⟩, -, v, ⟨-, rfl⟩,
      ⟨rfl, rfl⟩, rfl⟩
    exact ⟨t', keys, hwork, hkeys, rfl⟩
  · rintro ⟨t, keys, hwork, hkeys, rfl⟩
    exact ⟨(), _, ⟨trivial, rfl⟩, (outputs, trace), t, hwork, keys, t, ⟨hkeys, rfl⟩, (), _,
      ⟨trivial, rfl⟩, ⟨rfl, rfl⟩, rfl⟩

theorem execute_known [CharNames] {limit : Nat} {r : Routine} (hfind : engine.program.find? (.str name) = some r)
    (hknown : ∀ kind raw, r.body ≠ .unknown kind raw) :
    engine.execute (limit + 1) (.str name) given =
      bracket name r.body.kind (runBody engine (engine.execute limit) name r given) := by
  simp only [Engine.execute, hfind]
  cases hbody : r.body with
  | unknown kind raw => exact absurd hbody (hknown kind raw)
  | _ => rfl

theorem execute_unknown [CharNames] {limit : Nat} {r : Routine} {kind : String} {raw : Environment}
    (hfind : engine.program.find? (.str name) = some r) (hbody : r.body = .unknown kind raw) :
    engine.execute (limit + 1) (.str name) given = fail (.unknownKind name kind) := by
  simp only [Engine.execute, hfind, hbody]
  rfl

theorem execute_missing [CharNames] {limit : Nat} {name : Value} (hfind : engine.program.find? name = none) :
    engine.execute (limit + 1) name given = fail (.routineNotFound name) := by
  simp only [Engine.execute, hfind]

theorem execute_eq_ok [CharNames] {limit : Nat} {name : Value} :
    (engine.execute (limit + 1) name given).perform s = (.ok (outputs, trace), s') ↔
      ∃ n r t keys, name = .str n ∧ engine.program.find? (.str n) = some r ∧
        (runBody engine (engine.execute limit) n r given).perform
          (s.log (.routineBegin n r.body.kind)) = (.ok (outputs, trace), t) ∧
        outputs.sortedKeys = .ok keys ∧ s' = t.log (.routineEnd n r.body.kind keys) := by
  cases name with
  | str n =>
    cases hfind : engine.program.find? (.str n) with
    | none => simp [execute_missing hfind, hfind]
    | some r =>
      cases hbody : r.body with
      | unknown kind raw =>
        rw [execute_unknown hfind hbody]
        simp [hfind, runBody, hbody]
      | _ =>
        rw [execute_known hfind (by simp [hbody]), bracket_eq_ok]
        simp [hfind]
  | _ => simp [Engine.execute, Program.find?]

def mainError (main : Value) : RunError → RunError
  | .exhausted => .tooDeep main
  | e => e

theorem perform_runMain [CharNames] (limit : Nat) (env : Environment) (s : State σ) :
    (runMain engine limit env).perform s =
      if engine.program.main.isEmpty then (.error .missingEntry, s)
      else if (engine.program.find? engine.program.main).isNone then
        (.error (.routineNotFound engine.program.main), s)
      else match env.sortedKeys with
        | .error cause => (.error (.failed cause), s)
        | .ok _ =>
          let (result, t) := (engine.execute limit engine.program.main (.map env)).perform
            (s.log (.runStart engine.program.main))
          (result.mapError (mainError engine.program.main), t) := by
  cases hmain : engine.program.main.isEmpty with
  | true => simp only [runMain, hmain, ↓reduceIte, perform_fail]
  | false =>
    cases hfound : (engine.program.find? engine.program.main).isNone with
    | true => simp only [runMain, hmain, hfound, Bool.false_eq_true, ↓reduceIte, perform_fail]
    | false =>
      simp only [runMain, hmain, hfound, Bool.false_eq_true, ↓reduceIte, perform_bind, sortedKeys,
        perform_ofExcept, perform_log, perform_attempt]
      rcases env.sortedKeys with cause | keys
      · rfl
      · simp only [Except.mapError]
        rcases (engine.execute limit engine.program.main (.map env)).perform
          (s.log (.runStart engine.program.main)) with ⟨e | result, t⟩
        · cases e <;> rfl
        · rfl

theorem runMain_eq [CharNames] (limit : Nat) (env : Environment) :
    runMain engine limit env =
      if engine.program.main.isEmpty then fail .missingEntry
      else if (engine.program.find? engine.program.main).isNone then
        fail (.routineNotFound engine.program.main)
      else sortedKeys env >>= fun _ => log (.runStart engine.program.main) >>= fun _ =>
        mapError (mainError engine.program.main)
          (engine.execute limit engine.program.main (.map env)) := by
  apply Run.ext
  intro s
  rw [perform_runMain]
  split
  · rfl
  · split
    · rfl
    · rw [perform_bind, sortedKeys, perform_ofExcept]
      cases env.sortedKeys with
      | error cause => rfl
      | ok keys => rfl

theorem find?_of_execute_eq_ok [CharNames] {limit : Nat} {name : Value}
    (h : (engine.execute limit name given).perform s = (.ok (outputs, trace), s')) :
    (engine.program.find? name).isNone = false := by
  cases limit with
  | zero => cases h
  | succ limit =>
    obtain ⟨n, r, t, keys, rfl, hfound, -⟩ := execute_eq_ok.mp h
    rw [hfound]
    rfl

theorem runMain_eq_ok [CharNames] {limit : Nat} {env : Environment} :
    (runMain engine limit env).perform s = (.ok (outputs, trace), s') ↔
      engine.program.main.isEmpty = false ∧ (∃ keys, env.sortedKeys = .ok keys) ∧
        (engine.execute limit engine.program.main (.map env)).perform
          (s.log (.runStart engine.program.main)) = (.ok (outputs, trace), s') := by
  rw [perform_runMain]
  constructor
  · intro h
    split at h
    · cases h
    · split at h
      · cases h
      · rename_i hmain hfound
        rcases hkeys : env.sortedKeys with cause | keys
        · rw [hkeys] at h
          cases h
        · simp only [hkeys] at h
          refine ⟨Bool.eq_false_iff.mpr hmain, ⟨keys, rfl⟩, ?_⟩
          rcases hexec : (engine.execute limit engine.program.main (.map env)).perform
            (s.log (.runStart engine.program.main)) with ⟨e | result, t⟩
          · rw [hexec] at h
            cases h
          · rw [hexec] at h
            exact h
  · rintro ⟨hmain, ⟨keys, hkeys⟩, hexec⟩
    simp only [hmain, find?_of_execute_eq_ok hexec, Bool.false_eq_true, ↓reduceIte, hkeys, hexec]
    rfl

theorem runWithin_eq_ok [CharNames] {limit : Nat} {env : Environment} {result : Result} :
    (runWithin engine limit env).perform s = (.ok result, s') ↔
      ∃ t keys, (runMain engine limit env).perform s = (.ok (result.outputs, result.trace), t) ∧
        result.inputs = env ∧ result.outputs.sortedKeys = .ok keys ∧
        s' = t.log (.runComplete engine.program.main keys) := by
  simp only [runWithin, bind_eq_ok, perform_log, onError_eq_ok, sortedKeys, ofExcept_eq_ok, perform_pure,
    Prod.mk.injEq, Except.ok.injEq]
  constructor
  · rintro ⟨⟨outputs, trace⟩, t, hmain, keys, u, ⟨hkeys, rfl⟩, -, v, ⟨-, rfl⟩, rfl, rfl⟩
    exact ⟨t, keys, hmain, rfl, hkeys, rfl⟩
  · rintro ⟨t, keys, hmain, rfl, hkeys, rfl⟩
    exact ⟨(result.outputs, result.trace), t, hmain, keys, t, ⟨hkeys, rfl⟩, (), _, ⟨trivial, rfl⟩, rfl, rfl⟩

end Routines

end RoutineFlow.Engine
