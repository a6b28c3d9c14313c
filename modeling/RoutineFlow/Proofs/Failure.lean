import RoutineFlow.Proofs.Execution

/-!
What the parts of an execution did when they came to an error: either it is an error of their own, and then
they asked the service at most, or it is that of one routine that they executed, behind others with results.
-/

namespace RoutineFlow

def Program.MainAbsent (p : Program) : Prop :=
  p.main.isEmpty = true ∨ (p.find? p.main).isNone = true

instance (p : Program) : Decidable p.MainAbsent :=
  inferInstanceAs (Decidable (_ ∨ _))

namespace Engine

open Run

variable {σ : Type}

/-- An error of a routine's own work; a prompt may have asked the service before. -/
inductive Breaks (name : String) : Body → State σ → RunError → State σ → Prop
  | atOnce {body : Body} {s : State σ} {e : RunError} (other : ¬e.AtLimit) : Breaks name body s e s
  | asked {dev user : Value} {tags : Mapping String Value} {s s' : State σ} {e : RunError}
      (other : ¬e.AtLimit) (logged : s'.telemetry = s.telemetry.log (.serviceCall name tags)) :
      Breaks name (.prompt dev user tags) s e s'

theorem Breaks.not_atLimit {name : String} {body : Body} {s s' : State σ} {e : RunError}
    (h : Breaks name body s e s') : ¬e.AtLimit := by
  cases h with
  | atOnce other => exact other
  | asked other => exact other

section Leaves

variable {engine : Engine σ} {name : String} {initial : Environment} {given : Value} {s s' : State σ}
  {e : RunError}

theorem runPrompt_breaks {dev user : Value} {tags : Mapping String Value}
    (h : (runPrompt engine name initial dev user tags given).perform s = (.error e, s')) :
    Breaks name (.prompt dev user tags) s e s' := by
  obtain ⟨cause, -, rfl, rfl⟩ | ⟨text, -, h⟩ := ofExcept_bind_eq_error.mp h
  · exact .atOnce nofun
  · obtain hgenerate | ⟨generated, t, -, hpure⟩ := bind_eq_error.mp h
    · cases hservice : engine.service with
      | none =>
        rw [perform_generate_none hservice] at hgenerate
        cases hgenerate
        exact .atOnce nofun
      | some service =>
        rw [perform_generate_some hservice, Prod.mk.injEq] at hgenerate
        obtain ⟨hanswer, rfl⟩ := hgenerate
        obtain ⟨message, rfl⟩ := outputsOf_eq_error hanswer
        exact .asked nofun rfl
    · cases hpure

theorem runDefine_breaks {specs : Mapping String OutputSpec} {body : Body}
    (h : (runDefine name initial specs given).perform s = (.error e, s')) : Breaks name body s e s' := by
  obtain ⟨cause, -, rfl, rfl⟩ | ⟨env, -, hpure⟩ := ofExcept_bind_eq_error.mp h
  · exact .atOnce nofun
  · cases hpure

theorem runCode_ne_error [CharNames] {code : Value} :
    (runCode name initial code given).perform s ≠ (.error e, s') := by
  obtain ⟨t, hcode, -⟩ := perform_runCode name initial code given s
  rw [hcode]
  nofun

end Leaves

section Compounds

variable {execute : Executor σ} {given : Value} {env : Environment} {e : RunError} {s s' : State σ}

theorem runBranch_eq_error {name : String} {initial : Environment} {condition whenTrue whenFalse : Value}
    {body : Body}
    (h : (runBranch execute name initial condition whenTrue whenFalse given).perform s = (.error e, s')) :
    Breaks name body s e s' ∨ ∃ taken, holds condition given = .ok taken ∧
      (if taken then whenTrue else whenFalse).isEmpty = false ∧
      (execute (if taken then whenTrue else whenFalse) given).perform s = (.error e, s') := by
  obtain ⟨cause, -, rfl, rfl⟩ | ⟨taken, htaken, h⟩ := ofExcept_bind_eq_error.mp h
  · exact .inl (.atOnce nofun)
  · cases hempty : (if taken then whenTrue else whenFalse).isEmpty with
    | true =>
      simp only [hempty, ↓reduceIte, perform_fail] at h
      cases h
      exact .inl (.atOnce nofun)
    | false =>
      simp only [hempty, Bool.false_eq_true, ↓reduceIte] at h
      obtain hexec | ⟨result, t, -, hpure⟩ := bind_eq_error.mp h
      · exact .inr ⟨taken, htaken, hempty, hexec⟩
      · cases hpure

theorem runSteps_append (before rest : List String) (env : Environment) :
    runSteps execute (before ++ rest) (.map env) = runSteps execute before (.map env) >>= fun first =>
      runSteps execute rest (.map first.1) >>= fun second => pure (second.1, first.2 ++ second.2) := by
  induction before generalizing env with
  | nil =>
    change _ = (pure (env, []) : Run σ (Environment × List Trace)) >>= _
    simp
  | cons step before ih => simp only [List.cons_append, runSteps, ih, bind_assoc, pure_bind]

theorem runSteps_eq_error {steps : List String} :
    (runSteps execute steps (.map env)).perform s = (.error e, s') ↔
      ∃ before step after env' subs t, steps = before ++ step :: after ∧
        (runSteps execute before (.map env)).perform s = (.ok (env', subs), t) ∧
        (execute (.str step) (.map env')).perform t = (.error e, s') := by
  constructor
  · intro h
    induction steps generalizing env s with
    | nil => cases h
    | cons step steps ih =>
      obtain hfirst | ⟨⟨outputs, sub⟩, t, hfirst, h⟩ := bind_eq_error.mp h
      · exact ⟨[], step, steps, env, [], s, rfl, rfl, hfirst⟩
      · obtain hrest | ⟨_, _, -, hpure⟩ := bind_eq_error.mp h
        · obtain ⟨before, step', after, env', subs, t', rfl, hbefore, hstep⟩ := ih hrest
          refine ⟨step :: before, step', after, env', sub :: subs, t', rfl, ?_, hstep⟩
          exact runSteps_cons_eq_ok.mpr ⟨outputs, sub, t, env', subs, hfirst, hbefore, rfl⟩
        · cases hpure
  · rintro ⟨before, step, after, env', subs, t, rfl, hbefore, hstep⟩
    have hrest : (runSteps execute (step :: after) (.map env')).perform t = (.error e, s') :=
      bind_eq_error.mpr (.inl hstep)
    rw [runSteps_append]
    exact bind_eq_error.mpr (.inr ⟨_, t, hbefore, bind_eq_error.mpr (.inl hrest)⟩)

theorem runEach_append (before rest : List String) :
    runEach execute given (before ++ rest) = runEach execute given before >>= fun first =>
      runEach execute given rest >>= fun second => pure (first ++ second) := by
  induction before with
  | nil => simp [runEach]
  | cons branch before ih => simp only [List.cons_append, runEach, ih, bind_assoc, pure_bind]

theorem runEach_eq_error {branches : List String} :
    (runEach execute given branches).perform s = (.error e, s') ↔
      ∃ before branch after results t, branches = before ++ branch :: after ∧
        (runEach execute given before).perform s = (.ok results, t) ∧
        (execute (.str branch) given).perform t = (.error e, s') := by
  constructor
  · intro h
    induction branches generalizing s with
    | nil => cases h
    | cons branch branches ih =>
      obtain hfirst | ⟨first, t, hfirst, h⟩ := bind_eq_error.mp h
      · exact ⟨[], branch, branches, [], s, rfl, rfl, hfirst⟩
      · obtain hrest | ⟨_, _, -, hpure⟩ := bind_eq_error.mp h
        · obtain ⟨before, branch', after, results, t', rfl, hbefore, hbranch⟩ := ih hrest
          refine ⟨branch :: before, branch', after, first :: results, t', rfl, ?_, hbranch⟩
          exact runEach_cons_eq_ok.mpr ⟨first, t, results, hfirst, hbefore, rfl⟩
        · cases hpure
  · rintro ⟨before, branch, after, results, t, rfl, hbefore, hbranch⟩
    have hrest : (runEach execute given (branch :: after)).perform t = (.error e, s') :=
      bind_eq_error.mpr (.inl hbranch)
    rw [runEach_append]
    exact bind_eq_error.mpr (.inr ⟨_, t, hbefore, bind_eq_error.mpr (.inl hrest)⟩)

end Compounds

section Routines

variable {engine : Engine σ} {name : String} {given : Value} {e : RunError} {s s' : State σ}

/-- A routine is left by an error of its work, which is logged, or for its outputs have no order. -/
theorem bracket_eq_error {kind : String} {work : Run σ (Environment × Trace)} :
    (bracket name kind work).perform s = (.error e, s') ↔
      (∃ t, work.perform (s.log (.routineBegin name kind)) = (.error e, t) ∧
        s' = t.log (.routineError name kind e.name e.message)) ∨
      ∃ outputs trace cause, work.perform (s.log (.routineBegin name kind)) = (.ok (outputs, trace), s') ∧
        outputs.sortedKeys = .error cause ∧ e = .failed cause := by
  constructor
  · intro h
    obtain hlog | ⟨_, _, hlog, h⟩ := bind_eq_error.mp h
    · cases hlog
    cases hlog
    obtain hwork | ⟨⟨outputs, trace⟩, t, hwork, h⟩ := bind_eq_error.mp h
    · exact .inl (onError_eq_error.mp hwork)
    · obtain ⟨cause, hcause, rfl, rfl⟩ | ⟨keys, -, h⟩ := ofExcept_bind_eq_error.mp h
      · exact .inr ⟨outputs, trace, cause, onError_eq_ok.mp hwork, hcause, rfl⟩
      · cases h
  · rintro (hwork | ⟨outputs, trace, cause, hwork, hcause, rfl⟩)
    · exact bind_eq_error.mpr (.inr ⟨(), _, rfl, bind_eq_error.mpr (.inl (onError_eq_error.mpr hwork))⟩)
    · refine bind_eq_error.mpr (.inr ⟨(), _, rfl, bind_eq_error.mpr (.inr ⟨_, _, onError_eq_ok.mpr hwork, ?_⟩)⟩)
      exact ofExcept_bind_eq_error.mpr (.inl ⟨cause, hcause, rfl, rfl⟩)

theorem execute_eq_error [CharNames] {limit : Nat} {name : Value}
    (h : (engine.execute (limit + 1) name given).perform s = (.error e, s')) :
    (¬e.AtLimit ∧ s' = s) ∨
      ∃ n r, name = .str n ∧ engine.program.find? (.str n) = some r ∧
        (bracket n r.body.kind (runBody engine (engine.execute limit) n r given)).perform s =
          (.error e, s') := by
  cases hfind : engine.program.find? name with
  | none =>
    rw [execute_missing hfind] at h
    cases h
    exact .inl ⟨nofun, rfl⟩
  | some r =>
    cases name with
    | str n =>
      cases hbody : r.body with
      | unknown kind raw =>
        rw [execute_unknown hfind hbody] at h
        cases h
        exact .inl ⟨nofun, rfl⟩
      | _ =>
        rw [execute_known hfind (by simp [hbody])] at h
        exact .inr ⟨n, r, rfl, hfind, by simpa only [hbody] using h⟩
    | _ => cases hfind

theorem sortedKeys_of_execute_eq_ok [CharNames] {limit : Nat} {name : Value} {outputs : Environment} {trace : Trace}
    (h : (engine.execute limit name given).perform s = (.ok (outputs, trace), s')) :
    ∃ keys, outputs.sortedKeys = .ok keys := by
  cases limit with
  | zero => cases h
  | succ limit =>
    obtain ⟨n, r, t, keys, -, -, -, hkeys, -⟩ := execute_eq_ok.mp h
    exact ⟨keys, hkeys⟩

/-- A run is started when its main routine is there and its inputs can be reported. -/
structure Starts (engine : Engine σ) (env : Environment) : Prop where
  main_given : engine.program.main.isEmpty = false
  main_found : (engine.program.find? engine.program.main).isSome
  inputs_sorted : ∃ keys, env.sortedKeys = .ok keys

theorem Starts.not_mainAbsent {env : Environment} (h : Starts engine env) : ¬engine.program.MainAbsent := by
  rintro (hempty | hnone)
  · rw [h.main_given] at hempty
    cases hempty
  · rw [Option.isNone_eq_false_iff.mpr h.main_found] at hnone
    cases hnone

theorem starts_of_present {env : Environment} {keys : List Key} (hpresent : ¬engine.program.MainAbsent)
    (hkeys : env.sortedKeys = .ok keys) : Starts engine env := by
  obtain ⟨hgiven, hfound⟩ := not_or.mp hpresent
  refine ⟨Bool.eq_false_iff.mpr hgiven, ?_, keys, hkeys⟩
  simpa [Option.isSome_iff_ne_none] using hfound

theorem perform_runMain_of_starts [CharNames] {env : Environment} (h : Starts engine env) (limit : Nat) (s : State σ) :
    (runMain engine limit env).perform s =
      (mapError (mainError engine.program.main) (engine.execute limit engine.program.main (.map env))).perform
        (s.log (.runStart engine.program.main)) := by
  obtain ⟨keys, hkeys⟩ := h.inputs_sorted
  rw [perform_runMain, h.main_given, Option.isNone_eq_false_iff.mpr h.main_found, hkeys]
  rfl

theorem runMain_eq_error [CharNames] {limit : Nat} {env : Environment}
    (h : (runMain engine limit env).perform s = (.error e, s')) :
    (¬e.AtLimit ∧ s' = s ∧
        (engine.program.MainAbsent ∨ ∃ cause, env.sortedKeys = .error cause ∧ e = .failed cause)) ∨
      Starts engine env ∧ ∃ e', (engine.execute limit engine.program.main (.map env)).perform
        (s.log (.runStart engine.program.main)) = (.error e', s') ∧ e = mainError engine.program.main e' := by
  by_cases hstarts : Starts engine env
  · rw [perform_runMain_of_starts hstarts, perform_mapError] at h
    rcases hexec : (engine.execute limit engine.program.main (.map env)).perform
      (s.log (.runStart engine.program.main)) with ⟨e' | result, t⟩
    · rw [hexec] at h
      cases h
      exact .inr ⟨hstarts, e', rfl, rfl⟩
    · rw [hexec] at h
      cases h
  · rw [perform_runMain] at h
    split at h
    · rename_i hempty
      cases h
      exact .inl ⟨nofun, rfl, .inl (.inl hempty)⟩
    · split at h
      · rename_i hnone
        cases h
        exact .inl ⟨nofun, rfl, .inl (.inr hnone)⟩
      · rename_i hgiven hfound
        rcases hkeys : env.sortedKeys with cause | keys
        · rw [hkeys] at h
          cases h
          exact .inl ⟨nofun, rfl, .inr ⟨cause, rfl, rfl⟩⟩
        · have hsome := Option.isSome_iff_ne_none.mpr (by simpa using hfound)
          exact absurd ⟨Bool.eq_false_iff.mpr hgiven, hsome, keys, hkeys⟩ hstarts

theorem runWithin_eq_error [CharNames] {limit : Nat} {env : Environment} :
    (runWithin engine limit env).perform s = (.error e, s') ↔
      ∃ t, (runMain engine limit env).perform s = (.error e, t) ∧
        s' = t.log (.runError engine.program.main e.name e.message) := by
  constructor
  · intro h
    obtain hmain | ⟨⟨outputs, trace⟩, t, hmain, h⟩ := bind_eq_error.mp h
    · exact onError_eq_error.mp hmain
    · obtain ⟨cause, hcause, -, -⟩ | ⟨keys, -, h⟩ := ofExcept_bind_eq_error.mp h
      -- the outputs were reported before, at the end of the main routine
      · obtain ⟨-, -, hexec⟩ := runMain_eq_ok.mp (onError_eq_ok.mp hmain)
        obtain ⟨keys, hkeys⟩ := sortedKeys_of_execute_eq_ok hexec
        rw [hcause] at hkeys
        cases hkeys
      · cases h
  · intro h
    exact bind_eq_error.mpr (.inl (onError_eq_error.mpr h))

/-- A run that started fails as its main routine does. -/
theorem runWithin_of_execute [CharNames] {limit : Nat} {env : Environment} (hstarts : Starts engine env)
    (h : (engine.execute limit engine.program.main (.map env)).perform (s.log (.runStart engine.program.main)) =
      (.error e, s')) :
    (runWithin engine limit env).perform s = (.error (mainError engine.program.main e),
      s'.log (.runError engine.program.main (mainError engine.program.main e).name
        (mainError engine.program.main e).message)) := by
  refine runWithin_eq_error.mpr ⟨s', ?_, rfl⟩
  rw [perform_runMain_of_starts hstarts, perform_mapError, h]
  rfl

end Routines

end Engine

end RoutineFlow
