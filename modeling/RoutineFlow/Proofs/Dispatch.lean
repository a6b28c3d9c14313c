import RoutineFlow.Proofs.Execution

/-!
A program is closed when the names that its routines refer to are those of its routines. Its runs then end
with errors of the work that routines do, never with errors of finding what to do.
-/

namespace RoutineFlow

variable {σ : Type}

/-- A routine of a known kind whose references lead to routines. -/
def Body.Closed (p : Program) : Body → Prop
  | .branch _ whenTrue whenFalse =>
    ∀ target ∈ [whenTrue, whenFalse], target.isEmpty = false ∧ (p.find? target).isSome
  | .compose names | .join names => ∀ name ∈ names, (p.find? (.str name)).isSome
  | .unknown _ _ => False
  | _ => True

structure Program.Closed (p : Program) : Prop where
  main_given : p.main.isEmpty = false
  main_found : (p.find? p.main).isSome
  routines : ∀ name r, p.find? name = some r → r.body.Closed p

def RunError.OfWork : RunError → Prop
  | .service _ _ | .failed _ | .exhausted => True
  | _ => False

/-- Errors of a run whose routines are all found. -/
def RunError.OfRun : RunError → Prop
  | .service _ _ | .failed _ | .tooDeep _ => True
  | _ => False

namespace Engine

open Run

theorem ofRun_mainError (main : Value) {e : RunError} (he : e.OfWork) : (mainError main e).OfRun := by
  cases e <;> trivial

theorem failsBy_ofExcept {α : Type} (r : Except Cause α) :
    FailsBy RunError.OfWork (Run.ofExcept r : Run σ α) :=
  .ofExcept (fun _ => trivial) r

theorem failsBy_generate (engine : Engine σ) (name : String) (r : Request) :
    FailsBy RunError.OfWork (generate engine name r) := by
  intro s e s' h
  cases hservice : engine.service with
  | none =>
    rw [perform_generate_none hservice] at h
    cases h
    trivial
  | some service =>
    rw [perform_generate_some hservice, Prod.mk.injEq] at h
    obtain ⟨h, -⟩ := h
    rcases hanswer : (service.answer s.service r).1 with failure | v
    · rw [hanswer] at h
      cases h
      trivial
    · rw [hanswer] at h
      cases v <;> cases h <;> trivial

theorem failsBy_runCode [CharNames] (name : String) (initial : Environment) (code given : Value) :
    FailsBy RunError.OfWork (runCode name initial code given : Run σ (Environment × Trace)) := by
  intro s e s' h
  obtain ⟨t, hcode, -⟩ := perform_runCode name initial code given s
  rw [hcode] at h
  cases h

theorem failsBy_runAll (execute : Executor σ) (given : Value) (branches : List String) :
    FailsBy (fun _ => False) (runAll execute given branches) := by
  induction branches with
  | nil => exact .pure _
  | cons branch branches ih => exact (FailsBy.attempt _).bind fun _ => ih.bind fun _ => .pure _

section Dispatch

variable {p : Program} {execute : Executor σ}
  (hexec : ∀ name, (p.find? name).isSome → ∀ given, FailsBy RunError.OfWork (execute name given))

include hexec

theorem failsBy_runBranch {condition whenTrue whenFalse : Value}
    (hclosed : (Body.branch condition whenTrue whenFalse).Closed p) (name : String) (initial : Environment)
    (given : Value) :
    FailsBy RunError.OfWork (runBranch execute name initial condition whenTrue whenFalse given) := by
  apply (failsBy_ofExcept _).bind
  intro taken
  have htarget : (if taken then whenTrue else whenFalse) ∈ [whenTrue, whenFalse] := by
    cases taken <;> simp
  obtain ⟨hempty, hfound⟩ := hclosed _ htarget
  simp only [hempty, Bool.false_eq_true, ↓reduceIte]
  exact (hexec _ hfound given).bind fun _ => .pure _

theorem failsBy_runSteps {steps : List String} (hclosed : ∀ step ∈ steps, (p.find? (.str step)).isSome)
    (given : Value) : FailsBy RunError.OfWork (runSteps execute steps given) := by
  induction steps generalizing given with
  | nil => exact (failsBy_ofExcept _).bind fun _ => .pure _
  | cons step steps ih =>
    obtain ⟨hstep, hsteps⟩ := List.forall_mem_cons.mp hclosed
    exact (hexec _ hstep given).bind fun _ => (ih hsteps _).bind fun _ => .pure _

theorem failsBy_runEach {branches : List String}
    (hclosed : ∀ branch ∈ branches, (p.find? (.str branch)).isSome) (given : Value) :
    FailsBy RunError.OfWork (runEach execute given branches) := by
  induction branches with
  | nil => exact .pure _
  | cons branch branches ih =>
    obtain ⟨hbranch, hbranches⟩ := List.forall_mem_cons.mp hclosed
    exact (hexec _ hbranch given).bind fun _ => (ih hbranches).bind fun _ => .pure _

theorem ofWork_of_outcomes {branches : List String} {given : Value}
    {outcomes : List (Except RunError (Environment × Trace))} {e : RunError}
    (hclosed : ∀ branch ∈ branches, (p.find? (.str branch)).isSome)
    (houtcomes : List.Forall₂ (fun branch outcome => ∃ t t',
      (execute (.str branch) given).perform t = (outcome, t')) branches outcomes)
    (he : .error e ∈ outcomes) : e.OfWork := by
  induction houtcomes with
  | nil => cases he
  | cons hfirst _ ih =>
    obtain ⟨hbranch, hbranches⟩ := List.forall_mem_cons.mp hclosed
    obtain rfl | he := List.mem_cons.mp he
    · obtain ⟨t, t', hfailed⟩ := hfirst
      exact hexec _ hbranch given hfailed
    · exact ih hbranches he

theorem failsBy_runBranches {branches : List String}
    (hclosed : ∀ branch ∈ branches, (p.find? (.str branch)).isSome) (parallel : Bool) (given : Value) :
    FailsBy RunError.OfWork (runBranches execute parallel given branches) := by
  unfold runBranches
  split
  · intro s e s' h
    obtain hall | ⟨outcomes, t, hall, h⟩ := bind_eq_error.mp h
    · cases failsBy_runAll execute given branches hall
    · cases hcollect : collect outcomes with
      | ok results =>
        rw [hcollect] at h
        cases h
      | error e' =>
        rw [hcollect] at h
        cases h
        exact ofWork_of_outcomes hexec hclosed (runAll_eq_ok hall) (error_mem_of_collect_eq_error hcollect)
  · exact failsBy_runEach hexec hclosed given

theorem failsBy_runBody [CharNames] {engine : Engine σ} {r : Routine} (hclosed : r.body.Closed p) (name : String)
    (given : Value) : FailsBy RunError.OfWork (runBody engine execute name r given) := by
  cases hbody : r.body with
  | prompt dev user tags =>
    simp only [runBody, hbody]
    apply (failsBy_ofExcept _).bind
    intro initial
    apply (failsBy_ofExcept _).bind
    intro text
    exact (failsBy_generate engine name _).bind fun _ => .pure _
  | code code =>
    simp only [runBody, hbody]
    exact (failsBy_ofExcept _).bind fun initial => failsBy_runCode name initial code given
  | define specs =>
    simp only [runBody, hbody]
    apply (failsBy_ofExcept _).bind
    intro initial
    exact (failsBy_ofExcept _).bind fun _ => .pure _
  | branch condition whenTrue whenFalse =>
    rw [hbody] at hclosed
    simp only [runBody, hbody]
    exact (failsBy_ofExcept _).bind fun initial => failsBy_runBranch hexec hclosed name initial given
  | compose steps =>
    rw [hbody] at hclosed
    simp only [runBody, hbody]
    exact (failsBy_runSteps hexec hclosed given).bind fun _ => .pure _
  | join branches =>
    rw [hbody] at hclosed
    simp only [runBody, hbody]
    exact (failsBy_runBranches hexec hclosed _ given).bind fun _ => .pure _
  | unknown kind raw =>
    rw [hbody] at hclosed
    exact hclosed.elim

end Dispatch

theorem failsBy_execute [CharNames] {engine : Engine σ} (hclosed : engine.program.Closed) (limit : Nat) (name : Value)
    (hfound : (engine.program.find? name).isSome) (given : Value) :
    FailsBy RunError.OfWork (engine.execute limit name given) := by
  induction limit generalizing name given with
  | zero => exact .fail trivial
  | succ limit ih =>
    obtain ⟨r, hr⟩ := Option.isSome_iff_exists.mp hfound
    have hbody := hclosed.routines name r hr
    cases name with
    | str n =>
      rw [execute_known hr fun kind raw hunknown => by rw [hunknown] at hbody; exact hbody]
      have hwork : FailsBy RunError.OfWork (runBody engine (engine.execute limit) n r given) :=
        failsBy_runBody ih hbody n given
      refine (FailsBy.log _).bind fun _ => hwork.onError.bind ?_
      intro result
      exact (failsBy_ofExcept _).bind fun _ => (FailsBy.log _).bind fun _ => .pure _
    | _ => cases hr

theorem failsBy_runWithin [CharNames] {engine : Engine σ} (hclosed : engine.program.Closed) (limit : Nat)
    (env : Environment) : FailsBy RunError.OfRun (runWithin engine limit env) := by
  have hmain : FailsBy RunError.OfRun (runMain engine limit env) := by
    intro s e s' h
    rw [perform_runMain, hclosed.main_given, Option.isNone_eq_false_iff.mpr hclosed.main_found] at h
    simp only [Bool.false_eq_true, ↓reduceIte] at h
    rcases hkeys : env.sortedKeys with cause | keys
    · rw [hkeys] at h
      cases h
      trivial
    · rw [hkeys] at h
      rcases hexec : (engine.execute limit engine.program.main (.map env)).perform
        (s.log (.runStart engine.program.main)) with ⟨e' | result, t⟩
      · rw [hexec] at h
        cases h
        exact ofRun_mainError _ (failsBy_execute hclosed limit _ hclosed.main_found _ hexec)
      · rw [hexec] at h
        cases h
  refine hmain.onError.bind ?_
  intro result
  exact (FailsBy.ofExcept (fun _ => trivial) _).bind fun _ => (FailsBy.log _).bind fun _ => .pure _

end Engine

end RoutineFlow
