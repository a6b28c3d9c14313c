import RoutineFlow.Proofs.Outcomes

/-!
Routines that need a result of one another can have none: the one that came to a result first would have needed
another one before it. A run among such routines ends at its limit, if no other error ends it before.
-/

namespace RoutineFlow

/-- A routine in whose list one of the names stands, or both of whose branches are among them. -/
def Body.Loops (names : Set String) : Body → Prop
  | .branch _ whenTrue whenFalse =>
    (∃ name ∈ names, whenTrue = .str name) ∧ ∃ name ∈ names, whenFalse = .str name
  | .compose steps => ∃ name ∈ steps, name ∈ names
  | .join branches => ∃ name ∈ branches, name ∈ names
  | _ => False

def Program.Endless (p : Program) (names : Set String) : Prop :=
  ∀ name ∈ names, ∃ r, p.find? (.str name) = some r ∧ r.body.Loops names

namespace Engine

open Course

variable {σ : Type} {engine : Engine σ} {names : Set String}

theorem exists_needed {P : Value → Prop} {body : Body} (hloops : body.Loops names)
    (hneeds : needs P body) : ∃ name ∈ names, P (.str name) := by
  cases body with
  | branch condition whenTrue whenFalse =>
    obtain ⟨⟨name, hname, rfl⟩, name', hname', rfl⟩ := hloops
    obtain hneeds | hneeds := hneeds
    · exact ⟨name, hname, hneeds⟩
    · exact ⟨name', hname', hneeds⟩
  | compose steps =>
    obtain ⟨name, hstep, hname⟩ := hloops
    exact ⟨name, hname, hneeds name hstep⟩
  | join branches =>
    obtain ⟨name, hbranch, hname⟩ := hloops
    exact ⟨name, hname, hneeds name hbranch⟩
  | _ => exact hloops.elim

theorem gives_endless [CharNames] (hendless : engine.program.Endless names) {limit : Nat} {name : String}
    (hname : name ∈ names) {given : Value} {outcome : Outcome}
    (h : (engine.course limit (.str name) given).Gives outcome) : ∃ e, outcome = .error e := by
  induction limit generalizing name given outcome with
  | zero => exact ⟨_, h⟩
  | succ limit ih =>
    obtain ⟨e, rfl, -⟩ | ⟨r, hfound, harises⟩ := arises_course h
    · exact ⟨e, rfl⟩
    · cases harises with
      | own he => exact ⟨_, rfl⟩
      | called hreferred hgives => exact ⟨_, rfl⟩
      | passed hneeds =>
        obtain ⟨r', hfound', hloops⟩ := hendless name hname
        obtain rfl : r = r' := Option.some.inj (hfound.symm.trans hfound')
        obtain ⟨name', hname', given', result', hgives⟩ := exists_needed hloops hneeds
        obtain ⟨e, he⟩ := ih hname' hgives
        cases he

/-- Executions of such routines come to errors only, on every schedule; and so does a run that starts with one. -/
theorem endless_execution [CharNames] (engine : Engine σ) (names : Set String)
    (hendless : engine.program.Endless names) (name : String) (hname : name ∈ names) (limit : Nat)
    (env : Environment) :
    (∀ s : State σ, ∃ e, ((engine.execute limit (.str name) (.map env)).perform s).1 = .error e) ∧
      (∀ (service : Service σ) (s s' : σ) (asked : List Request) (outcome : Outcome),
        Steps service (engine.course limit (.str name) (.map env)) s asked (.done outcome) s' →
          ∃ e, outcome = .error e) ∧
      (engine.program.main = .str name → ∀ s : State σ,
        ∃ e, ((runWithin engine limit env).perform s).1 = .error e ∧ e ≠ .exhausted) := by
  refine ⟨?_, ?_, ?_⟩
  · intro s
    exact gives_endless hendless hname (gives_execute engine limit (.str name) (.map env) s)
  · intro service s s' asked outcome hsteps
    exact gives_endless hendless hname hsteps.gives
  · intro hmain s
    obtain ⟨outcome, hgives, hresult⟩ := gives_run engine limit env s
    rw [hresult]
    obtain ⟨e, rfl, hown⟩ | ⟨first, hfirst, rfl⟩ := gives_runCourse hgives
    · refine ⟨e, rfl, ?_⟩
      rintro rfl
      exact hown trivial
    · rw [hmain] at hfirst
      obtain ⟨e, rfl⟩ := gives_endless hendless hname hfirst
      refine ⟨_, rfl, ?_⟩
      cases e <;> nofun

def loops : Program where
  routines := [
    ("main", ⟨.null, [], .branch (.str "done") (.str "again") (.str "retry")⟩),
    ("again", ⟨.null, [], .compose ["note", "main"]⟩),
    ("retry", ⟨.null, [], .join ["note", "again"]⟩),
    ("note", ⟨.null, [], .define [("done", .reference (.str "done?"))]⟩)]
  main := .str "main"
  doc := .null

theorem loops_execution :
    loops.Endless {"main", "again", "retry"} ∧
      ∀ (workers : Int) (limit : Nat) (env : Environment) (s : State Unit), ∃ e,
        ((runWithin ⟨loops, none, workers⟩ limit env).perform s).1 = .error e ∧ e ≠ .exhausted := by
  have hendless : loops.Endless {"main", "again", "retry"} := by
    rintro name (rfl | rfl | rfl)
    · exact ⟨_, rfl, ⟨"again", by simp, rfl⟩, ⟨"retry", by simp, rfl⟩⟩
    · exact ⟨_, rfl, "main", by simp, by simp⟩
    · exact ⟨_, rfl, "again", by simp, by simp⟩
  refine ⟨hendless, fun workers limit env => ?_⟩
  exact (endless_execution ⟨loops, none, workers⟩ _ hendless "main" (by simp) limit env).2.2 rfl

end Engine

end RoutineFlow
