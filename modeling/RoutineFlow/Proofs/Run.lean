import Mathlib
import RoutineFlow.Run.State

namespace RoutineFlow

variable {σ : Type}

def State.log (s : State σ) (e : Event) : State σ :=
  { s with telemetry := s.telemetry.log e }

/-- Errors of the limit on nested executions. -/
def RunError.AtLimit : RunError → Prop
  | .exhausted | .tooDeep _ => True
  | _ => False

@[simp] theorem State.log_service (s : State σ) (e : Event) : (s.log e).service = s.service := rfl

namespace Run

variable {α β : Type} {s s' : State σ} {b : β} {e : RunError}

/-- What a part of a run gives from a state, and the state that it leaves behind. -/
def perform (x : Run σ α) (s : State σ) : Except RunError α × State σ := x s

theorem ext {x y : Run σ α} (h : ∀ s, perform x s = perform y s) : x = y :=
  funext h

@[simp] theorem perform_pure (a : α) (s : State σ) :
    perform (pure a : Run σ α) s = (.ok a, s) := rfl

@[simp] theorem perform_fail (e : RunError) (s : State σ) :
    perform (fail e : Run σ α) s = (.error e, s) := rfl

@[simp] theorem perform_log (event : Event) (s : State σ) :
    perform (log event) s = (.ok (), s.log event) := rfl

@[simp] theorem perform_request (service : Service σ) (r : Request) (s : State σ) :
    perform (request service r) s = (.ok (service.answer s.service r).1,
      { s with service := (service.answer s.service r).2, requests := s.requests ++ [r] }) := rfl

@[simp] theorem perform_attempt (x : Run σ α) (s : State σ) :
    perform (attempt x) s = (.ok (perform x s).1, (perform x s).2) := rfl

theorem perform_ofExcept (r : Except Cause α) (s : State σ) :
    perform (ofExcept r) s = (r.mapError .failed, s) := by
  cases r <;> rfl

theorem perform_onError (x : Run σ α) (event : RunError → Event) (s : State σ) :
    perform (onError x event) s = match perform x s with
      | (.ok a, s') => (.ok a, s')
      | (.error e, s') => (.error e, s'.log (event e)) := rfl

/-- A part of a run with its error turned into another. -/
def mapError (f : RunError → RunError) (x : Run σ α) : Run σ α :=
  fun s => ((x.perform s).1.mapError f, (x.perform s).2)

@[simp] theorem perform_mapError (f : RunError → RunError) (x : Run σ α) (s : State σ) :
    perform (mapError f x) s = ((x.perform s).1.mapError f, (x.perform s).2) := rfl

theorem perform_bind (x : Run σ α) (f : α → Run σ β) (s : State σ) :
    perform (x >>= f) s = match perform x s with
      | (.ok a, s') => perform (f a) s'
      | (.error e, s') => (.error e, s') := by
  change ExceptT.bind x f s = _
  unfold perform
  rcases h : x s with ⟨_ | _, s'⟩
  · simp only [ExceptT.bind, ExceptT.mk, ExceptT.bindCont, bind, StateT.bind, h]
    rfl
  · simp only [ExceptT.bind, ExceptT.mk, ExceptT.bindCont, bind, StateT.bind, h]

def ofResult (r : Except RunError α) : Run σ α := fun s => (r, s)

theorem perform_bind_ofResult (x : Run σ α) (f : α → Run σ β) (s : State σ) :
    perform (x >>= f) s = perform (ofResult (perform x s).1 >>= f) (perform x s).2 := by
  rw [perform_bind, perform_bind]
  rfl

theorem bind_eq_ok {x : Run σ α} {f : α → Run σ β} :
    perform (x >>= f) s = (.ok b, s') ↔
      ∃ a t, perform x s = (.ok a, t) ∧ perform (f a) t = (.ok b, s') := by
  rw [perform_bind]
  rcases perform x s with ⟨_ | a, t⟩
  · simp
  · simp [and_assoc]

theorem bind_eq_error {x : Run σ α} {f : α → Run σ β} :
    perform (x >>= f) s = (.error e, s') ↔ perform x s = (.error e, s') ∨
      ∃ a t, perform x s = (.ok a, t) ∧ perform (f a) t = (.error e, s') := by
  rw [perform_bind]
  rcases perform x s with ⟨_ | a, t⟩
  · simp
  · simp [and_assoc]

theorem ofExcept_eq_ok {r : Except Cause β} :
    perform (ofExcept r) s = (.ok b, s') ↔ r = .ok b ∧ s = s' := by
  rw [perform_ofExcept]
  cases r <;> simp [Except.mapError]

theorem ofExcept_bind_eq_ok {r : Except Cause α} {f : α → Run σ β} :
    perform (ofExcept r >>= f) s = (.ok b, s') ↔ ∃ a, r = .ok a ∧ perform (f a) s = (.ok b, s') := by
  rw [perform_bind, perform_ofExcept]
  cases r <;> simp [Except.mapError]

theorem ofExcept_bind_eq_error {r : Except Cause α} {f : α → Run σ β} :
    perform (ofExcept r >>= f) s = (.error e, s') ↔ (∃ cause, r = .error cause ∧ e = .failed cause ∧ s' = s) ∨
      ∃ a, r = .ok a ∧ perform (f a) s = (.error e, s') := by
  rw [perform_bind, perform_ofExcept]
  cases r <;> simp [Except.mapError, eq_comm]

theorem onError_eq_ok {x : Run σ β} {event : RunError → Event} :
    perform (onError x event) s = (.ok b, s') ↔ perform x s = (.ok b, s') := by
  rw [perform_onError]
  rcases perform x s with ⟨_ | a, t⟩
  · simp
  · simp

theorem onError_eq_error {x : Run σ β} {event : RunError → Event} :
    perform (onError x event) s = (.error e, s') ↔
      ∃ t, perform x s = (.error e, t) ∧ s' = t.log (event e) := by
  rw [perform_onError]
  rcases perform x s with ⟨_ | a, t⟩
  · simp only [Prod.mk.injEq, Except.error.injEq]
    constructor
    · rintro ⟨rfl, rfl⟩
      exact ⟨t, ⟨rfl, rfl⟩, rfl⟩
    · rintro ⟨-, ⟨rfl, rfl⟩, rfl⟩
      exact ⟨rfl, rfl⟩
  · simp

/-- Whatever state it starts from, a part of a run ends with no other errors. -/
def FailsBy (P : RunError → Prop) (x : Run σ α) : Prop :=
  ∀ ⦃s e s'⦄, perform x s = (.error e, s') → P e

namespace FailsBy

variable {P : RunError → Prop} {x : Run σ α}

theorem pure (a : α) : FailsBy P (pure a : Run σ α) := by
  intro s e s' h
  cases h

theorem fail (he : P e) : FailsBy P (fail e : Run σ α) := by
  intro s e s' h
  cases h
  exact he

theorem log (event : Event) : FailsBy P (log event : Run σ Unit) := by
  intro s e s' h
  cases h

theorem ofExcept (hfailed : ∀ cause, P (.failed cause)) (r : Except Cause α) :
    FailsBy P (ofExcept r : Run σ α) := by
  intro s e s' h
  cases r with
  | ok a => cases h
  | error cause =>
    cases h
    exact hfailed cause

theorem bind {f : α → Run σ β} (hx : FailsBy P x) (hf : ∀ a, FailsBy P (f a)) : FailsBy P (x >>= f) := by
  intro s e s' h
  obtain hfirst | ⟨a, t, -, hrest⟩ := bind_eq_error.mp h
  · exact hx hfirst
  · exact hf a hrest

theorem attempt (x : Run σ α) : FailsBy P (attempt x) := by
  intro s e s' h
  cases h

theorem onError {event : RunError → Event} (hx : FailsBy P x) : FailsBy P (onError x event) := by
  intro s e s' h
  obtain ⟨t, hx', -⟩ := onError_eq_error.mp h
  exact hx hx'

end FailsBy

end Run

end RoutineFlow
