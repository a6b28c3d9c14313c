import RoutineFlow.Proofs.Finiteness
import RoutineFlow.Proofs.Schedule

/-!
Properties of results that hold however the branches of a course are scheduled, as long as the service gives answers of a
certain kind.
-/

namespace RoutineFlow

namespace Service

variable {σ : Type} (service : Service σ)

/-- The answers to requests that are made one after another. -/
def replies : σ → List Request → List (Except ServiceFailure Value)
  | _, [] => []
  | s, r :: rest => (service.answer s r).1 :: replies (service.answer s r).2 rest

/-- The state that requests leave behind. -/
def after : σ → List Request → σ
  | s, [] => s
  | s, r :: rest => after (service.answer s r).2 rest

theorem replies_append (s : σ) (asked asked' : List Request) :
    service.replies s (asked ++ asked') = service.replies s asked ++ service.replies (service.after s asked) asked' := by
  induction asked generalizing s with
  | nil => rfl
  | cons r asked ih => rw [List.cons_append, replies, ih, replies, after, List.cons_append]

end Service

namespace Course

/-- As long as the service gives answers in `A`, the course and its branches come to results in `P`, if to any. -/
inductive Ensures (A : Except ServiceFailure Value → Prop) (P : Environment × Trace → Prop) : Course → Prop
  | done {outcome : Outcome} (h : Yields P outcome) : Ensures A P (.done outcome)
  | ask {r : Request} {next : Except ServiceFailure Value → Course}
      (h : ∀ answer, A answer → Ensures A P (next answer)) : Ensures A P (.ask r next)
  | fork {branches : List Course} {next : List Outcome → Course}
      (hbranches : ∀ branch ∈ branches, Ensures A P branch)
      (h : ∀ outcomes, (∀ outcome ∈ outcomes, Yields P outcome) → Ensures A P (next outcomes)) :
      Ensures A P (.fork branches next)

section Ensures

variable {A : Except ServiceFailure Value → Prop} {P : Environment × Trace → Prop} {c c' : Course}

theorem Ensures.ok {result : Environment × Trace} (h : P result) : Ensures A P (.done (.ok result)) :=
  .done (.ok h)

theorem Ensures.error (e : RunError) : Ensures A P (.done (.error e)) :=
  .done (.error e)

theorem Ensures.bind {k : Outcome → Course} (h : Ensures A P c)
    (hk : ∀ outcome, Yields P outcome → Ensures A P (k outcome)) : Ensures A P (c.bind k) := by
  induction h with
  | done h => exact hk _ h
  | ask _ ih => exact .ask ih
  | fork hbranches _ _ ih => exact .fork hbranches ih

theorem Ensures.proceed {α : Type} {Q : α → Prop} {r : Except RunError α} {k : α → Course} (h : Yields Q r)
    (hk : ∀ a, Q a → Ensures A P (k a)) : Ensures A P (proceed r k) := by
  cases r with
  | error e => exact .error e
  | ok a => exact hk a (h a rfl)

theorem Ensures.check {α : Type} {Q : α → Prop} {r : Except Cause α} {k : α → Course} (h : Yields Q r)
    (hk : ∀ a, Q a → Ensures A P (k a)) : Ensures A P (check r k) :=
  .proceed h.mapError hk

theorem Ensures.andThen {k : Environment × Trace → Course} (h : Ensures A P c)
    (hk : ∀ result, P result → Ensures A P (k result)) : Ensures A P (c.andThen k) :=
  h.bind fun _ houtcome => .proceed houtcome hk

variable {σ : Type} {service : Service σ} {s s' : σ} {asked : List Request}

theorem Step.after (h : Step service c s asked c' s') : s' = service.after s asked := by
  induction h with
  | ask r next s => rfl
  | branch before after next _ ih => exact ih
  | join outcomes next s => rfl

theorem Step.ensures (h : Step service c s asked c' s') (hc : Ensures A P c)
    (hanswers : ∀ answer ∈ service.replies s asked, A answer) : Ensures A P c' := by
  induction h with
  | ask r next s =>
    cases hc with
    | ask hnext => exact hnext _ (hanswers _ List.mem_cons_self)
  | branch before after next _ ih =>
    cases hc with
    | fork hbranches hnext =>
      obtain ⟨hbefore, hbranch, hafter⟩ := List.forall_mem_append.mp hbranches |>.imp_right List.forall_mem_cons.mp
      exact .fork (List.forall_mem_append.mpr ⟨hbefore, List.forall_mem_cons.mpr ⟨ih hbranch hanswers, hafter⟩⟩) hnext
  | join outcomes next s =>
    cases hc with
    | fork hbranches hnext =>
      apply hnext
      intro outcome houtcome
      cases hbranches _ (List.mem_map_of_mem houtcome) with
      | done h => exact h

theorem Steps.ensures {outcome : Outcome} (h : Steps service c s asked (.done outcome) s') (hc : Ensures A P c)
    (hanswers : ∀ answer ∈ service.replies s asked, A answer) : Yields P outcome := by
  generalize hdone : Course.done outcome = d at h
  induction h with
  | refl c s =>
    subst hdone
    cases hc with
    | done h => exact h
  | step hstep _ ih =>
    rw [Service.replies_append, List.forall_mem_append, ← hstep.after] at hanswers
    exact ih (hstep.ensures hc hanswers.1) hanswers.2 hdone

end Ensures

end Course

end RoutineFlow
