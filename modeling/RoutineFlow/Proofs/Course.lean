import RoutineFlow.Proofs.Run

/-!
What is left of a run at a point of it: nothing but an outcome, a call of the service with what follows each
answer, or branches with what follows their outcomes. A schedule takes one call after another, from any of the
branches that are under way.
-/

namespace RoutineFlow

abbrev Outcome := Except RunError (Environment × Trace)

inductive Course where
  | done (outcome : Outcome)
  | ask (r : Request) (next : Except ServiceFailure Value → Course)
  | fork (branches : List Course) (next : List Outcome → Course)

namespace Course

@[elab_as_elim, induction_eliminator]
theorem induct {P : Course → Prop} (done : ∀ outcome, P (.done outcome))
    (ask : ∀ r next, (∀ answer, P (next answer)) → P (.ask r next))
    (fork : ∀ branches next, (∀ branch ∈ branches, P branch) → (∀ outcomes, P (next outcomes)) →
      P (.fork branches next)) (c : Course) : P c :=
  @Course.rec P (fun branches => ∀ branch ∈ branches, P branch) done ask fork (by simp)
    (fun _ _ hfirst hrest => List.forall_mem_cons.mpr ⟨hfirst, hrest⟩) c

def bind (c : Course) (k : Outcome → Course) : Course :=
  match c with
  | .done outcome => k outcome
  | .ask r next => .ask r fun answer => (next answer).bind k
  | .fork branches next => .fork branches fun outcomes => (next outcomes).bind k

/-- Goes on from a result; an error ends the course. -/
def proceed {α : Type} (r : Except RunError α) (k : α → Course) : Course :=
  match r with
  | .ok a => k a
  | .error e => .done (.error e)

def andThen (c : Course) (k : Environment × Trace → Course) : Course :=
  c.bind fun outcome => proceed outcome k

section Answers

variable (answer : Request → Except ServiceFailure Value)

mutual

def value : Course → Outcome
  | .done outcome => outcome
  | .ask r next => value (next (answer r))
  | .fork branches next => value (next (values branches))

def values : List Course → List Outcome
  | [] => []
  | branch :: rest => value branch :: values rest

end

mutual

def calls : Course → List Request
  | .done _ => []
  | .ask r next => r :: calls (next (answer r))
  | .fork branches next => callsAll branches ++ calls (next (values answer branches))

def callsAll : List Course → List Request
  | [] => []
  | branch :: rest => calls branch ++ callsAll rest

end

theorem values_eq_map (branches : List Course) : values answer branches = branches.map (value answer) := by
  induction branches with
  | nil => rfl
  | cons branch branches ih => rw [values, ih, List.map_cons]

theorem callsAll_eq_flatMap (branches : List Course) :
    callsAll answer branches = branches.flatMap (calls answer) := by
  induction branches with
  | nil => rfl
  | cons branch branches ih => rw [callsAll, ih, List.flatMap_cons]

theorem value_bind (c : Course) (k : Outcome → Course) :
    (c.bind k).value answer = (k (c.value answer)).value answer := by
  induction c with
  | done outcome => rfl
  | ask r next ih => exact ih (answer r)
  | fork branches next _ ih => exact ih (values answer branches)

theorem calls_bind (c : Course) (k : Outcome → Course) :
    (c.bind k).calls answer = c.calls answer ++ (k (c.value answer)).calls answer := by
  induction c with
  | done outcome => rfl
  | ask r next ih =>
    simp only [bind, calls, value, ih, List.cons_append]
  | fork branches next _ ih =>
    simp only [bind, calls, value, ih, List.append_assoc]

theorem value_andThen (c : Course) (k : Environment × Trace → Course) :
    (c.andThen k).value answer = (proceed (c.value answer) k).value answer :=
  value_bind answer c _

theorem calls_andThen (c : Course) (k : Environment × Trace → Course) :
    (c.andThen k).calls answer = c.calls answer ++ (proceed (c.value answer) k).calls answer :=
  calls_bind answer c _

end Answers

section Schedules

variable {σ : Type} (service : Service σ)

/-- One step of a schedule, with the calls that it makes: a call is answered, in whichever branch it is, or
branches that have all come to outcomes are left behind. -/
inductive Step : Course → σ → List Request → Course → σ → Prop
  | ask (r : Request) (next : Except ServiceFailure Value → Course) (s : σ) :
    Step (.ask r next) s [r] (next (service.answer s r).1) (service.answer s r).2
  | branch {c c' : Course} {s s' : σ} {asked : List Request} (before after : List Course)
      (next : List Outcome → Course) (h : Step c s asked c' s') :
    Step (.fork (before ++ c :: after) next) s asked (.fork (before ++ c' :: after) next) s'
  | join (outcomes : List Outcome) (next : List Outcome → Course) (s : σ) :
    Step (.fork (outcomes.map .done) next) s [] (next outcomes) s

inductive Steps : Course → σ → List Request → Course → σ → Prop
  | refl (c : Course) (s : σ) : Steps c s [] c s
  | step {c c' c'' : Course} {s s' s'' : σ} {asked asked' : List Request}
      (hstep : Step service c s asked c' s') (hsteps : Steps c' s' asked' c'' s'') :
    Steps c s (asked ++ asked') c'' s''

variable {service} {c c' c'' : Course} {s s' s'' : σ} {asked asked' : List Request}

theorem Steps.trans (h : Steps service c s asked c' s') (h' : Steps service c' s' asked' c'' s'') :
    Steps service c s (asked ++ asked') c'' s'' := by
  induction h with
  | refl c s => exact h'
  | step hstep _ ih =>
    rw [List.append_assoc]
    exact .step hstep (ih h')

theorem Step.bind (h : Step service c s asked c' s') (k : Outcome → Course) :
    Step service (c.bind k) s asked (c'.bind k) s' := by
  cases h with
  | ask r next s => exact .ask r _ s
  | branch before after next h => exact .branch before after _ h
  | join outcomes next s => exact .join outcomes _ s

theorem Steps.bind {k : Outcome → Course} {outcome : Outcome}
    (h : Steps service c s asked (.done outcome) s')
    (h' : Steps service (k outcome) s' asked' c' s'') :
    Steps service (c.bind k) s (asked ++ asked') c' s'' := by
  generalize hdone : Course.done outcome = d at h
  induction h with
  | refl c s =>
    subst hdone
    exact h'
  | step hstep _ ih =>
    rw [List.append_assoc]
    exact .step (hstep.bind k) (ih h' hdone)

theorem Steps.branch (h : Steps service c s asked c' s') (before after : List Course)
    (next : List Outcome → Course) :
    Steps service (.fork (before ++ c :: after) next) s asked (.fork (before ++ c' :: after) next) s' := by
  induction h with
  | refl c s => exact .refl _ s
  | step hstep _ ih => exact .step (.branch before after next hstep) ih

theorem Steps.first_branch {outcome : Outcome} {outcomes : List Outcome} {rest : List Course}
    {next : List Outcome → Course} (h : Steps service c s asked (.done outcome) s')
    (h' : Steps service (.fork ((outcomes ++ [outcome]).map .done ++ rest) next) s' asked' c'' s'') :
    Steps service (.fork (outcomes.map .done ++ c :: rest) next) s (asked ++ asked') c'' s'' := by
  apply (h.branch (outcomes.map .done) rest next).trans
  rw [List.map_append, List.append_assoc] at h'
  exact h'

variable {answer : Request → Except ServiceFailure Value}
  (hanswer : ∀ s r, (service.answer s r).1 = answer r)

theorem map_value_done (outcomes : List Outcome) :
    (outcomes.map Course.done).map (value answer) = outcomes := by
  induction outcomes with
  | nil => rfl
  | cons outcome outcomes ih => rw [List.map_cons, List.map_cons, ih, value]

theorem flatMap_calls_done (outcomes : List Outcome) :
    (outcomes.map Course.done).flatMap (calls answer) = [] := by
  induction outcomes with
  | nil => rfl
  | cons outcome outcomes ih => rw [List.map_cons, List.flatMap_cons, ih, calls, List.append_nil]

include hanswer

theorem Step.value_eq (h : Step service c s asked c' s') : c'.value answer = c.value answer := by
  induction h with
  | ask r next s => rw [value, hanswer]
  | branch before after next _ ih =>
    simp only [value, values_eq_map, List.map_append, List.map_cons, ih]
  | join outcomes next s => rw [value, values_eq_map, map_value_done]

theorem Step.calls_perm (h : Step service c s asked c' s') :
    (c.calls answer).Perm (asked ++ c'.calls answer) := by
  induction h with
  | ask r next s =>
    rw [calls, hanswer]
    exact .refl _
  | @branch c c' s s' asked before after next h ih =>
    -- the branch keeps its outcome, so what follows the fork makes the same calls
    have hvalue := h.value_eq hanswer
    have hbranch : (before.flatMap (calls answer) ++ (c.calls answer ++ after.flatMap (calls answer))).Perm
        (asked ++ (before.flatMap (calls answer) ++ (c'.calls answer ++ after.flatMap (calls answer)))) := by
      apply ((ih.append_right _).append_left _).trans
      rw [List.append_assoc]
      exact List.perm_append_comm_assoc _ _ _
    simp only [calls, callsAll_eq_flatMap, values_eq_map, List.map_append, List.map_cons, hvalue,
      List.flatMap_append, List.flatMap_cons, ← List.append_assoc] at hbranch ⊢
    exact hbranch.append_right _
  | join outcomes next s =>
    rw [calls, callsAll_eq_flatMap, values_eq_map, map_value_done, flatMap_calls_done]

/-- A finished schedule has the outcome of the course and makes its calls, in an order of its own. -/
theorem Steps.outcome {outcome : Outcome} (h : Steps service c s asked (.done outcome) s') :
    outcome = c.value answer ∧ asked.Perm (c.calls answer) := by
  generalize hdone : Course.done outcome = d at h
  induction h with
  | refl c s =>
    subst hdone
    exact ⟨rfl, .refl _⟩
  | step hstep _ ih =>
    obtain ⟨hvalue, hperm⟩ := ih hdone
    refine ⟨hvalue.trans (hstep.value_eq hanswer), ?_⟩
    exact (hperm.append_left _).trans (hstep.calls_perm hanswer).symm

end Schedules

end Course

end RoutineFlow
