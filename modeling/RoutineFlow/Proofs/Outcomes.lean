import RoutineFlow.Proofs.Reachability
import RoutineFlow.Proofs.Schedule

/-!
What a course may come to, whatever the service answers and however its branches are scheduled. A fact about
all outcomes of a course is one about every run of it.
-/

namespace RoutineFlow

namespace Course

mutual

def Gives : Course → Outcome → Prop
  | .done result, outcome => outcome = result
  | .ask _ next, outcome => ∃ answer, Gives (next answer) outcome
  | .fork branches next, outcome => ∃ outcomes, GivesAll branches outcomes ∧ Gives (next outcomes) outcome

def GivesAll : List Course → List Outcome → Prop
  | [], outcomes => outcomes = []
  | branch :: rest, outcomes =>
    ∃ first others, outcomes = first :: others ∧ Gives branch first ∧ GivesAll rest others

end

theorem GivesAll.exists_branch {branches : List Course} {outcomes : List Outcome}
    (h : GivesAll branches outcomes) {outcome : Outcome} (hmem : outcome ∈ outcomes) :
    ∃ branch ∈ branches, branch.Gives outcome := by
  induction branches generalizing outcomes with
  | nil =>
    obtain rfl : outcomes = [] := h
    cases hmem
  | cons branch rest ih =>
    obtain ⟨first, others, rfl, hfirst, hothers⟩ := h
    obtain rfl | hmem := List.mem_cons.mp hmem
    · exact ⟨branch, List.mem_cons_self, hfirst⟩
    · obtain ⟨branch', hbranch', hgives⟩ := ih hothers hmem
      exact ⟨branch', List.mem_cons_of_mem _ hbranch', hgives⟩

theorem GivesAll.exists_outcome {branches : List Course} {outcomes : List Outcome}
    (h : GivesAll branches outcomes) {branch : Course} (hmem : branch ∈ branches) :
    ∃ outcome ∈ outcomes, branch.Gives outcome := by
  induction branches generalizing outcomes with
  | nil => cases hmem
  | cons branch' rest ih =>
    obtain ⟨first, others, rfl, hfirst, hothers⟩ := h
    obtain rfl | hmem := List.mem_cons.mp hmem
    · exact ⟨first, List.mem_cons_self, hfirst⟩
    · obtain ⟨outcome, houtcome, hgives⟩ := ih hothers hmem
      exact ⟨outcome, List.mem_cons_of_mem _ houtcome, hgives⟩

theorem givesAll_done (outcomes : List Outcome) : GivesAll (outcomes.map .done) outcomes := by
  induction outcomes with
  | nil => rfl
  | cons outcome outcomes ih => exact ⟨outcome, outcomes, rfl, rfl, ih⟩

theorem GivesAll.replace {before after : List Course} {c c' : Course} {outcomes : List Outcome}
    (hc : ∀ {outcome}, c'.Gives outcome → c.Gives outcome)
    (h : GivesAll (before ++ c' :: after) outcomes) : GivesAll (before ++ c :: after) outcomes := by
  induction before generalizing outcomes with
  | nil =>
    obtain ⟨first, others, rfl, hfirst, hothers⟩ := h
    exact ⟨first, others, rfl, hc hfirst, hothers⟩
  | cons branch before ih =>
    obtain ⟨first, others, rfl, hfirst, hothers⟩ := h
    exact ⟨first, others, rfl, hfirst, ih hothers⟩

theorem gives_bind {c : Course} {k : Outcome → Course} {outcome : Outcome} :
    (c.bind k).Gives outcome ↔ ∃ first, c.Gives first ∧ (k first).Gives outcome := by
  induction c with
  | done result => simp [bind, Gives]
  | ask r next ih =>
    simp only [bind, Gives, ih]
    exact exists_comm.trans (by simp [exists_and_right])
  | fork branches next _ ih =>
    simp only [bind, Gives, ih]
    constructor
    · rintro ⟨outcomes, hbranches, first, hfirst, hrest⟩
      exact ⟨first, ⟨outcomes, hbranches, hfirst⟩, hrest⟩
    · rintro ⟨first, ⟨outcomes, hbranches, hfirst⟩, hrest⟩
      exact ⟨outcomes, hbranches, first, hfirst, hrest⟩

theorem gives_proceed {α : Type} {r : Except RunError α} {k : α → Course} {outcome : Outcome} :
    (proceed r k).Gives outcome ↔
      (∃ e, r = .error e ∧ outcome = .error e) ∨ ∃ a, r = .ok a ∧ (k a).Gives outcome := by
  cases r <;> simp [proceed, Gives]

theorem gives_andThen {c : Course} {k : Environment × Trace → Course} {outcome : Outcome} :
    (c.andThen k).Gives outcome ↔ (∃ e, c.Gives (.error e) ∧ outcome = .error e) ∨
      ∃ result, c.Gives (.ok result) ∧ (k result).Gives outcome := by
  simp only [andThen, gives_bind, gives_proceed]
  constructor
  · rintro ⟨first, hfirst, ⟨e, rfl, he⟩ | ⟨result, rfl, hrest⟩⟩
    · exact .inl ⟨e, hfirst, he⟩
    · exact .inr ⟨result, hfirst, hrest⟩
  · rintro (⟨e, hfirst, he⟩ | ⟨result, hfirst, hrest⟩)
    · exact ⟨_, hfirst, .inl ⟨e, rfl, he⟩⟩
    · exact ⟨_, hfirst, .inr ⟨result, rfl, hrest⟩⟩

theorem gives_check {α : Type} {r : Except Cause α} {k : α → Course} {outcome : Outcome} :
    (check r k).Gives outcome ↔
      (∃ cause, r = .error cause ∧ outcome = .error (.failed cause)) ∨ ∃ a, r = .ok a ∧ (k a).Gives outcome := by
  cases r <;> simp [check, proceed, Gives, Except.mapError]

section Schedules

variable {σ : Type} {service : Service σ} {c c' : Course} {s s' : σ} {asked : List Request}

theorem Step.gives (h : Step service c s asked c' s') {outcome : Outcome} (hgives : c'.Gives outcome) :
    c.Gives outcome := by
  induction h generalizing outcome with
  | ask r next s => exact ⟨_, hgives⟩
  | branch before after next _ ih =>
    obtain ⟨outcomes, hbranches, hnext⟩ := hgives
    exact ⟨outcomes, hbranches.replace ih, hnext⟩
  | join outcomes next s =>
    exact ⟨outcomes, givesAll_done outcomes, hgives⟩

theorem Steps.gives {outcome : Outcome} (h : Steps service c s asked (.done outcome) s') : c.Gives outcome := by
  generalize hdone : Course.done outcome = d at h
  induction h with
  | refl c s =>
    subst hdone
    rfl
  | step hstep _ ih => exact hstep.gives (ih hdone)

end Schedules

end Course

namespace Engine

open Course

variable {σ : Type}

theorem gives_execute [CharNames] (engine : Engine σ) (limit : Nat) (name given : Value) (s : State σ) :
    (engine.course limit name given).Gives ((engine.execute limit name given).perform s).1 := by
  obtain ⟨service, hservice⟩ := engine.exists_service
  obtain ⟨asked, hsteps, -⟩ := schedules_execute hservice limit name given s
  exact hsteps.gives

theorem gives_run [CharNames] (engine : Engine σ) (limit : Nat) (env : Environment) (s : State σ) :
    ∃ outcome, (engine.runCourse limit env).Gives outcome ∧
      ((runWithin engine limit env).perform s).1 = outcome.result env := by
  obtain ⟨service, hservice⟩ := engine.exists_service
  obtain ⟨outcome, asked, hresult, hsteps, -⟩ := schedules_run hservice limit env s
  exact ⟨outcome, hsteps.gives, hresult⟩

/-- The results that a routine cannot do without: those of all routines in its list, or of one of its
branches. -/
def needs (P : Value → Prop) : Body → Prop
  | .branch _ whenTrue whenFalse => P whenTrue ∨ P whenFalse
  | .compose names | .join names => ∀ name ∈ names, P (.str name)
  | _ => True

/-- Where the outcome of a routine comes from: an error of its own, which is never one of the limit, the error
of a routine that it refers to, or the results of such routines. -/
inductive Arises (courses : Courses) (body : Body) : Outcome → Prop
  | own {e : RunError} (h : ¬e.AtLimit) : Arises courses body (.error e)
  | called {target given : Value} {e : RunError} (hreferred : target ∈ body.references)
      (hgives : (courses target given).Gives (.error e)) : Arises courses body (.error e)
  | passed {result : Environment × Trace}
      (h : needs (fun target => ∃ given result, (courses target given).Gives (.ok result)) body) :
      Arises courses body (.ok result)

section Bodies

variable {engine : Engine σ} {courses : Courses} {name : String} {given : Value} {outcome : Outcome}

theorem arises_generate {dev user : Value} {tags : Mapping String Value} {r : Request}
    {k : Environment → Course} (hk : ∀ generated, ∃ result, k generated = .done (.ok result))
    (h : (generateCourse engine name r k).Gives outcome) :
    Arises courses (.prompt dev user tags) outcome := by
  unfold generateCourse at h
  cases hservice : engine.service with
  | none =>
    rw [hservice] at h
    obtain rfl : outcome = _ := h
    exact .own nofun
  | some service =>
    rw [hservice] at h
    obtain ⟨answer, h⟩ := h
    obtain ⟨e, he, rfl⟩ | ⟨generated, -, h⟩ := gives_proceed.mp h
    · obtain ⟨message, rfl⟩ := outputsOf_eq_error he
      exact .own nofun
    · obtain ⟨result, hresult⟩ := hk generated
      rw [hresult] at h
      obtain rfl : outcome = _ := h
      exact .passed trivial

theorem arises_check {α : Type} {body : Body} {r : Except Cause α} {k : α → Course}
    (hk : ∀ a, (k a).Gives outcome → Arises courses body outcome) (h : (check r k).Gives outcome) :
    Arises courses body outcome := by
  obtain ⟨cause, -, rfl⟩ | ⟨a, -, h⟩ := gives_check.mp h
  · exact .own nofun
  · exact hk a h

theorem arises_branch {initial : Environment} {condition whenTrue whenFalse : Value}
    (h : (branchCourse courses name initial condition whenTrue whenFalse given).Gives outcome) :
    Arises courses (.branch condition whenTrue whenFalse) outcome := by
  refine arises_check ?_ h
  intro taken h
  cases hempty : (if taken then whenTrue else whenFalse).isEmpty with
  | true =>
    simp only [hempty, ↓reduceIte] at h
    obtain rfl : outcome = _ := h
    exact .own nofun
  | false =>
    simp only [hempty, Bool.false_eq_true, ↓reduceIte] at h
    obtain ⟨e, he, rfl⟩ | ⟨result, hresult, h⟩ := gives_andThen.mp h
    · exact .called (Body.taken_mem_references hempty) he
    · obtain rfl : outcome = _ := h
      cases taken
      · exact .passed (.inr ⟨given, result, hresult⟩)
      · exact .passed (.inl ⟨given, result, hresult⟩)

theorem Arises.compose_cons {step : String} {steps : List String} {result : Environment × Trace}
    (hstep : (courses (.str step) given).Gives (.ok result)) (h : Arises courses (.compose steps) outcome) :
    Arises courses (.compose (step :: steps)) outcome := by
  cases h with
  | own he => exact .own he
  | called hreferred hgives => exact .called (List.mem_cons_of_mem _ hreferred) hgives
  | passed hsteps => exact .passed (List.forall_mem_cons.mpr ⟨⟨given, result, hstep⟩, hsteps⟩)

theorem arises_steps {steps : List String} {k : Environment → List Trace → Course}
    (hk : ∀ final traces, ∃ result, k final traces = .done (.ok result))
    (h : (stepsCourse courses steps given k).Gives outcome) : Arises courses (.compose steps) outcome := by
  induction steps generalizing given k with
  | nil =>
    refine arises_check ?_ h
    intro env h
    obtain ⟨result, hresult⟩ := hk env []
    rw [hresult] at h
    obtain rfl : outcome = _ := h
    exact .passed (by simp [needs])
  | cons step steps ih =>
    obtain ⟨e, he, rfl⟩ | ⟨first, hfirst, h⟩ := gives_andThen.mp h
    · exact .called List.mem_cons_self he
    · exact .compose_cons hfirst (ih (fun final traces => hk final _) h)

theorem arises_each {branches : List String} {k : List (Environment × Trace) → Course}
    (hk : ∀ results, ∃ result, k results = .done (.ok result))
    (h : (eachCourse courses given branches k).Gives outcome) : Arises courses (.join branches) outcome := by
  induction branches generalizing k with
  | nil =>
    obtain ⟨result, hresult⟩ := hk []
    rw [eachCourse, hresult] at h
    obtain rfl : outcome = _ := h
    exact .passed (by simp [needs])
  | cons branch branches ih =>
    obtain ⟨e, he, rfl⟩ | ⟨first, hfirst, h⟩ := gives_andThen.mp h
    · exact .called List.mem_cons_self he
    · cases ih (fun others => hk _) h with
      | own he => exact .own he
      | called hreferred hgives => exact .called (List.mem_cons_of_mem _ hreferred) hgives
      | passed hothers => exact .passed (List.forall_mem_cons.mpr ⟨⟨given, first, hfirst⟩, hothers⟩)

theorem arises_branches {parallel : Bool} {branches : List String}
    {k : List (Environment × Trace) → Course} (hk : ∀ results, ∃ result, k results = .done (.ok result))
    (h : (branchesCourse courses parallel given branches k).Gives outcome) :
    Arises courses (.join branches) outcome := by
  unfold branchesCourse at h
  split at h
  · obtain ⟨outcomes, hbranches, h⟩ := h
    obtain ⟨e, he, rfl⟩ | ⟨results, hresults, h⟩ := gives_proceed.mp h
    · obtain ⟨c, hc, hgives⟩ := hbranches.exists_branch (error_mem_of_collect_eq_error he)
      obtain ⟨branch, hbranch, rfl⟩ := List.mem_map.mp hc
      exact .called (List.mem_map_of_mem hbranch) hgives
    · obtain ⟨result, hresult⟩ := hk results
      rw [hresult] at h
      obtain rfl : outcome = _ := h
      refine .passed fun branch hbranch => ?_
      obtain ⟨outcome, houtcome, hgives⟩ :=
        hbranches.exists_outcome (List.mem_map_of_mem (f := fun branch => courses (.str branch) given) hbranch)
      rw [eq_of_collect_eq_ok hresults] at houtcome
      obtain ⟨result, -, rfl⟩ := List.mem_map.mp houtcome
      exact ⟨given, result, hgives⟩
  · exact arises_each hk h

theorem arises_body [CharNames] {r : Routine} (h : (bodyCourse engine courses name r given).Gives outcome) :
    Arises courses r.body outcome := by
  unfold bodyCourse at h
  cases hbody : r.body with
  | prompt dev user tags =>
    rw [hbody] at h
    refine arises_check (fun initial h => arises_check (fun text h => ?_) h) h
    exact arises_generate (fun generated => ⟨_, rfl⟩) h
  | code code =>
    rw [hbody] at h
    refine arises_check (fun initial h => ?_) h
    obtain rfl : outcome = _ := h
    exact .passed trivial
  | define specs =>
    rw [hbody] at h
    refine arises_check (fun initial h => arises_check (fun env h => ?_) h) h
    obtain rfl : outcome = _ := h
    exact .passed trivial
  | branch condition whenTrue whenFalse =>
    rw [hbody] at h
    exact arises_check (fun initial h => arises_branch h) h
  | compose steps =>
    rw [hbody] at h
    exact arises_steps (fun final traces => ⟨_, rfl⟩) h
  | join branches =>
    rw [hbody] at h
    exact arises_branches (fun results => ⟨_, rfl⟩) h
  | unknown kind raw =>
    rw [hbody] at h
    obtain rfl : outcome = _ := h
    exact .own nofun

/-- An outcome of an execution is one of the body of its routine, which is found; or an error of its own. -/
theorem arises_course [CharNames] {limit : Nat} {name : Value}
    (h : (engine.course (limit + 1) name given).Gives outcome) :
    (∃ e, outcome = .error e ∧ ¬e.AtLimit) ∨
      ∃ r, engine.program.find? name = some r ∧ Arises (engine.course limit) r.body outcome := by
  unfold course at h
  cases hfind : engine.program.find? name with
  | none =>
    rw [hfind] at h
    exact .inl ⟨_, h, id⟩
  | some r =>
    rw [hfind] at h
    obtain ⟨e, he, rfl⟩ | ⟨⟨outputs, trace⟩, hresult, h⟩ := gives_andThen.mp h
    · exact .inr ⟨r, rfl, arises_body he⟩
    · obtain ⟨cause, -, rfl⟩ | ⟨keys, -, h⟩ := gives_check.mp h
      · exact .inl ⟨_, rfl, id⟩
      · obtain rfl : outcome = _ := h
        exact .inr ⟨r, rfl, arises_body hresult⟩

/-- A run ends as the execution of its main routine does, up to the name of the limit's error; or by an error
that has nothing to do with the limit. -/
theorem gives_runCourse [CharNames] {limit : Nat} {env : Environment} (h : (engine.runCourse limit env).Gives outcome) :
    (∃ e, outcome = .error e ∧ ¬e.AtLimit) ∨
      ∃ first, (engine.course limit engine.program.main (.map env)).Gives first ∧
        outcome = first.mapError (mainError engine.program.main) := by
  have hmain : ∀ {outcome}, (engine.mainCourse limit env).Gives outcome →
      (∃ e, outcome = .error e ∧ ¬e.AtLimit) ∨
        ∃ first, (engine.course limit engine.program.main (.map env)).Gives first ∧
          outcome = first.mapError (mainError engine.program.main) := by
    intro outcome h
    unfold mainCourse at h
    simp only at h
    split at h
    · exact .inl ⟨_, h, nofun⟩
    · split at h
      · exact .inl ⟨_, h, nofun⟩
      · obtain ⟨cause, -, rfl⟩ | ⟨keys, -, h⟩ := gives_check.mp h
        · exact .inl ⟨_, rfl, nofun⟩
        · obtain ⟨first, hfirst, h⟩ := gives_bind.mp h
          exact .inr ⟨first, hfirst, h⟩
  obtain ⟨e, he, rfl⟩ | ⟨⟨outputs, trace⟩, hresult, h⟩ := gives_andThen.mp h
  · exact hmain he
  · obtain ⟨cause, -, rfl⟩ | ⟨keys, -, h⟩ := gives_check.mp h
    · exact .inl ⟨_, rfl, nofun⟩
    · obtain rfl : outcome = _ := h
      exact hmain hresult

end Bodies

end Engine

end RoutineFlow
