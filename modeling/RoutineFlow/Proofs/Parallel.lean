import RoutineFlow.Proofs.Schedule

/-!
When calls are answered by their requests alone, it makes no difference whether branches run at a time or one
after another, nor how deep executions may nest as long as that is deep enough.
-/

namespace RoutineFlow

namespace Course

variable (answer : Request → Except ServiceFailure Value)

/-- The outcomes are the same, and results come by the same calls. -/
def Agrees (c c' : Course) : Prop :=
  c'.value answer = c.value answer ∧ ∀ result, c.value answer = .ok result → c'.calls answer = c.calls answer

/-- The courses agree unless the first one comes to the limit. -/
def Extends (c c' : Course) : Prop :=
  c.value answer ≠ .error .exhausted → Agrees answer c c'

variable {answer} {c c' : Course}

theorem Agrees.refl (c : Course) : Agrees answer c c :=
  ⟨rfl, fun _ _ => rfl⟩

theorem Agrees.bind {k : Outcome → Course} (h : Agrees answer c c')
    (hk : ∀ e result, (k (.error e)).value answer ≠ .ok result) :
    Agrees answer (c.bind k) (c'.bind k) := by
  obtain ⟨hvalue, hcalls⟩ := h
  rw [Agrees, value_bind, value_bind, calls_bind, calls_bind, hvalue]
  refine ⟨rfl, fun result hresult => ?_⟩
  cases hc : c.value answer with
  | ok first => rw [hcalls first hc]
  | error e =>
    rw [hc] at hresult
    exact absurd hresult (hk e result)

theorem Extends.refl (c : Course) : Extends answer c c :=
  fun _ => .refl c

theorem Extends.proceed {α : Type} {k k' : α → Course} (h : ∀ a, Extends answer (k a) (k' a))
    (r : Except RunError α) : Extends answer (proceed r k) (proceed r k') := by
  cases r with
  | ok a => exact h a
  | error e => exact .refl _

theorem Extends.check {α : Type} {k k' : α → Course} (h : ∀ a, Extends answer (k a) (k' a))
    (r : Except Cause α) : Extends answer (check r k) (check r k') :=
  .proceed h _

theorem ne_exhausted_of_proceed {α : Type} {r : Except RunError α} {k : α → Course}
    (h : (Course.proceed r k).value answer ≠ .error .exhausted) : r ≠ .error .exhausted := by
  intro hexhausted
  rw [hexhausted] at h
  exact h rfl

theorem Extends.andThen {k k' : Environment × Trace → Course} (h : Extends answer c c')
    (hk : ∀ result, Extends answer (k result) (k' result)) :
    Extends answer (c.andThen k) (c'.andThen k') := by
  intro hlimit
  rw [value_andThen] at hlimit
  obtain ⟨hvalue, hcalls⟩ := h (ne_exhausted_of_proceed hlimit)
  obtain ⟨hvalue', hcalls'⟩ := Extends.proceed hk (c.value answer) hlimit
  rw [Agrees, value_andThen, value_andThen, calls_andThen, calls_andThen, hvalue]
  refine ⟨hvalue', fun result hresult => ?_⟩
  rw [hcalls' result hresult]
  cases hc : c.value answer with
  | ok first => rw [hcalls first hc]
  | error e =>
    rw [hc] at hresult
    cases hresult

end Course

namespace Engine

open Course

variable {σ : Type} {answer : Request → Except ServiceFailure Value}

theorem proceed_map {α β : Type} (r : Except RunError α) (f : α → β) (k : β → Course) :
    proceed (r.map f) k = proceed r fun a => k (f a) := by
  cases r <;> rfl

section Branches

variable (answer) (courses : Courses) (given : Value)

def outcomesOf (branches : List String) : List Outcome :=
  branches.map fun branch => (courses (.str branch) given).value answer

def callsOf (branches : List String) : List Request :=
  branches.flatMap fun branch => (courses (.str branch) given).calls answer

theorem outcomesOf_cons (branch : String) (branches : List String) :
    outcomesOf answer courses given (branch :: branches) =
      (courses (.str branch) given).value answer :: outcomesOf answer courses given branches := rfl

theorem callsOf_cons (branch : String) (branches : List String) :
    callsOf answer courses given (branch :: branches) =
      (courses (.str branch) given).calls answer ++ callsOf answer courses given branches := rfl

theorem value_each (branches : List String) (k : List (Environment × Trace) → Course) :
    (eachCourse courses given branches k).value answer =
      (proceed (collect (outcomesOf answer courses given branches)) k).value answer := by
  induction branches generalizing k with
  | nil => rfl
  | cons branch branches ih =>
    rw [eachCourse, value_andThen, outcomesOf_cons]
    cases (courses (.str branch) given).value answer with
    | error e => rfl
    | ok first =>
      rw [collect_ok, proceed_map]
      exact ih _

theorem value_branches (parallel : Bool) (branches : List String)
    (k : List (Environment × Trace) → Course) :
    (branchesCourse courses parallel given branches k).value answer =
      (proceed (collect (outcomesOf answer courses given branches)) k).value answer := by
  unfold branchesCourse
  split
  · rw [value, values_eq_map, List.map_map]
    rfl
  · exact value_each answer courses given branches k

variable {branches : List String} {results : List (Environment × Trace)}
  (k : List (Environment × Trace) → Course)

theorem calls_each (h : collect (outcomesOf answer courses given branches) = .ok results) :
    (eachCourse courses given branches k).calls answer =
      callsOf answer courses given branches ++ (k results).calls answer := by
  induction branches generalizing results k with
  | nil =>
    cases h
    rfl
  | cons branch branches ih =>
    rw [outcomesOf_cons] at h
    obtain ⟨first, others, hfirst, hothers, rfl⟩ := collect_cons_eq_ok.mp h
    rw [eachCourse, calls_andThen, hfirst, callsOf_cons, List.append_assoc]
    congr 1
    exact ih (fun others => k (first :: others)) hothers

theorem calls_branches (parallel : Bool)
    (h : collect (outcomesOf answer courses given branches) = .ok results) :
    (branchesCourse courses parallel given branches k).calls answer =
      callsOf answer courses given branches ++ (k results).calls answer := by
  unfold branchesCourse
  split
  · have hvalues : (branches.map fun branch => courses (.str branch) given).map (value answer) =
        outcomesOf answer courses given branches := List.map_map
    rw [calls, callsAll_eq_flatMap, values_eq_map, hvalues, h, List.flatMap_map]
    rfl
  · exact calls_each answer courses given k h

end Branches

section Extensions

variable {courses courses' : Courses} {given : Value}
  (hcourses : ∀ name given, Extends answer (courses name given) (courses' name given))

include hcourses

/-- Branches up to the first failure agree, and those after it do not matter. -/
theorem collect_extends {branches : List String}
    (h : collect (outcomesOf answer courses given branches) ≠ .error .exhausted) :
    collect (outcomesOf answer courses' given branches) = collect (outcomesOf answer courses given branches) ∧
      ∀ results, collect (outcomesOf answer courses given branches) = .ok results →
        callsOf answer courses' given branches = callsOf answer courses given branches := by
  induction branches with
  | nil => exact ⟨rfl, fun _ _ => rfl⟩
  | cons branch branches ih =>
    rw [outcomesOf_cons] at h
    have hfirst : (courses (.str branch) given).value answer ≠ .error .exhausted := by
      intro hexhausted
      rw [hexhausted] at h
      exact h rfl
    obtain ⟨hvalue, hcalls⟩ := hcourses (.str branch) given hfirst
    rw [outcomesOf_cons, outcomesOf_cons, hvalue]
    cases hresult : (courses (.str branch) given).value answer with
    -- the first failure wins in both, whatever the branches after it do
    | error e => exact ⟨rfl, fun results hresults => by cases hresults⟩
    | ok first =>
      rw [hresult, collect_ok] at h
      have hrest : collect (outcomesOf answer courses given branches) ≠ .error .exhausted := by
        intro hexhausted
        rw [hexhausted] at h
        exact h rfl
      obtain ⟨hvalues, hothers⟩ := ih hrest
      rw [collect_ok, collect_ok, hvalues]
      refine ⟨rfl, fun results hresults => ?_⟩
      rw [← collect_ok] at hresults
      obtain ⟨_, others, -, hrest', -⟩ := collect_cons_eq_ok.mp hresults
      rw [callsOf_cons, callsOf_cons, hcalls first hresult, hothers others hrest']

theorem branches_extends (parallel parallel' : Bool) (branches : List String)
    {k k' : List (Environment × Trace) → Course} (hk : ∀ results, Extends answer (k results) (k' results)) :
    Extends answer (branchesCourse courses parallel given branches k)
      (branchesCourse courses' parallel' given branches k') := by
  intro hlimit
  rw [value_branches] at hlimit
  obtain ⟨hvalues, hcalls⟩ := collect_extends hcourses (ne_exhausted_of_proceed hlimit)
  rw [Agrees, value_branches, value_branches, hvalues]
  cases hresults : collect (outcomesOf answer courses given branches) with
  | error e => exact ⟨rfl, fun result hresult => by cases hresult⟩
  | ok results =>
    rw [hresults] at hlimit hvalues
    obtain ⟨hvalue, hcalls'⟩ := hk results hlimit
    refine ⟨hvalue, fun result hresult => ?_⟩
    rw [calls_branches answer courses given k parallel hresults,
      calls_branches answer courses' given k' parallel' hvalues, hcalls results hresults,
      hcalls' result hresult]

theorem steps_extends (steps : List String) (given : Value) {k k' : Environment → List Trace → Course}
    (hk : ∀ final traces, Extends answer (k final traces) (k' final traces)) :
    Extends answer (stepsCourse courses steps given k) (stepsCourse courses' steps given k') := by
  induction steps generalizing given k k' with
  | nil => exact .check (fun env => hk env []) _
  | cons step steps ih =>
    apply (hcourses _ given).andThen
    rintro ⟨outputs, trace⟩
    exact ih _ fun final traces => hk final (trace :: traces)

theorem body_extends [CharNames] {engine engine' : Engine σ} (hservice : engine'.service = engine.service)
    (name : String) (r : Routine) (given : Value) :
    Extends answer (bodyCourse engine courses name r given) (bodyCourse engine' courses' name r given) := by
  unfold bodyCourse
  cases r.body with
  | prompt dev user tags =>
    apply Extends.check
    intro initial
    apply Extends.check
    intro text
    unfold generateCourse
    rw [hservice]
    exact .refl _
  | code code => exact .refl _
  | define specs => exact .refl _
  | branch condition whenTrue whenFalse =>
    apply Extends.check
    intro initial
    apply Extends.check
    intro taken
    cases hempty : (if taken then whenTrue else whenFalse).isEmpty with
    | true =>
      simp only [hempty, ↓reduceIte]
      exact .refl _
    | false =>
      simp only [hempty, Bool.false_eq_true, ↓reduceIte]
      exact (hcourses _ given).andThen fun _ => .refl _
  | compose steps => exact steps_extends hcourses steps given fun final traces => .refl _
  | join branches => exact branches_extends hcourses _ _ branches fun results => .refl _
  | unknown kind raw => exact .refl _

end Extensions

theorem reported_extends {c c' : Course} (h : Extends answer c c') :
    Extends answer (reported c) (reported c') :=
  h.andThen fun _ => .refl _

theorem value_reported_of_exhausted {c : Course} {main : Value} (h : c.value answer = .error .exhausted) :
    (reported (c.bind fun outcome => .done (outcome.mapError (mainError main)))).value answer =
      .error (.tooDeep main) := by
  rw [reported, value_andThen, value_bind, h]
  rfl

section Limits

variable {engine engine' : Engine σ} (hprogram : engine'.program = engine.program)
  (hservice : engine'.service = engine.service)

include hprogram hservice

/-- An execution that does not come to its limit is the same under a higher one, and at any number of
workers. -/
theorem course_extends [CharNames] {limit limit' : Nat} (hlimit : limit ≤ limit') (name given : Value) :
    Extends answer (engine.course limit name given) (engine'.course limit' name given) := by
  induction limit generalizing limit' name given with
  | zero => exact fun hexhausted => absurd rfl hexhausted
  | succ limit ih =>
    obtain ⟨limit', rfl⟩ := Nat.exists_eq_succ_of_ne_zero (Nat.ne_zero_of_lt hlimit)
    unfold course
    rw [hprogram]
    cases engine.program.find? name with
    | none => exact .refl _
    | some r =>
      have hcourses := fun name given => ih (Nat.le_of_succ_le_succ hlimit) name given
      exact reported_extends (body_extends hcourses hservice name.label r given)

/-- Executions agree under one limit, and under any two that they do not come to. -/
theorem course_agrees [CharNames] {limit limit' : Nat} {name given : Value}
    (hlimits : limit = limit' ∨ (engine.course limit name given).value answer ≠ .error .exhausted ∧
      (engine'.course limit' name given).value answer ≠ .error .exhausted) :
    Agrees answer (engine.course limit name given) (engine'.course limit' name given) := by
  obtain rfl | ⟨hlimit, hlimit'⟩ := hlimits
  -- under one limit each run extends the other, so they come to it together or not at all
  · by_cases hexhausted : (engine.course limit name given).value answer = .error .exhausted
    · by_cases hexhausted' : (engine'.course limit name given).value answer = .error .exhausted
      · refine ⟨hexhausted'.trans hexhausted.symm, fun result hresult => ?_⟩
        rw [hexhausted] at hresult
        cases hresult
      · obtain ⟨hvalue, -⟩ := course_extends hprogram.symm hservice.symm (Nat.le_refl _) name given hexhausted'
        exact absurd (hvalue.symm.trans hexhausted) hexhausted'
    · exact course_extends hprogram hservice (Nat.le_refl _) name given hexhausted
  -- both are extended by the run under the higher limit
  · have hextends : Extends answer (engine.course limit name given)
        (engine'.course (max limit limit') name given) :=
      course_extends hprogram hservice (Nat.le_max_left limit limit') name given
    have hextends' : Extends answer (engine'.course limit' name given)
        (engine'.course (max limit limit') name given) :=
      course_extends rfl rfl (Nat.le_max_right limit limit') name given
    obtain ⟨hvalue, hcalls⟩ := hextends hlimit
    obtain ⟨hvalue', hcalls'⟩ := hextends' hlimit'
    have hsame := hvalue'.symm.trans hvalue
    refine ⟨hsame, fun result hresult => ?_⟩
    rw [← hcalls result hresult, hcalls' result (hsame.trans hresult)]

theorem run_agrees [CharNames] {limit limit' : Nat} {env : Environment}
    (hlimits : limit = limit' ∨ (∀ main, (engine.runCourse limit env).value answer ≠ .error (.tooDeep main)) ∧
      ∀ main, (engine'.runCourse limit' env).value answer ≠ .error (.tooDeep main)) :
    Agrees answer (engine.runCourse limit env) (engine'.runCourse limit' env) := by
  unfold runCourse mainCourse at hlimits ⊢
  rw [hprogram] at hlimits ⊢
  cases hmain : engine.program.main.isEmpty with
  | true =>
    simp only [hmain, ↓reduceIte]
    exact .refl _
  | false =>
    cases hfound : (engine.program.find? engine.program.main).isNone with
    | true =>
      simp only [hmain, hfound, Bool.false_eq_true, ↓reduceIte]
      exact .refl _
    | false =>
      simp only [hmain, hfound, Bool.false_eq_true, ↓reduceIte] at hlimits ⊢
      cases hkeys : env.sortedKeys with
      | error cause => exact .refl _
      | ok keys =>
        rw [hkeys] at hlimits
        have hcourse : Agrees answer (engine.course limit engine.program.main (.map env))
            (engine'.course limit' engine.program.main (.map env)) := by
          apply course_agrees hprogram hservice
          apply hlimits.imp_right
          rintro ⟨hlimit, hlimit'⟩
          constructor
          · intro hexhausted
            exact hlimit engine.program.main (value_reported_of_exhausted hexhausted)
          · intro hexhausted
            exact hlimit' engine.program.main (value_reported_of_exhausted hexhausted)
        refine (hcourse.bind ?_).bind ?_
        · rintro e result ⟨⟩
        · rintro e result ⟨⟩

end Limits

def sequential (engine : Engine σ) : Engine σ :=
  { engine with workers := 1 }

@[simp] theorem sequential_program (engine : Engine σ) : engine.sequential.program = engine.program := rfl

@[simp] theorem sequential_service (engine : Engine σ) : engine.sequential.service = engine.service := rfl

/-- A service answers by requests alone. Then a run has the outcome of the sequential run whatever its schedule
is, and makes the same calls if it comes to a result. The limits are one, or neither run comes to its own. -/
theorem parallel_run [CharNames] (engine : Engine σ) (service : Service σ)
    (hservice : ∀ given ∈ engine.service, given = service)
    (answer : Request → Except ServiceFailure Value) (hanswer : ∀ s r, (service.answer s r).1 = answer r)
    (limit limit' : Nat) (env : Environment) (s s' : σ) (asked : List Request) (outcome : Outcome)
    (hschedule : Steps service (engine.runCourse limit env) s asked (.done outcome) s')
    (start final : State σ) (result : Except RunError Result)
    (hsequential : (runWithin engine.sequential limit' env).perform start = (result, final))
    (hlimits : limit = limit' ∨
      (∀ main, outcome ≠ .error (.tooDeep main)) ∧ ∀ main, result ≠ .error (.tooDeep main)) :
    result = outcome.result env ∧
      ∀ r, result = .ok r → ∃ called, final.requests = start.requests ++ called ∧ asked.Perm called := by
  have hservice' : ∀ given ∈ engine.sequential.service, given = service := hservice
  obtain ⟨outcome', called, hresult, hsteps, hrequests⟩ := schedules_run hservice' limit' env start
  rw [hsequential] at hresult hsteps hrequests
  obtain rfl : result = _ := hresult
  obtain ⟨rfl, hasked⟩ := hschedule.outcome hanswer
  obtain ⟨rfl, hcalled⟩ := hsteps.outcome hanswer
  have hagrees : Agrees answer (engine.runCourse limit env) (engine.sequential.runCourse limit' env) := by
    apply run_agrees (sequential_program engine) (sequential_service engine)
    apply hlimits.imp_right
    rintro ⟨hlimit, hlimit'⟩
    refine ⟨hlimit, fun main htooDeep => hlimit' main ?_⟩
    rw [htooDeep]
    rfl
  obtain ⟨hvalue, hcalls⟩ := hagrees
  rw [hvalue]
  refine ⟨rfl, fun r hr => ⟨called, hrequests, ?_⟩⟩
  cases houtcome : (engine.runCourse limit env).value answer with
  | error e =>
    rw [houtcome] at hr
    cases hr
  | ok outputs =>
    rw [hcalls outputs houtcome] at hcalled
    exact hasked.trans hcalled.symm

def sides : Program where
  routines := [
    ("main", ⟨.null, [], .join ["left", "right"]⟩),
    ("left", ⟨.null, [], .compose ["go", "go"]⟩),
    ("go", ⟨.null, [], .prompt (.str "Be brief.") (.str "Go on.") [("line", .str "string")]⟩),
    ("right", ⟨.null, [], .prompt (.str "Be brief.") (.str "Go back.") [("line", .str "string")]⟩)]
  main := .str "main"
  doc := .null

def repeating : Service Nat :=
  ⟨fun count r => (.ok (.record [("line", .str r.userMessage)]), count + 1)⟩

def repeated (r : Request) : Except ServiceFailure Value :=
  .ok (.record [("line", .str r.userMessage)])

def sidesEngine : Engine Nat := ⟨sides, some repeating, 2⟩

def sidesRequest (text : String) : Request := ⟨.str "Be brief.", text, [("line", .str "string")]⟩

def sidesLine (text : String) : Environment := [("line", .str text)]

def sidesPrompt (routine text : String) (inputs : Environment) : Trace :=
  .prompt ⟨routine, .map inputs, sidesLine text⟩ (.str "Be brief.") text

def sidesTrace : Trace :=
  .join ⟨"main", .map [], sidesLine "Go back."⟩ [
    .compose ⟨"left", .map [], sidesLine "Go on."⟩ [
      sidesPrompt "go" "Go on." [], sidesPrompt "go" "Go on." (sidesLine "Go on.")],
    sidesPrompt "right" "Go back." []]

theorem sides_run :
    ∃ outcome, Steps repeating (sidesEngine.runCourse 4 []) 0
        [sidesRequest "Go on.", sidesRequest "Go back.", sidesRequest "Go on."] (.done outcome) 3 ∧
      .ok ⟨[], sidesLine "Go back.", sidesTrace⟩ = outcome.result [] ∧
      [sidesRequest "Go on.", sidesRequest "Go back.", sidesRequest "Go on."].Perm
        [sidesRequest "Go on.", sidesRequest "Go on.", sidesRequest "Go back."] := by
  have hschedule : ∃ outcome, Steps repeating (sidesEngine.runCourse 4 []) 0
      [sidesRequest "Go on.", sidesRequest "Go back.", sidesRequest "Go on."] (.done outcome) 3 := by
    constructor
    apply Steps.step (Step.branch [] [_] _ (Step.ask (sidesRequest "Go on.") _ 0))
    apply Steps.step (Step.branch [_] [] _ (Step.ask (sidesRequest "Go back.") _ 1))
    apply Steps.step (Step.branch [] [_] _ (Step.ask (sidesRequest "Go on.") _ 2))
    apply Steps.step (Step.join [_, _] _ 3)
    exact Steps.refl _ _
  obtain ⟨outcome, hsteps⟩ := hschedule
  have hservice : ∀ given ∈ sidesEngine.service, given = repeating := by
    intro given hgiven
    exact (Option.some.inj hgiven).symm
  have hrun : (runWithin sidesEngine.sequential 4 []).perform ⟨0, [], ⟨false, []⟩⟩ =
      (.ok ⟨[], sidesLine "Go back.", sidesTrace⟩, ⟨3, [sidesRequest "Go on.", sidesRequest "Go on.",
        sidesRequest "Go back."], ⟨false, []⟩⟩) := by cbv
  obtain ⟨hresult, hcalls⟩ := parallel_run sidesEngine repeating hservice repeated (fun _ _ => rfl) 4 4 []
    0 3 _ outcome hsteps _ _ _ hrun (.inl rfl)
  obtain ⟨called, hrequests, hperm⟩ := hcalls _ rfl
  rw [List.nil_append] at hrequests
  rw [← hrequests] at hperm
  exact ⟨outcome, hsteps, hresult, hperm⟩

end Engine

end RoutineFlow
