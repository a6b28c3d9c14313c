import RoutineFlow.Proofs.FiniteDocuments
import RoutineFlow.Proofs.FiniteEvaluation
import RoutineFlow.Proofs.Invariants

/-!
Where a program, its inputs and all answers of the service hold finite numbers only, so does the result of a run.
-/

namespace RoutineFlow

namespace Engine

open Course

variable {σ : Type} {engine : Engine σ}

/-- The outputs of an execution and all that its trace shows hold finite numbers only. -/
def FiniteResult (result : Environment × Trace) : Prop :=
  result.1.Finite ∧ result.2.toDocument.Finite

abbrev EnsuresFinite (c : Course) : Prop :=
  c.Ensures (Yields Value.Finite) FiniteResult

theorem finite_initialOutputs (names : List String) {given : Value} (h : given.Finite) :
    Yields Environment.Finite (initialOutputs names given) := by
  refine (h.toVariables names).map fun env henv => ?_
  refine List.foldlRecOn names _ Mapping.each_nil fun outputs houtputs name _ => ?_
  split
  · exact houtputs.insert (Key.finite_text name) (henv.of_get? ‹_›)
  · exact houtputs

theorem finite_define {specs : Mapping String OutputSpec} {initial env : Environment}
    (hspecs : ∀ field ∈ specs, field.2.toDocument.Finite) (hinitial : initial.Finite) (henv : env.Finite) :
    Environment.Finite (define initial specs env) := by
  unfold define
  induction specs generalizing initial with
  | nil => exact hinitial
  | cons spec specs ih =>
    obtain ⟨hspec, hrest⟩ := List.forall_mem_cons.mp hspecs
    apply ih hrest
    dsimp only
    split
    · exact hinitial.insert (Key.finite_text _) (OutputSpec.finite_defined? henv hspec ‹_›)
    · exact hinitial

theorem finite_codeOutputs [CharNames] (name : String) {initial : Environment} (code : Value) {given : Value}
    (hinitial : initial.Finite) (hgiven : given.Finite) :
    Environment.Finite (codeOutputs name initial code given) := by
  unfold codeOutputs
  split
  · exact hinitial.merge (Expr.finite_outputs name code hgiven _ ‹_›)
  · exact hinitial.insert (Key.finite_text _) (.str _)

theorem finite_outputsOf (name : String) {answer : Except ServiceFailure Value} (h : Yields Value.Finite answer) :
    Yields Environment.Finite (outputsOf name answer) := by
  intro outputs houtputs
  exact Value.finite_map.mp (h _ (outputsOf_eq_ok.mp houtputs))

theorem ensures_generate (name : String) (r : Request) {k : Environment → Course}
    (hk : ∀ generated, Environment.Finite generated → EnsuresFinite (k generated)) :
    EnsuresFinite (generateCourse engine name r k) := by
  unfold generateCourse
  split
  · exact .error _
  · exact .ask fun answer hanswer => .proceed (finite_outputsOf name hanswer) hk

section Compounds

variable {courses : Courses} (hcourses : ∀ name given, given.Finite → EnsuresFinite (courses name given))
  {given : Value} (hgiven : given.Finite)

include hcourses hgiven

theorem ensures_branch (name : String) {initial : Environment} (hinitial : initial.Finite)
    (condition whenTrue whenFalse : Value) :
    EnsuresFinite (branchCourse courses name initial condition whenTrue whenFalse given) := by
  refine .check Yields.trivial fun taken _ => ?_
  generalize (if taken then whenTrue else whenFalse) = target
  dsimp only
  split
  · exact .error _
  · refine (hcourses _ _ hgiven).andThen ?_
    rintro ⟨outputs, sub⟩ ⟨houtputs, hsub⟩
    have hmerged : Environment.Finite _ := hinitial.merge houtputs
    exact .ok ⟨hmerged, Trace.finite_branch hgiven hmerged taken hsub⟩

theorem ensures_steps (steps : List String) {k : Environment → List Trace → Course}
    (hk : ∀ final traces, Environment.Finite final → (∀ t ∈ traces, t.toDocument.Finite) →
      EnsuresFinite (k final traces)) : EnsuresFinite (stepsCourse courses steps given k) := by
  induction steps generalizing given k with
  | nil => exact .check hgiven.toMapping fun env henv => hk env [] henv nofun
  | cons step steps ih =>
    refine (hcourses _ _ hgiven).andThen ?_
    rintro ⟨outputs, trace⟩ ⟨houtputs, htrace⟩
    refine ih (Value.finite_map.mpr houtputs) fun final traces hfinal htraces => ?_
    exact hk final (trace :: traces) hfinal (List.forall_mem_cons.mpr ⟨htrace, htraces⟩)

theorem ensures_each (branches : List String) {k : List (Environment × Trace) → Course}
    (hk : ∀ results, (∀ result ∈ results, FiniteResult result) → EnsuresFinite (k results)) :
    EnsuresFinite (eachCourse courses given branches k) := by
  induction branches generalizing k with
  | nil => exact hk [] nofun
  | cons branch branches ih =>
    refine (hcourses _ _ hgiven).andThen fun first hfirst => ?_
    exact ih fun others hothers => hk _ (List.forall_mem_cons.mpr ⟨hfirst, hothers⟩)

theorem ensures_branches (parallel : Bool) (branches : List String) {k : List (Environment × Trace) → Course}
    (hk : ∀ results, (∀ result ∈ results, FiniteResult result) → EnsuresFinite (k results)) :
    EnsuresFinite (branchesCourse courses parallel given branches k) := by
  unfold branchesCourse
  split
  · apply Ensures.fork
    · intro branch hbranch
      obtain ⟨name, -, rfl⟩ := List.mem_map.mp hbranch
      exact hcourses _ _ hgiven
    · intro outcomes houtcomes
      refine .proceed (Q := fun results => ∀ result ∈ results, FiniteResult result) ?_ hk
      intro results hresults result hresult
      apply houtcomes (.ok result) _ result rfl
      rw [eq_of_collect_eq_ok hresults]
      exact List.mem_map_of_mem hresult
  · exact ensures_each hcourses hgiven branches hk

theorem ensures_body [CharNames] (name : String) {r : Routine} (hr : r.toDocument.Finite) :
    EnsuresFinite (bodyCourse engine courses name r given) := by
  have hinitial := finite_initialOutputs r.passthrough hgiven
  have hfields := fun hknown => Routine.finite_fields hr hknown
  unfold bodyCourse
  cases hbody : r.body with
  | prompt dev user tags =>
    simp only [hbody, Body.fields, List.forall_mem_cons] at hfields
    have hdev := (hfields (by simp)).1
    refine .check hinitial fun initial hinitial => .check Yields.trivial fun text _ => ?_
    refine ensures_generate name _ fun generated hgenerated => ?_
    have hmerged : Environment.Finite _ := hinitial.merge hgenerated
    exact .ok ⟨hmerged, Trace.finite_prompt hgiven hmerged hdev text⟩
  | code code =>
    refine .check hinitial fun initial hinitial => ?_
    have hcode := finite_codeOutputs name code hinitial hgiven
    exact .ok ⟨hcode, Trace.finite_code hgiven hcode⟩
  | define specs =>
    have hspecs : ∀ field ∈ specs, field.2.toDocument.Finite := by
      simp only [hbody, Body.fields, List.forall_mem_cons, Value.finite_record] at hfields
      exact fun field hfield => (hfields (by simp)).1 _ (List.mem_map_of_mem hfield)
    refine .check hinitial fun initial hinitial => .check (hgiven.toVariables _) fun env henv => ?_
    have hdefined := finite_define hspecs hinitial henv
    exact .ok ⟨hdefined, Trace.finite_define hgiven hdefined⟩
  | branch condition whenTrue whenFalse =>
    exact .check hinitial fun initial hinitial =>
      ensures_branch hcourses hgiven name hinitial condition whenTrue whenFalse
  | compose steps =>
    exact ensures_steps hcourses hgiven steps fun final traces hfinal htraces =>
      .ok ⟨hfinal, Trace.finite_compose hgiven hfinal htraces⟩
  | join branches =>
    refine ensures_branches hcourses hgiven engine.isParallel branches fun results hresults => ?_
    have hjoined : Environment.Finite (results.foldl (fun merged result => Mapping.merge merged result.1) []) :=
      List.foldlRecOn results _ Mapping.each_nil fun merged hmerged result hresult =>
        hmerged.merge (hresults result hresult).1
    refine .ok ⟨hjoined, Trace.finite_join hgiven hjoined ?_⟩
    intro sub hsub
    obtain ⟨result, hresult, rfl⟩ := List.mem_map.mp hsub
    exact (hresults result hresult).2
  | unknown kind raw => exact .error _

end Compounds

theorem ensures_reported {c : Course} (h : EnsuresFinite c) : EnsuresFinite (reported c) :=
  h.andThen fun _ hresult => .check Yields.trivial fun _ _ => .ok hresult

section Runs

variable (hprogram : engine.program.toDocument.Finite)

include hprogram

/-- An execution on a finite value comes to a finite result: the invariant of every routine, of whatever kind. -/
theorem ensures_course [CharNames] (limit : Nat) (name : Value) {given : Value} (hgiven : given.Finite) :
    EnsuresFinite (engine.course limit name given) := by
  induction limit generalizing name given with
  | zero => exact .error _
  | succ limit ih =>
    unfold course
    split
    · exact .error _
    · rename_i r hfind
      exact ensures_reported (ensures_body (fun name given hgiven => ih name hgiven) hgiven _
        (Program.finite_find? hprogram hfind))

theorem ensures_runCourse [CharNames] (limit : Nat) {env : Environment} (henv : env.Finite) :
    EnsuresFinite (engine.runCourse limit env) := by
  apply ensures_reported
  unfold mainCourse
  dsimp only
  split
  · exact .error _
  split
  · exact .error _
  refine .check Yields.trivial fun keys _ => ?_
  exact (ensures_course hprogram limit _ (Value.finite_map.mpr henv)).bind fun outcome houtcome =>
    .done houtcome.mapError

end Runs

/-- From a finite document, finite inputs and finite answers comes a result that holds finite numbers only, by the run of
an engine and by every other schedule of its branches; and so does what code comes to under finite bindings. -/
theorem numbers_stay_finite [CharNames] (engine : Engine σ) {document : Value}
    (hload : Program.ofDocument document = .ok engine.program)
    (hdocument : document.Finite) (service : Service σ) (hservice : ∀ given ∈ engine.service, given = service)
    {env : Environment} (henv : env.Finite) (limit : Nat) (s : State σ) :
    (∀ asked result final, (engine.runWithin limit env).perform s = (.ok result, final) →
      final.requests = s.requests ++ asked →
      (∀ answer ∈ service.replies s.service asked, Yields Value.Finite answer) →
      Emit.FiniteIn engine.program result) ∧
    (∀ asked outputs trace final,
      Steps service (engine.runCourse limit env) s.service asked (.done (.ok (outputs, trace))) final →
      (∀ answer ∈ service.replies s.service asked, Yields Value.Finite answer) →
      Emit.FiniteIn engine.program ⟨env, outputs, trace⟩) ∧
    ∀ code e bindings v, Expr.parse code = .ok e → Environment.Finite bindings → Expr.eval bindings e = .ok v →
      v.Finite := by
  have hprogram := Program.finite_ofDocument hdocument _ hload
  have hcourse := ensures_runCourse hprogram limit henv
  have hschedules : ∀ asked outputs trace final,
      Steps service (engine.runCourse limit env) s.service asked (.done (.ok (outputs, trace))) final →
      (∀ answer ∈ service.replies s.service asked, Yields Value.Finite answer) →
      Emit.FiniteIn engine.program ⟨env, outputs, trace⟩ :=
    fun _ _ _ _ hsteps hanswers =>
      have hresult := hsteps.ensures hcourse hanswers _ rfl
      Emit.finiteIn hprogram henv hresult.1 hresult.2
  refine ⟨?_, hschedules, fun code e _ v _ hbindings hv => Expr.finite_eval hbindings e v hv⟩
  intro asked result final hrun hrequests hanswers
  obtain ⟨outcome, asked', hresult, hsteps, hasked⟩ := schedules_run hservice limit env s
  rw [hrun] at hresult hsteps hasked
  rw [hrequests] at hasked
  obtain rfl := List.append_cancel_left hasked
  cases outcome with
  | error e => cases hresult
  | ok both =>
    obtain rfl := Except.ok.inj hresult
    exact hschedules _ _ _ _ hsteps hanswers

/-- A program that asks for a height and gives it with a unit. -/
def measuring (unit : Float) : Program where
  routines := [
    ("main", ⟨.null, [], .compose ["ask", "note"]⟩),
    ("ask", ⟨.null, [], .prompt (.str "") (.str "How high?") [("height", .str "number")]⟩),
    ("note", ⟨.null, [], .define [("top", .reference (.str "height")),
      ("unit", .literal (.str "number") (some (.num (.float unit))) false)]⟩)]
  main := .str "main"
  doc := .null

def measuringEngine (unit : Float) : Engine (List Service.Step) := ⟨measuring unit, some Service.scripted, 1⟩

def heightOutputs (height : Float) : Environment := [("height", .num (.float height))]

def measuredOutputs (unit height : Float) : Environment :=
  [("top", .num (.float height)), ("unit", .num (.float unit))]

def measuredTrace (unit height : Float) : Trace :=
  .compose ⟨"main", .map [], measuredOutputs unit height⟩ [
    .prompt ⟨"ask", .map [], heightOutputs height⟩ (.str "") "How high?",
    .define ⟨"note", .map (heightOutputs height), measuredOutputs unit height⟩]

def measuringRequest : Request := ⟨.str "", "How high?", [("height", .str "number")]⟩

def measuringStart (height : Float) : State (List Service.Step) :=
  ⟨[.give (.map (heightOutputs height))], [], ⟨false, []⟩⟩

theorem measuring_run [CharNames] (unit height : Float) :
    ((measuringEngine unit).runWithin 2 []).perform (measuringStart height) =
      (.ok ⟨[], measuredOutputs unit height, measuredTrace unit height⟩,
        ⟨[.give (.map (heightOutputs height))], [measuringRequest], ⟨false, []⟩⟩) := by
  cbv

theorem parse_height : Expr.parse "height" = .ok (.name "height") := by
  cbv

theorem measuring_finite :
    Emit.FiniteIn (measuring 0.5) ⟨[], measuredOutputs 0.5 2.5, measuredTrace 0.5 2.5⟩ ∧
      (Value.num (.float 2.5)).Finite := by
  have hunit : Number.isFinite 0.5 = true := by decide
  have hheight : Number.isFinite 2.5 = true := by decide
  have hload : Program.ofDocument (measuring 0.5).toDocument = .ok (measuring 0.5) := rfl
  have hdocument : (measuring 0.5).toDocument.Finite := by
    simp [measuring, Program.toDocument, Routine.toDocument, Routine.docField, Body.fields, Body.namesDocument,
      Mapping.mapValues, OutputSpec.toDocument, Number.Finite, hunit]
  have hgiven : Environment.Finite (heightOutputs 2.5) :=
    Mapping.each_cons.mpr ⟨⟨Key.finite_text _, Value.finite_num.mpr hheight⟩, Mapping.each_nil⟩
  have hinputs : Environment.Finite [] := Mapping.each_nil
  obtain ⟨hruns, -, hcode⟩ := numbers_stay_finite (measuringEngine 0.5) hload hdocument .scripted (by simp [measuringEngine])
    hinputs 2 (measuringStart 2.5)
  refine ⟨hruns [measuringRequest] _ _ (measuring_run 0.5 2.5) rfl ?_, hcode _ _ _ _ parse_height hgiven rfl⟩
  simpa [Service.replies, measuringStart, Service.scripted, Service.Step.result, Yields] using hgiven

end Engine

end RoutineFlow
