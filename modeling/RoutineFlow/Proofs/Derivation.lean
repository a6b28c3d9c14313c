import RoutineFlow.Proofs.Execution
import RoutineFlow.Proofs.Mapping

/-!
The trace of an execution is a derivation of its outputs: each node follows from its children and its
inputs by the rule of the routine that it names. Reading a trace from the leaves to the root repeats
the execution, up to what the service answered.
-/

namespace RoutineFlow

namespace Trace

theorem walkAll_eq_flatMap (subs : List Trace) : walkAll subs = subs.flatMap walk := by
  induction subs with
  | nil => rfl
  | cons sub subs ih => rw [walkAll, ih, List.flatMap_cons]

theorem forall_mem_walkAll {P : Trace → Prop} {subs : List Trace}
    (h : ∀ sub ∈ subs, ∀ node ∈ sub.walk, P node) : ∀ node ∈ walkAll subs, P node := by
  intro node hnode
  rw [walkAll_eq_flatMap] at hnode
  obtain ⟨sub, hsub, hmem⟩ := List.mem_flatMap.mp hnode
  exact h sub hsub node hmem

/-- Each node of a row sees the outputs of the one before it; the first sees `env`, the last gives `final`. -/
def Threads : Environment → List Trace → Environment → Prop
  | env, [], final => final = env
  | env, sub :: subs, final => sub.record.inputs = .map env ∧ Threads sub.record.outputs subs final

def entries (subs : List Trace) : List (Key × Value) :=
  subs.flatMap fun sub => sub.record.outputs

theorem entries_cons (sub : Trace) (subs : List Trace) :
    entries (sub :: subs) = sub.record.outputs ++ entries subs := rfl

end Trace

namespace Engine

open Run

variable {σ : Type}

/-- The rule of each kind of routine: what a node and its children have to do with one another. Outputs of a
join have every key where the branches first give it, with the value that they give last. -/
inductive Justified [CharNames] (engine : Engine σ) : Trace → Prop
  | prompt {name : String} {r : Routine} {env generated : Environment} {dev : Value}
      {template text : String} {tags : Mapping String Value} {service : Service σ} {moment : σ}
      (found : engine.program.find? (.str name) = some r)
      (body : r.body = .prompt dev (.str template) tags)
      (filled : Template.fill template env = .ok text)
      (asked : engine.service = some service)
      (answered : (service.answer moment ⟨dev, text, tags⟩).1 = .ok (.map generated)) :
      Justified engine
        (.prompt ⟨name, .map env, Mapping.merge (passthrough r.passthrough env) generated⟩ dev text)
  | code {name : String} {r : Routine} {env : Environment} {code : Value}
      (found : engine.program.find? (.str name) = some r)
      (body : r.body = .code code) :
      Justified engine
        (.code ⟨name, .map env, codeOutputs name (passthrough r.passthrough env) code (.map env)⟩)
  | define {name : String} {r : Routine} {env : Environment} {specs : Mapping String OutputSpec}
      (found : engine.program.find? (.str name) = some r)
      (body : r.body = .define specs) :
      Justified engine (.define ⟨name, .map env, define (passthrough r.passthrough env) specs env⟩)
  | branch {name : String} {r : Routine} {env : Environment} {condition whenTrue whenFalse : Value}
      {key : Key} {taken : Bool} {sub : Trace}
      (found : engine.program.find? (.str name) = some r)
      (body : r.body = .branch condition whenTrue whenFalse)
      (named : condition.toKey = .ok key)
      (chosen : taken = ((Mapping.get? env key).getD .null).truthy)
      (target : .str sub.record.routine = if taken then whenTrue else whenFalse)
      (same : sub.record.inputs = .map env) :
      Justified engine (.branch
        ⟨name, .map env, Mapping.merge (passthrough r.passthrough env) sub.record.outputs⟩ taken sub)
  | compose {name : String} {r : Routine} {env outputs : Environment} {subs : List Trace}
      (found : engine.program.find? (.str name) = some r)
      (body : r.body = .compose (subs.map fun sub => sub.record.routine))
      (threads : Trace.Threads env subs outputs) :
      Justified engine (.compose ⟨name, .map env, outputs⟩ subs)
  | join {name : String} {r : Routine} {env outputs : Environment} {subs : List Trace}
      (found : engine.program.find? (.str name) = some r)
      (body : r.body = .join (subs.map fun sub => sub.record.routine))
      (same : ∀ sub ∈ subs, sub.record.inputs = .map env)
      (updated : outputs = Mapping.ofEntries (Trace.entries subs))
      (firsts : Mapping.keys outputs = (Mapping.keys (Trace.entries subs)).eraseDups)
      (lasts : ∀ key, Mapping.get? outputs key = (Trace.entries subs).reverse.lookup key) :
      Justified engine (.join ⟨name, .map env, outputs⟩ subs)

theorem Justified.kind_eq [CharNames] {engine : Engine σ} {node : Trace} (h : Justified engine node) :
    ∃ r, engine.program.find? (.str node.record.routine) = some r ∧ node.kind = r.body.kind := by
  cases h with
  | prompt found body => exact ⟨_, found, by rw [body]; rfl⟩
  | code found body => exact ⟨_, found, by rw [body]; rfl⟩
  | define found body => exact ⟨_, found, by rw [body]; rfl⟩
  | branch found body => exact ⟨_, found, by rw [body]; rfl⟩
  | compose found body => exact ⟨_, found, by rw [body]; rfl⟩
  | join found body => exact ⟨_, found, by rw [body]; rfl⟩

/-- A trace that derives the outputs of a routine from an environment. -/
structure Derives [CharNames] (engine : Engine σ) (name : Value) (env outputs : Environment) (trace : Trace) :
    Prop where
  routine : .str trace.record.routine = name
  inputs : trace.record.inputs = .map env
  outputs : trace.record.outputs = outputs
  nodes : ∀ node ∈ trace.walk, Justified engine node

/-- Whatever an executor gives for an environment has a trace that derives it. -/
def Sound [CharNames] (engine : Engine σ) (execute : Executor σ) : Prop :=
  ∀ {name env outputs trace s s'},
    (execute name (.map env)).perform s = (.ok (outputs, trace), s') →
      Derives engine name env outputs trace

variable {engine : Engine σ} {execute : Executor σ} {env : Environment} {s s' : State σ}

theorem holds_eq_ok {condition : Value} {taken : Bool} (h : holds condition (.map env) = .ok taken) :
    ∃ key, condition.toKey = .ok key ∧ taken = ((Mapping.get? env key).getD .null).truthy := by
  cases hkey : condition.toKey with
  | error cause => simp [holds, hkey, bind, Except.bind] at h
  | ok key =>
    simp only [holds, hkey, bind, Except.bind, pure, Except.pure, Except.ok.injEq] at h
    exact ⟨key, rfl, h.symm⟩

theorem messageText_eq_ok {user : Value} {text : String} (h : messageText user (.map env) = .ok text) :
    ∃ template, user = .str template ∧ Template.fill template env = .ok text := by
  cases user with
  | str template => exact ⟨template, rfl, h⟩
  | _ => cases h

theorem runSteps_derives [CharNames] (hexec : Sound engine execute) {steps : List String} {final : Environment}
    {subs : List Trace} (h : (runSteps execute steps (.map env)).perform s = (.ok (final, subs), s')) :
    steps = subs.map (fun sub => sub.record.routine) ∧ Trace.Threads env subs final ∧
      ∀ sub ∈ subs, ∀ node ∈ sub.walk, Justified engine node := by
  induction steps generalizing env s final subs with
  | nil =>
    obtain ⟨env', henv, -, hresult⟩ := runSteps_nil_eq_ok.mp h
    cases henv
    cases hresult
    exact ⟨rfl, rfl, by simp⟩
  | cons step rest ih =>
    obtain ⟨outputs, sub, t, final', subs', hstep, hrest, hresult⟩ := runSteps_cons_eq_ok.mp h
    cases hresult
    have hsub := hexec hstep
    obtain ⟨hnames, hthreads, hnodes⟩ := ih hrest
    refine ⟨?_, ⟨hsub.inputs, ?_⟩, ?_⟩
    · rw [List.map_cons, ← hnames, Value.str.inj hsub.routine]
    · rw [hsub.outputs]
      exact hthreads
    · exact List.forall_mem_cons.mpr ⟨hsub.nodes, hnodes⟩

/-- The updates of a join, one result after another, are one update by all their entries. -/
theorem foldl_merge (results : List (Environment × Trace))
    (h : ∀ result ∈ results, result.2.record.outputs = result.1) (start : Environment) :
    results.foldl (fun merged result => Mapping.merge merged result.1) start =
      Mapping.merge start (Trace.entries (results.map (·.2))) := by
  induction results generalizing start with
  | nil => rfl
  | cons result results ih =>
    obtain ⟨hresult, hresults⟩ := List.forall_mem_cons.mp h
    rw [List.foldl_cons, ih hresults, List.map_cons, Trace.entries_cons, Mapping.merge_append,
      hresult]

theorem runBranches_derives [CharNames] (hexec : Sound engine execute) {parallel : Bool} {branches : List String}
    {results : List (Environment × Trace)}
    (h : (runBranches execute parallel (.map env) branches).perform s = (.ok results, s')) :
    branches = (results.map (·.2)).map (fun sub => sub.record.routine) ∧
      ∀ result ∈ results, ∃ name, Derives engine name env result.1 result.2 := by
  have hbranches := runBranches_eq_ok h
  clear h
  induction hbranches with
  | nil => exact ⟨rfl, by simp⟩
  | cons hfirst _ ih =>
    obtain ⟨t, t', hfirst⟩ := hfirst
    have hderives := hexec hfirst
    refine ⟨?_, List.forall_mem_cons.mpr ⟨⟨_, hderives⟩, ih.2⟩⟩
    rw [List.map_cons, List.map_cons, ← ih.1, Value.str.inj hderives.routine]

theorem runBody_derives [CharNames] (hexec : Sound engine execute) {name : String} {r : Routine}
    (hfound : engine.program.find? (.str name) = some r) {outputs : Environment} {trace : Trace}
    (h : (runBody engine execute name r (.map env)).perform s = (.ok (outputs, trace), s')) :
    Derives engine (.str name) env outputs trace := by
  have hinitial : ofExcept (initialOutputs r.passthrough (.map env)) =
      (pure (passthrough r.passthrough env) : Run σ Environment) := rfl
  cases hbody : r.body with
  | prompt dev user tags =>
    simp only [runBody, hbody, hinitial, pure_bind] at h
    obtain ⟨text, generated, htext, hgenerated, hresult⟩ := runPrompt_eq_ok.mp h
    obtain ⟨template, rfl, hfilled⟩ := messageText_eq_ok htext
    cases hresult
    refine ⟨rfl, rfl, rfl, ?_⟩
    cases hservice : engine.service with
    | none => simp [perform_generate_none hservice] at hgenerated
    | some service =>
      rw [perform_generate_some hservice, Prod.mk.injEq] at hgenerated
      simp only [Trace.walk, List.mem_singleton, forall_eq]
      exact .prompt hfound hbody hfilled hservice (outputsOf_eq_ok.mp hgenerated.1)
  | code code =>
    simp only [runBody, hbody, hinitial, pure_bind] at h
    obtain ⟨t, hcode, -⟩ := perform_runCode name (passthrough r.passthrough env) code (.map env) s
    rw [hcode] at h
    cases h
    refine ⟨rfl, rfl, rfl, ?_⟩
    simp only [Trace.walk, List.mem_singleton, forall_eq]
    exact .code hfound hbody
  | define specs =>
    simp only [runBody, hbody, hinitial, pure_bind] at h
    obtain ⟨env', henv, -, hresult⟩ := runDefine_eq_ok.mp h
    cases henv
    cases hresult
    refine ⟨rfl, rfl, rfl, ?_⟩
    simp only [Trace.walk, List.mem_singleton, forall_eq]
    exact .define hfound hbody
  | branch condition whenTrue whenFalse =>
    simp only [runBody, hbody, hinitial, pure_bind] at h
    obtain ⟨taken, outputs', sub, hholds, -, hsub, hresult⟩ := runBranch_eq_ok.mp h
    cases hresult
    obtain ⟨key, hkey, htaken⟩ := holds_eq_ok hholds
    have hderives := hexec hsub
    refine ⟨rfl, rfl, rfl, ?_⟩
    have hnode := Justified.branch hfound hbody hkey htaken hderives.routine hderives.inputs
    rw [hderives.outputs] at hnode
    exact List.forall_mem_cons.mpr ⟨hnode, hderives.nodes⟩
  | compose steps =>
    simp only [runBody, hbody] at h
    obtain ⟨⟨final, subs⟩, t, hsteps, hresult⟩ := bind_eq_ok.mp h
    cases hresult
    obtain ⟨rfl, hthreads, hnodes⟩ := runSteps_derives hexec hsteps
    exact ⟨rfl, rfl, rfl, List.forall_mem_cons.mpr
      ⟨.compose hfound hbody hthreads, Trace.forall_mem_walkAll hnodes⟩⟩
  | join branches =>
    simp only [runBody, hbody] at h
    obtain ⟨results, t, hbranches, hresult⟩ := bind_eq_ok.mp h
    cases hresult
    obtain ⟨rfl, hresults⟩ := runBranches_derives hexec hbranches
    have hmerged : results.foldl (fun merged result => Mapping.merge merged result.1) [] =
        Mapping.ofEntries (Trace.entries (results.map (·.2))) := by
      apply foldl_merge
      intro result hmem
      obtain ⟨_, hderives⟩ := hresults result hmem
      exact hderives.outputs
    refine ⟨rfl, rfl, rfl, List.forall_mem_cons.mpr ⟨?_, ?_⟩⟩
    · rw [hmerged]
      refine .join hfound hbody ?_ rfl (Mapping.keys_ofEntries _) (Mapping.get?_ofEntries _)
      intro sub hsub
      obtain ⟨result, hmem, rfl⟩ := List.mem_map.mp hsub
      obtain ⟨_, hderives⟩ := hresults result hmem
      exact hderives.inputs
    · apply Trace.forall_mem_walkAll
      intro sub hsub
      obtain ⟨result, hmem, rfl⟩ := List.mem_map.mp hsub
      obtain ⟨_, hderives⟩ := hresults result hmem
      exact hderives.nodes
  | unknown kind raw => simp [runBody, hbody] at h

theorem execute_derives [CharNames] {limit : Nat} {name : Value} {env outputs : Environment} {trace : Trace}
    {s s' : State σ} (h : (engine.execute limit name (.map env)).perform s = (.ok (outputs, trace), s')) :
    Derives engine name env outputs trace := by
  induction limit generalizing name env outputs trace s s' with
  | zero => cases h
  | succ limit ih =>
    obtain ⟨n, r, t, keys, rfl, hfound, hbody, -, -⟩ := execute_eq_ok.mp h
    exact runBody_derives ih hfound hbody

/-- Every node of a trace names a routine of its kind and follows by the rule of that kind, and the root is
about the routine, the inputs and the outputs of the execution. -/
theorem execute_trace [CharNames] (engine : Engine σ) (limit : Nat) (name : Value) (env outputs : Environment)
    (trace : Trace) (s s' : State σ)
    (h : (engine.execute limit name (.map env)).perform s = (.ok (outputs, trace), s')) :
    .str trace.record.routine = name ∧ trace.record.inputs = .map env ∧
      trace.record.outputs = outputs ∧
      ∀ node ∈ trace.walk, Justified engine node ∧
        ∃ r, engine.program.find? (.str node.record.routine) = some r ∧ node.kind = r.body.kind := by
  have hderives := execute_derives h
  refine ⟨hderives.routine, hderives.inputs, hderives.outputs, ?_⟩
  intro node hnode
  have hjustified := hderives.nodes node hnode
  exact ⟨hjustified, hjustified.kind_eq⟩

def sample : Program where
  routines := [
    ("main", ⟨.null, [], .compose ["ask", "choose"]⟩),
    ("ask", ⟨.null, ["topic"], .prompt (.str "Be brief.") (.str "On ${topic}") [("line", .str "string")]⟩),
    ("choose", ⟨.null, [], .branch (.str "line") (.str "both") (.str "ask")⟩),
    ("both", ⟨.null, [], .join ["keep", "ask"]⟩),
    ("keep", ⟨.null, [], .define [("kept", .reference (.str "line"))]⟩)]
  main := .str "main"
  doc := .null

def sampleEngine : Engine (List Service.Step) := ⟨sample, some Service.scripted, 1⟩

def sampleInputs : Environment := [("topic", .str "tides")]

def sampleLine (line : String) : Environment := [("topic", .str "tides"), ("line", .str line)]

def sampleOutputs : Environment :=
  [("kept", .str "High."), ("topic", .str "tides"), ("line", .str "Low.")]

def sampleAsk (inputs : Environment) (line : String) : Trace :=
  .prompt ⟨"ask", .map inputs, sampleLine line⟩ (.str "Be brief.") "On tides"

def sampleTrace : Trace :=
  .compose ⟨"main", .map sampleInputs, sampleOutputs⟩ [
    sampleAsk sampleInputs "High.",
    .branch ⟨"choose", .map (sampleLine "High."), sampleOutputs⟩ true
      (.join ⟨"both", .map (sampleLine "High."), sampleOutputs⟩ [
        .define ⟨"keep", .map (sampleLine "High."), [("kept", .str "High.")]⟩,
        sampleAsk (sampleLine "High.") "Low."])]

def sampleRequest : Request := ⟨.str "Be brief.", "On tides", [("line", .str "string")]⟩

def sampleStart : State (List Service.Step) :=
  ⟨[.give (.record [("line", .str "High.")]), .give (.record [("line", .str "Low.")])], [], ⟨false, []⟩⟩

def sampleEnd : State (List Service.Step) :=
  ⟨[.give (.record [("line", .str "Low.")])], [sampleRequest, sampleRequest], ⟨false, []⟩⟩

theorem sample_trace :
    (sampleEngine.execute 4 (.str "main") (.map sampleInputs)).perform sampleStart =
        (.ok (sampleOutputs, sampleTrace), sampleEnd) ∧
      ∀ node ∈ sampleTrace.walk, Justified sampleEngine node := by
  have h : (sampleEngine.execute 4 (.str "main") (.map sampleInputs)).perform sampleStart =
      (.ok (sampleOutputs, sampleTrace), sampleEnd) := by cbv
  obtain ⟨-, -, -, hnodes⟩ := execute_trace sampleEngine 4 _ _ _ _ _ _ h
  exact ⟨h, fun node hnode => (hnodes node hnode).1⟩

end Engine

end RoutineFlow
