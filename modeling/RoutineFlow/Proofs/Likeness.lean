import RoutineFlow.Proofs.Nesting

/-!
Two runs side by side that are the same to the service: they make the same requests and come to related results or to
the same error, as far as neither ends with an error that excuses it. Events are left out of account.
-/

namespace RoutineFlow

variable {σ : Type}

/-- States that a service cannot tell apart. -/
structure State.Level (s t : State σ) : Prop where
  service : s.service = t.service
  requests : s.requests = t.requests

theorem State.Level.refl (s : State σ) : s.Level s :=
  ⟨rfl, rfl⟩

theorem State.Level.log_left {s t : State σ} (h : s.Level t) (event : Event) : (s.log event).Level t :=
  ⟨h.service, h.requests⟩

theorem State.Level.log {s t : State σ} (h : s.Level t) (event event' : Event) : (s.log event).Level (t.log event') :=
  ⟨h.service, h.requests⟩

namespace Run

variable {α β γ δ : Type} {E F : RunError → Prop} {R : α → β → Prop} {Q : γ → δ → Prop}

/-- How two runs end side by side; an error in `E` excuses the first run, and one in `F` the second. -/
inductive Ends (E F : RunError → Prop) (R : α → β → Prop) :
    Except RunError α × State σ → Except RunError β × State σ → Prop
  | ok {a : α} {b : β} {s t : State σ} (h : R a b) (hlevel : s.Level t) : Ends E F R (.ok a, s) (.ok b, t)
  | error (e : RunError) {s t : State σ} (hlevel : s.Level t) : Ends E F R (.error e, s) (.error e, t)
  | left {e : RunError} (he : E e) (s : State σ) (other : Except RunError β × State σ) :
      Ends E F R (.error e, s) other
  | right {e : RunError} (he : F e) (other : Except RunError α × State σ) (t : State σ) :
      Ends E F R other (.error e, t)

/-- Two runs side by side, the first of them from the given state. -/
def Alike (E F : RunError → Prop) (R : α → β → Prop) (s : State σ) (x : Run σ α) (y : Run σ β) : Prop :=
  ∀ t, s.Level t → Ends E F R (x.perform s) (y.perform t)

theorem Ends.map_eq {p : Except RunError α × State σ} {q : Except RunError β × State σ} (h : Ends E F R p q)
    {f : α → γ} {g : β → γ} (hR : ∀ a b, R a b → f a = g b) (hE : ∀ e, p.1 = .error e → ¬E e)
    (hF : ∀ e, q.1 = .error e → ¬F e) : p.1.map f = q.1.map g ∧ p.2.Level q.2 := by
  cases h with
  | ok hab hlevel => exact ⟨congrArg Except.ok (hR _ _ hab), hlevel⟩
  | error e hlevel => exact ⟨rfl, hlevel⟩
  | left he s _ => exact absurd he (hE _ rfl)
  | right he _ t => exact absurd he (hF _ rfl)

namespace Alike

variable {s : State σ} {x : Run σ α} {y : Run σ β}

theorem pure {a : α} {b : β} (h : R a b) : Alike E F R s (pure a : Run σ α) (pure b) :=
  fun _ hlevel => .ok h hlevel

theorem fail (e : RunError) : Alike E F R s (fail e : Run σ α) (fail e) :=
  fun _ hlevel => .error e hlevel

theorem fail_left {e : RunError} (he : E e) (y : Run σ β) : Alike E F R s (Run.fail e : Run σ α) y :=
  fun _ _ => .left he s _

theorem fail_right {e : RunError} (he : F e) (x : Run σ α) : Alike E F R s x (Run.fail e : Run σ β) :=
  fun t _ => .right he _ t

theorem log (event event' : Event) :
    Alike E F (fun _ _ => True) s (log event : Run σ Unit) (Run.log event') :=
  fun _ hlevel => .ok trivial (hlevel.log event event')

theorem ofExcept (r : Except Cause α) :
    Alike E F (fun a b => r = .ok a ∧ a = b) s (ofExcept r : Run σ α) (Run.ofExcept r) := by
  cases r with
  | ok a => exact .pure ⟨rfl, rfl⟩
  | error cause => exact .fail _

theorem request (service : Service σ) (r : Request) :
    Alike E F Eq s (request service r) (Run.request service r) := by
  intro t hlevel
  rw [perform_request, perform_request, hlevel.service, hlevel.requests]
  exact .ok rfl ⟨rfl, rfl⟩

theorem mono {R' : α → β → Prop} (h : Alike E F R s x y) (hR : ∀ a b, R a b → R' a b) : Alike E F R' s x y := by
  intro t hlevel
  have hends := h t hlevel
  generalize x.perform s = left, y.perform t = right at hends ⊢
  cases hends with
  | ok hab hlevel' => exact .ok (hR _ _ hab) hlevel'
  | error e hlevel' => exact .error e hlevel'
  | left he _ _ => exact .left he _ _
  | right he _ _ => exact .right he _ _

theorem bind {f : α → Run σ γ} {g : β → Run σ δ} (h : Alike E F R s x y)
    (hfg : ∀ a b s', x.perform s = (.ok a, s') → R a b → Alike E F Q s' (f a) (g b)) :
    Alike E F Q s (x >>= f) (y >>= g) := by
  intro t hlevel
  have hends := h t hlevel
  rw [perform_bind, perform_bind]
  generalize hx : x.perform s = left at hends ⊢
  generalize y.perform t = right at hends ⊢
  cases hends with
  | ok hab hlevel' => exact hfg _ _ _ hx hab _ hlevel'
  | error e hlevel' => exact .error e hlevel'
  | left he _ _ => exact .left he _ _
  | right he _ _ => exact .right he _ _

theorem onError (h : Alike E F R s x y) (event event' : RunError → Event) :
    Alike E F R s (onError x event) (Run.onError y event') := by
  intro t hlevel
  have hends := h t hlevel
  rw [perform_onError, perform_onError]
  generalize x.perform s = left, y.perform t = right at hends ⊢
  cases hends with
  | ok hab hlevel' => exact .ok hab hlevel'
  | error e hlevel' => exact .error e (hlevel'.log _ _)
  | left he _ _ => exact .left he _ _
  | right he _ _ => exact .right he _ _

theorem mapError {f : RunError → RunError} (hE : ∀ e, E e → E (f e)) (hF : ∀ e, F e → F (f e))
    (h : Alike E F R s x y) : Alike E F R s (mapError f x) (Run.mapError f y) := by
  intro t hlevel
  have hends := h t hlevel
  rw [perform_mapError, perform_mapError]
  generalize x.perform s = left, y.perform t = right at hends ⊢
  cases hends with
  | ok hab hlevel' => exact .ok hab hlevel'
  | error e hlevel' => exact .error _ hlevel'
  | left he _ _ => exact .left (hE _ he) _ _
  | right he _ _ => exact .right (hF _ he) _ _

end Alike

end Run

def Environment.Sortable (env : Environment) : Prop :=
  ∃ keys, env.sortedKeys = .ok keys

def Environment.AgreeOn (names : Key → Prop) (env env' : Environment) : Prop :=
  ∀ key, names key → Mapping.get? env key = Mapping.get? env' key

/-- A name that stands in braces behind a dollar sign. -/
def Template.Mentions (template name : List Char) : Prop :=
  ∃ before after, template = before ++ '$' :: '{' :: (name ++ '}' :: after) ∧ name ≠ [] ∧
    ∀ c ∈ name, Text.isWord c = true

def Body.Names : Body → Key → Prop
  | .prompt _ (.str template) _, key => ∃ name, Template.Mentions template.toList name ∧ key = String.ofList name
  | .define specs, key => ∃ name ∈ Engine.references specs, key = name
  | .branch condition _ _, key => condition.toKey = .ok key
  | _, _ => False

def Routine.Names (r : Routine) (key : Key) : Prop :=
  (∃ name ∈ r.passthrough, key = name) ∨ r.body.Names key

namespace Template

open Text (isWord)

variable {cs name : List Char}

structure IsName (name : List Char) : Prop where
  ne_nil : name ≠ []
  word : ∀ c ∈ name, isWord c = true

theorem placeholder?_eq_some :
    placeholder? cs = some name ↔ IsName name ∧ ∃ rest, cs = '{' :: (name ++ '}' :: rest) := by
  constructor
  · intro h
    unfold placeholder? at h
    split at h
    · rename_i cs
      split at h
      · cases h
      · rename_i name rest hrest hne
        cases h
        refine ⟨⟨hne, fun c hc => List.mem_takeWhile_imp hc⟩, rest, ?_⟩
        rw [← hrest, List.takeWhile_append_dropWhile]
      · cases h
    · cases h
  · rintro ⟨hname, rest, rfl⟩
    have hbrace : isWord '}' = false := by decide
    have htake : (name ++ '}' :: rest).takeWhile isWord = name := by
      rw [List.takeWhile_append_of_pos hname.word, List.takeWhile_cons, hbrace]
      simp
    have hdrop : (name ++ '}' :: rest).dropWhile isWord = '}' :: rest := by
      rw [List.dropWhile_append_of_pos hname.word, List.dropWhile_cons, hbrace]
      simp
    obtain ⟨d, u, rfl⟩ := List.exists_cons_of_ne_nil hname.ne_nil
    simp only [placeholder?, htake, hdrop]

theorem mentions_of_placeholder? (h : placeholder? cs = some name) : Mentions ('$' :: cs) name := by
  obtain ⟨hname, rest, rfl⟩ := placeholder?_eq_some.mp h
  exact ⟨[], rest, rfl, hname.ne_nil, hname.word⟩

theorem Mentions.cons (h : Mentions cs name) (c : Char) : Mentions (c :: cs) name := by
  obtain ⟨before, after, rfl, hname⟩ := h
  exact ⟨c :: before, after, rfl, hname⟩

theorem fillBy_congr {textOf textOf' : List Char → Except Cause (List Char)} {skip : Nat} {cs : List Char}
    (h : ∀ name, Mentions cs name → textOf name = textOf' name) : fillBy textOf skip cs = fillBy textOf' skip cs := by
  induction cs generalizing skip with
  | nil => cases skip <;> rfl
  | cons c cs ih =>
    have hrest : ∀ skip, fillBy textOf skip cs = fillBy textOf' skip cs :=
      fun skip => ih fun name hname => h name (hname.cons c)
    cases skip with
    | succ skip => exact hrest skip
    | zero =>
      unfold fillBy
      split
      · rename_i name hname
        have hmentions : Mentions (c :: cs) name := by
          split at hname
          · rename_i hdollar
            rw [hdollar]
            exact mentions_of_placeholder? hname
          · cases hname
        rw [h name hmentions, hrest]
      · rw [hrest]

theorem fill_congr {template : String} {env env' : Environment}
    (h : env.AgreeOn (Body.prompt .null (.str template) []).Names env') : fill template env = fill template env' := by
  unfold fill
  rw [fillBy_congr]
  intro name hname
  rw [variableText, variableText, h _ ⟨name, hname, rfl⟩]

end Template

namespace Engine

open Run

variable {E F : RunError → Prop} {engine engine' : Engine σ} {env env' : Environment} {s s' : State σ}

def SameOutputs {α β : Type} (a : Environment × α) (b : Environment × β) : Prop :=
  a.1 = b.1

/-- The same outputs, and such as are reported. -/
def Agree {α β : Type} (a : Environment × α) (b : Environment × β) : Prop :=
  a.1 = b.1 ∧ a.1.Sortable

theorem passthrough_congr {names : List String} (h : ∀ name ∈ names, Mapping.get? env name = Mapping.get? env' name) :
    passthrough names env = passthrough names env' := by
  unfold passthrough
  apply List.foldl_ext
  intro outputs name hname
  rw [h name hname]

theorem defined?_congr {spec : OutputSpec} {key : String}
    (h : env.AgreeOn (Body.define [(key, spec)]).Names env') : defined? env spec = defined? env' spec := by
  unfold defined?
  split
  · rfl
  · rfl
  · rename_i reference
    have hget : Mapping.get? env (TypeTag.splitOptional reference).1 =
        Mapping.get? env' (TypeTag.splitOptional reference).1 :=
      h _ ⟨_, List.mem_singleton.mpr rfl, rfl⟩
    simp only [hget]
  · rfl

theorem define_congr {specs : Mapping String OutputSpec} (initial : Environment)
    (h : env.AgreeOn (Body.define specs).Names env') : define initial specs env = define initial specs env' := by
  unfold define
  apply List.foldl_ext
  rintro outputs ⟨key, spec⟩ hspec
  have hdefined : defined? env spec = defined? env' spec := by
    refine defined?_congr (?_ : env.AgreeOn (Body.define [(key, spec)]).Names env')
    rintro _ ⟨name, hname, rfl⟩
    apply h
    refine ⟨name, ?_, rfl⟩
    obtain ⟨entry, hentry, hreference⟩ := List.mem_filterMap.mp hname
    rw [List.mem_singleton.mp hentry] at hreference
    exact List.mem_filterMap.mpr ⟨_, hspec, hreference⟩
  simp only [hdefined]

theorem holds_congr {condition whenTrue whenFalse : Value}
    (h : env.AgreeOn (Body.branch condition whenTrue whenFalse).Names env') :
    holds condition (.map env) = holds condition (.map env') := by
  unfold holds
  cases hkey : condition.toKey with
  | error cause => rfl
  | ok key => simp only [bind, Except.bind, h key hkey]

theorem messageText_congr {devMessage userMessage : Value} {tags : Mapping String Value}
    (h : env.AgreeOn (Body.prompt devMessage userMessage tags).Names env') :
    messageText userMessage (.map env) = messageText userMessage (.map env') := by
  cases userMessage with
  | str template => exact Template.fill_congr h
  | _ => rfl

/-- A routine does the same work on either of two environments; code and the empty list pass on variables that they do not
name. -/
structure Indifferent (r : Routine) (env env' : Environment) : Prop where
  names : env.AgreeOn r.Names env'
  code : ∀ code, r.body = .code code → env = env'
  empty : r.body = .compose [] → env = env' ∧ env.Sortable

theorem Indifferent.refl (r : Routine) (h : env.Sortable) : Indifferent r env env :=
  ⟨fun _ _ => rfl, fun _ _ => rfl, fun _ => ⟨rfl, h⟩⟩

theorem Indifferent.passthrough {r : Routine} (h : Indifferent r env env') :
    passthrough r.passthrough env = passthrough r.passthrough env' :=
  passthrough_congr fun name hname => h.names _ (.inl ⟨name, hname, rfl⟩)

theorem Indifferent.body {r : Routine} (h : Indifferent r env env') : env.AgreeOn r.body.Names env' :=
  fun key hkey => h.names key (.inr hkey)

theorem alike_generate (hservice : engine.service = engine'.service) (name : String) (r : Request) :
    Alike E F Eq s (generate engine name r) (generate engine' name r) := by
  simp only [generate, hservice]
  cases engine'.service with
  | none => exact .fail _
  | some service =>
    refine (Alike.log _ _).bind fun _ _ _ _ _ => (Alike.request service r).bind ?_
    rintro answer _ _ - rfl
    rcases answer with failure | v
    · exact .fail _
    · cases v with
      | map outputs => exact .pure rfl
      | _ => exact .fail _

theorem alike_runCode [CharNames] (name : String) (initial : Environment) (code given : Value) :
    Alike E F SameOutputs s (runCode name initial code given : Run σ (Environment × Trace))
      (runCode name initial code given) := by
  unfold runCode
  cases Expr.outputs name code given with
  | ok computed => exact .pure rfl
  | error failure => exact (Alike.log _ _).bind fun _ _ _ _ _ => .pure rfl

/-- One step of a row, when those before it were done. -/
inductive StepCall (execute : Executor σ) (steps : List String) (env : Environment) (s : State σ) : Call σ → Prop
  | mk {before after : List String} {step : String} {env' : Environment} {subs : List Trace} {s' : State σ}
      (split : steps = before ++ step :: after)
      (reached : (runSteps execute before (.map env)).perform s = (.ok (env', subs), s')) :
      StepCall execute steps env s ⟨.str step, env', s'⟩

/-- One branch, when those before it were done. -/
inductive EachCall (execute : Executor σ) (branches : List String) (env : Environment) (s : State σ) : Call σ → Prop
  | mk {before after : List String} {branch : String} {results : List (Environment × Trace)} {s' : State σ}
      (split : branches = before ++ branch :: after)
      (reached : (runEach execute (.map env) before).perform s = (.ok results, s')) :
      EachCall execute branches env s ⟨.str branch, env, s'⟩

section Calls

variable {execute execute' : Executor σ} {inner : Call σ}

theorem StepCall.head (execute : Executor σ) (step : String) (rest : List String) (env : Environment) (s : State σ) :
    StepCall execute (step :: rest) env s ⟨.str step, env, s⟩ :=
  .mk (List.nil_append _).symm rfl

theorem StepCall.append_left {steps : List String} (h : StepCall execute steps env s inner) (rest : List String) :
    StepCall execute (steps ++ rest) env s inner := by
  obtain ⟨rfl, reached⟩ := h
  exact .mk (List.append_assoc _ _ _) reached

theorem StepCall.after {before steps : List String} {subs : List Trace}
    (hbefore : (runSteps execute before (.map env)).perform s = (.ok (env', subs), s'))
    (h : StepCall execute steps env' s' inner) : StepCall execute (before ++ steps) env s inner := by
  obtain ⟨rfl, reached⟩ := h
  apply StepCall.mk (List.append_assoc _ _ _).symm
  rw [runSteps_append]
  exact bind_eq_ok.mpr ⟨_, _, hbefore, bind_eq_ok.mpr ⟨_, _, reached, rfl⟩⟩

theorem StepCall.tail {step : String} {rest : List String} {trace : Trace}
    (hstep : (execute (.str step) (.map env)).perform s = (.ok (env', trace), s'))
    (h : StepCall execute rest env' s' inner) : StepCall execute (step :: rest) env s inner := by
  have hbefore : (runSteps execute [step] (.map env)).perform s = (.ok (env', [trace]), s') :=
    runSteps_cons_eq_ok.mpr ⟨env', trace, s', env', [], hstep, rfl, rfl⟩
  exact .after hbefore h

theorem EachCall.env_eq {branches : List String} (h : EachCall execute branches env s inner) : inner.env = env := by
  cases h
  rfl

theorem EachCall.head (execute : Executor σ) (branch : String) (rest : List String) (env : Environment)
    (s : State σ) : EachCall execute (branch :: rest) env s ⟨.str branch, env, s⟩ :=
  .mk (List.nil_append _).symm rfl

theorem EachCall.append_left {branches : List String} (h : EachCall execute branches env s inner)
    (rest : List String) : EachCall execute (branches ++ rest) env s inner := by
  obtain ⟨rfl, reached⟩ := h
  exact .mk (List.append_assoc _ _ _) reached

theorem EachCall.after {before branches : List String} {results : List (Environment × Trace)}
    (hbefore : (runEach execute (.map env) before).perform s = (.ok results, s'))
    (h : EachCall execute branches env s' inner) : EachCall execute (before ++ branches) env s inner := by
  obtain ⟨rfl, reached⟩ := h
  apply EachCall.mk (List.append_assoc _ _ _).symm
  rw [runEach_append]
  exact bind_eq_ok.mpr ⟨_, _, hbefore, bind_eq_ok.mpr ⟨_, _, reached, rfl⟩⟩

theorem EachCall.tail {branch : String} {rest : List String} {result : Environment × Trace}
    (hbranch : (execute (.str branch) (.map env)).perform s = (.ok result, s'))
    (h : EachCall execute rest env s' inner) : EachCall execute (branch :: rest) env s inner := by
  have hbefore : (runEach execute (.map env) [branch]).perform s = (.ok [result], s') :=
    runEach_cons_eq_ok.mpr ⟨result, s', [], hbranch, rfl, rfl⟩
  exact .after hbefore h

theorem StepCall.calls {name : String} {r : Routine} {steps : List String}
    (hfound : engine.program.find? (.str name) = some r) (hbody : r.body = .compose steps)
    (h : StepCall execute steps env (s.log (.routineBegin name "compose")) inner) :
    Calls engine execute ⟨.str name, env, s⟩ inner := by
  obtain ⟨rfl, reached⟩ := h
  exact .step hfound hbody reached

theorem EachCall.calls (hsequential : engine.isParallel = false) {name : String} {r : Routine}
    {branches : List String} (hfound : engine.program.find? (.str name) = some r) (hbody : r.body = .join branches)
    (h : EachCall execute branches env (s.log (.routineBegin name "join")) inner) :
    Calls engine execute ⟨.str name, env, s⟩ inner := by
  obtain ⟨rfl, reached⟩ := h
  exact .each hfound hbody (by simp [hsequential]) reached

end Calls

section Bodies

variable {execute execute' : Executor σ} {A : Environment → Environment → Prop}

theorem alike_runSteps (hA : ∀ env : Environment, env.Sortable → A env env) {steps : List String}
    (hexec : ∀ inner, StepCall execute steps env s inner → ∀ env', A inner.env env' →
      Alike E F Agree inner.state (execute inner.name (.map inner.env)) (execute' inner.name (.map env')))
    (henv : A env env') (hempty : steps = [] → env = env' ∧ env.Sortable) :
    Alike E F Agree s (runSteps execute steps (.map env)) (runSteps execute' steps (.map env')) := by
  induction steps generalizing env env' s with
  | nil =>
    obtain ⟨rfl, hsortable⟩ := hempty rfl
    exact .pure ⟨rfl, hsortable⟩
  | cons step rest ih =>
    apply (hexec _ (.head execute step rest env s) env' henv).bind
    rintro ⟨outputs, trace⟩ ⟨outputs', trace'⟩ t hstep ⟨hsame : outputs = outputs', hsortable : outputs.Sortable⟩
    subst hsame
    have hrest := ih (fun inner hinner => hexec inner (.tail hstep hinner)) (hA outputs hsortable)
      fun _ => ⟨rfl, hsortable⟩
    exact hrest.bind fun _ _ _ _ h => .pure h

theorem alike_runEach {branches : List String}
    (hexec : ∀ inner, EachCall execute branches env s inner →
      Alike E F Agree inner.state (execute inner.name (.map inner.env)) (execute' inner.name (.map env'))) :
    Alike E F (List.Forall₂ Agree) s (runEach execute (.map env) branches) (runEach execute' (.map env') branches) := by
  induction branches generalizing s with
  | nil => exact .pure .nil
  | cons branch rest ih =>
    apply (hexec _ (.head execute branch rest env s)).bind
    intro result result' t hbranch hresult
    have hrest := ih fun inner hinner => hexec inner (.tail hbranch hinner)
    exact hrest.bind fun _ _ _ _ hothers => .pure (.cons hresult hothers)

def mergeOnto (start : Environment) (results : List (Environment × Trace)) : Environment :=
  results.foldl (fun merged result => Mapping.merge merged result.1) start

theorem mergeOnto_congr {results results' : List (Environment × Trace)} (h : List.Forall₂ Agree results results')
    (start : Environment) : mergeOnto start results = mergeOnto start results' := by
  induction h generalizing start with
  | nil => rfl
  | cons hfirst _ ih =>
    rw [mergeOnto, List.foldl_cons, hfirst.1]
    exact ih _

theorem alike_runBranch {name : String} {initial : Environment} {condition whenTrue whenFalse given given' : Value}
    (hholds : holds condition given = holds condition given')
    (hexec : ∀ taken, holds condition given = .ok taken → (if taken then whenTrue else whenFalse).isEmpty = false →
      Alike E F Agree s (execute (if taken then whenTrue else whenFalse) given)
        (execute' (if taken then whenTrue else whenFalse) given')) :
    Alike E F SameOutputs s (runBranch execute name initial condition whenTrue whenFalse given)
      (runBranch execute' name initial condition whenTrue whenFalse given') := by
  unfold runBranch
  rw [← hholds]
  apply (Alike.ofExcept _).bind
  rintro taken _ t hperform ⟨htaken, rfl⟩
  rw [htaken] at hperform
  cases hperform
  cases hempty : (if taken then whenTrue else whenFalse).isEmpty with
  | true =>
    simp only [hempty, ↓reduceIte]
    exact .fail _
  | false =>
    simp only [hempty, Bool.false_eq_true, ↓reduceIte]
    apply (hexec taken htaken hempty).bind
    rintro ⟨outputs, trace⟩ ⟨outputs', trace'⟩ _ - ⟨hsame : outputs = outputs', -⟩
    exact .pure (congrArg (Mapping.merge initial) hsame)

theorem alike_runBody [CharNames] (hservice : engine.service = engine'.service)
    (hsequential : engine.isParallel = false)
    (hsequential' : engine'.isParallel = false) (hA : ∀ env : Environment, env.Sortable → A env env) {r : Routine}
    {name : String} (hfound : engine.program.find? (.str name) = some r)
    (hexec : ∀ inner, Calls engine execute ⟨.str name, env, s⟩ inner → ∀ env', A inner.env env' →
      Alike E F Agree inner.state (execute inner.name (.map inner.env)) (execute' inner.name (.map env')))
    (henv : A env env') (hr : Indifferent r env env') :
    Alike E F SameOutputs (s.log (.routineBegin name r.body.kind)) (runBody engine execute name r (.map env))
      (runBody engine' execute' name r (.map env')) := by
  have hnames := hr.body
  cases hbody : r.body with
  | prompt devMessage userMessage tags =>
    rw [hbody] at hnames
    simp only [runBody, hbody, ofExcept_initialOutputs, pure_bind, hr.passthrough, runPrompt,
      messageText_congr hnames]
    apply (Alike.ofExcept _).bind
    rintro text _ _ - ⟨-, rfl⟩
    apply (alike_generate hservice name _).bind
    rintro generated _ _ - rfl
    exact .pure rfl
  | code code =>
    rw [hr.code code hbody]
    simp only [runBody, hbody, ofExcept_initialOutputs, pure_bind]
    exact alike_runCode name _ code _
  | define specs =>
    rw [hbody] at hnames
    simp only [runBody, hbody, ofExcept_initialOutputs, pure_bind, hr.passthrough]
    exact .pure (define_congr _ hnames)
  | branch condition whenTrue whenFalse =>
    rw [hbody] at hnames
    simp only [runBody, hbody, ofExcept_initialOutputs, pure_bind, hr.passthrough]
    apply alike_runBranch (holds_congr hnames)
    intro taken htaken hempty
    exact hexec _ (.branch hfound hbody htaken hempty) env' henv
  | compose steps =>
    simp only [runBody, hbody]
    have hsteps : Alike E F Agree (s.log (.routineBegin name "compose")) (runSteps execute steps (.map env))
        (runSteps execute' steps (.map env')) :=
      alike_runSteps hA (fun inner hinner => hexec inner (hinner.calls hfound hbody)) henv
        fun hnil => hr.empty (hnil ▸ hbody)
    exact hsteps.bind fun _ _ _ _ h => .pure h.1
  | join branches =>
    simp only [runBody, hbody, hsequential, hsequential', runBranches, Bool.false_and, Bool.false_eq_true, ↓reduceIte]
    have hbranches : Alike E F (List.Forall₂ Agree) (s.log (.routineBegin name "join"))
        (runEach execute (.map env) branches) (runEach execute' (.map env') branches) :=
      alike_runEach fun inner hinner =>
        hexec inner (hinner.calls hsequential hfound hbody) env' (hinner.env_eq ▸ henv)
    exact hbranches.bind fun _ _ _ _ h => .pure (mergeOnto_congr h [])
  | unknown kind raw =>
    simp only [runBody, hbody]
    exact .fail _

end Bodies

theorem alike_bracket {work work' : Run σ (Environment × Trace)} {name kind : String}
    (h : Alike E F SameOutputs (s.log (.routineBegin name kind)) work work') (kind' : String) :
    Alike E F Agree s (bracket name kind work) (bracket name kind' work') := by
  refine (Alike.log _ _).bind fun _ _ t hlog _ => ?_
  cases hlog
  refine (h.onError _ _).bind ?_
  rintro ⟨outputs, trace⟩ ⟨outputs', trace'⟩ _ - (hsame : outputs = outputs')
  subst hsame
  refine (Alike.ofExcept _).bind fun keys _ _ _ hkeys => (Alike.log _ _).bind fun _ _ _ _ _ => ?_
  exact .pure ⟨rfl, keys, hkeys.1⟩

theorem alike_execute [CharNames] (hservice : engine.service = engine'.service)
    (hsequential : engine.isParallel = false) (hsequential' : engine'.isParallel = false) {limit limit' : Nat}
    {A : Environment → Environment → Prop} (hA : ∀ env : Environment, env.Sortable → A env env) {name : Value}
    (hfind : engine.program.find? name = engine'.program.find? name)
    (hexec : ∀ inner, Calls engine (engine.execute limit) ⟨name, env, s⟩ inner → ∀ env', A inner.env env' →
      Alike E F Agree inner.state (engine.execute limit inner.name (.map inner.env))
        (engine'.execute limit' inner.name (.map env')))
    (henv : A env env') (hr : ∀ r, engine.program.find? name = some r → Indifferent r env env') :
    Alike E F Agree s (engine.execute (limit + 1) name (.map env))
      (engine'.execute (limit' + 1) name (.map env')) := by
  cases hfound : engine.program.find? name with
  | none =>
    rw [execute_missing hfound, execute_missing (hfind ▸ hfound)]
    exact .fail _
  | some r =>
    obtain ⟨n, rfl, -⟩ := Program.mem_of_find? hfound
    have hbody := alike_runBody hservice hsequential hsequential' hA hfound hexec henv (hr r hfound)
    simp only [execute, ← hfind, hfound]
    cases hkind : r.body with
    | unknown kind raw => exact .fail _
    | _ =>
      rw [hkind] at hbody
      exact alike_bracket hbody _

def Result.Agree (a b : Result) : Prop :=
  a.outputs = b.outputs

theorem alike_runWithin [CharNames] {limit limit' : Nat} (hmain : engine.program.main = engine'.program.main)
    (hfound : (engine.program.find? engine.program.main).isNone = (engine'.program.find? engine.program.main).isNone)
    (hE : ∀ e, E e → E (mainError engine.program.main e)) (hF : ∀ e, F e → F (mainError engine.program.main e))
    (hkeys : env.Sortable ∧ env'.Sortable ∨ env = env')
    (hexec : Starts engine env → Alike E F Agree (s.log (.runStart engine.program.main))
      (engine.execute limit engine.program.main (.map env)) (engine'.execute limit' engine.program.main (.map env'))) :
    Alike E F Result.Agree s (engine.runWithin limit env) (engine'.runWithin limit' env') := by
  have hrunMain : Alike E F Engine.Agree s (runMain engine limit env) (runMain engine' limit' env') := by
    rw [runMain_eq, runMain_eq, ← hmain, ← hfound]
    split
    · exact .fail _
    · split
      · exact .fail _
      · rename_i hgiven hpresent
        have hsorted : Alike E F (fun _ _ => env.Sortable) s (sortedKeys env : Run σ _) (sortedKeys env') := by
          obtain ⟨⟨keys, hkeys⟩, keys', hkeys'⟩ | rfl := hkeys
          · rw [sortedKeys, sortedKeys, hkeys, hkeys']
            exact .pure ⟨keys, hkeys⟩
          · exact (Alike.ofExcept _).mono fun keys _ h => ⟨keys, h.1⟩
        refine hsorted.bind fun _ _ t hperform hsortable => ?_
        obtain ⟨keys, hkeys⟩ := hsortable
        rw [sortedKeys, hkeys] at hperform
        cases hperform
        refine (Alike.log _ _).bind fun _ _ _ hlog _ => ?_
        cases hlog
        exact (hexec (starts_of_present (not_or.mpr ⟨hgiven, hpresent⟩) hkeys)).mapError hE hF
  refine (hrunMain.onError _ _).bind ?_
  rintro ⟨outputs, trace⟩ ⟨outputs', trace'⟩ _ - ⟨hsame : outputs = outputs', -⟩
  subst hsame
  exact (Alike.ofExcept _).bind fun _ _ _ _ _ => (Alike.log _ _).bind fun _ _ _ _ _ => .pure rfl

end Engine

end RoutineFlow
