import RoutineFlow.Proofs.Schedule

/-!
A run under a limit is the run under any higher one, up to the point where it comes to the limit. What it asked
before that point is asked under the higher limit too, and first.
-/

namespace RoutineFlow

namespace Run

variable {σ α β : Type}

/-- The second part of a run goes on where the first one is cut off, by an error of its own. -/
structure Extends (cut : RunError) (x y : Run σ α) : Prop where
  asks : ∀ s, s.requests <+: (x.perform s).2.requests
  before : ∀ s, (x.perform s).2.requests <+: (y.perform s).2.requests
  same : ∀ s, (x.perform s).1 ≠ .error cut → y.perform s = x.perform s

namespace Extends

variable {cut : RunError} {x y : Run σ α}

theorem refl (h : ∀ s, s.requests <+: (x.perform s).2.requests) : Extends cut x x :=
  ⟨h, fun _ => List.prefix_rfl, fun _ _ => rfl⟩

theorem pure (a : α) : Extends cut (pure a : Run σ α) (pure a) :=
  .refl fun _ => List.prefix_rfl

theorem fail (e : RunError) : Extends cut (fail e : Run σ α) (fail e) :=
  .refl fun _ => List.prefix_rfl

theorem log (event : Event) : Extends cut (log event : Run σ Unit) (log event) :=
  .refl fun _ => List.prefix_rfl

theorem ofExcept (r : Except Cause α) : Extends cut (ofExcept r : Run σ α) (ofExcept r) := by
  apply refl
  intro s
  rw [perform_ofExcept]

theorem asks_bind {f : α → Run σ β} (hf : ∀ a s, s.requests <+: ((f a).perform s).2.requests) (s : State σ) :
    (x.perform s).2.requests <+: ((x >>= f).perform s).2.requests := by
  rw [perform_bind]
  rcases x.perform s with ⟨e | a, t⟩
  · exact List.prefix_rfl
  · exact hf a t

theorem bind {f g : α → Run σ β} (hx : Extends cut x y) (hf : ∀ a, Extends cut (f a) (g a)) :
    Extends cut (x >>= f) (y >>= g) := by
  refine ⟨?_, ?_, ?_⟩
  · intro s
    exact (hx.asks s).trans (asks_bind (fun a => (hf a).asks) s)
  · intro s
    have hg : ∀ a s, s.requests <+: ((g a).perform s).2.requests :=
      fun a s => ((hf a).asks s).trans ((hf a).before s)
    by_cases hcut : (x.perform s).1 = .error cut
    -- nothing follows a part that is cut off
    · have hlast : ((x >>= f).perform s).2 = (x.perform s).2 := by
        rcases hfirst : x.perform s with ⟨e | a, t⟩
        · rw [perform_bind, hfirst]
        · rw [hfirst] at hcut
          cases hcut
      rw [hlast]
      exact (hx.before s).trans (asks_bind hg s)
    · rw [perform_bind, perform_bind, hx.same s hcut]
      rcases x.perform s with ⟨e | a, t⟩
      · exact List.prefix_rfl
      · exact (hf a).before t
  · intro s hcut
    rcases hfirst : x.perform s with ⟨e | a, t⟩
    · rw [perform_bind, hfirst] at hcut
      have hx' : (x.perform s).1 ≠ .error cut := by
        rw [hfirst]
        rintro ⟨⟩
        exact hcut rfl
      rw [perform_bind, perform_bind, hx.same s hx', hfirst]
    · rw [perform_bind, hfirst] at hcut
      have hx' : (x.perform s).1 ≠ .error cut := by
        rw [hfirst]
        nofun
      rw [perform_bind, perform_bind, hx.same s hx', hfirst]
      exact (hf a).same t hcut

theorem onError (hx : Extends cut x y) (event : RunError → Event) :
    Extends cut (onError x event) (onError y event) := by
  have hlog : ∀ (z : Run σ α) s, ((Run.onError z event).perform s).1 = (z.perform s).1 ∧
      ((Run.onError z event).perform s).2.requests = (z.perform s).2.requests := by
    intro z s
    rw [perform_onError]
    rcases z.perform s with ⟨e | a, t⟩
    · exact ⟨rfl, rfl⟩
    · exact ⟨rfl, rfl⟩
  refine ⟨?_, ?_, ?_⟩
  · intro s
    rw [(hlog x s).2]
    exact hx.asks s
  · intro s
    rw [(hlog x s).2, (hlog y s).2]
    exact hx.before s
  · intro s hcut
    rw [(hlog x s).1] at hcut
    rw [perform_onError, perform_onError, hx.same s hcut]

theorem mapError (hx : Extends cut x y) (f : RunError → RunError) :
    Extends (f cut) (mapError f x) (mapError f y) := by
  refine ⟨hx.asks, hx.before, ?_⟩
  intro s hcut
  have hx' : (x.perform s).1 ≠ .error cut := by
    intro hfirst
    rw [perform_mapError, hfirst] at hcut
    exact hcut rfl
  rw [perform_mapError, perform_mapError, hx.same s hx']

end Extends

end Run

namespace Engine

open Run

variable {σ : Type} {engine : Engine σ} {cut : RunError}

theorem extends_generate (name : String) (r : Request) :
    Extends cut (generate engine name r) (generate engine name r) := by
  apply Extends.refl
  intro s
  cases hservice : engine.service with
  | none => rw [perform_generate_none hservice]
  | some service =>
    rw [perform_generate_some hservice]
    exact List.prefix_append _ _

theorem extends_runCode [CharNames] (name : String) (initial : Environment) (code given : Value) :
    Extends cut (runCode name initial code given : Run σ (Environment × Trace))
      (runCode name initial code given) := by
  apply Extends.refl
  intro s
  obtain ⟨t, hcode, -, hrequests⟩ := perform_runCode name initial code given s
  rw [hcode, hrequests]

section Compounds

variable {execute execute' : Executor σ}
  (hexec : ∀ name given, Extends cut (execute name given) (execute' name given))

include hexec

theorem extends_runBranch (name : String) (initial : Environment)
    (condition whenTrue whenFalse given : Value) :
    Extends cut (runBranch execute name initial condition whenTrue whenFalse given)
      (runBranch execute' name initial condition whenTrue whenFalse given) := by
  apply (Extends.ofExcept _).bind
  intro taken
  cases hempty : (if taken then whenTrue else whenFalse).isEmpty with
  | true =>
    simp only [hempty, ↓reduceIte]
    exact .fail _
  | false =>
    simp only [hempty, Bool.false_eq_true, ↓reduceIte]
    exact (hexec _ given).bind fun _ => .pure _

theorem extends_runSteps (steps : List String) (given : Value) :
    Extends cut (runSteps execute steps given) (runSteps execute' steps given) := by
  induction steps generalizing given with
  | nil => exact (Extends.ofExcept _).bind fun _ => .pure _
  | cons step steps ih =>
    apply (hexec _ given).bind
    rintro ⟨outputs, trace⟩
    exact (ih _).bind fun _ => .pure _

theorem extends_runEach (branches : List String) (given : Value) :
    Extends cut (runEach execute given branches) (runEach execute' given branches) := by
  induction branches with
  | nil => exact .pure _
  | cons branch branches ih => exact (hexec _ given).bind fun _ => ih.bind fun _ => .pure _

theorem extends_runBody [CharNames] (hsequential : engine.isParallel = false) (name : String) (r : Routine)
    (given : Value) : Extends cut (runBody engine execute name r given) (runBody engine execute' name r given) := by
  cases hbody : r.body with
  | prompt dev user tags =>
    simp only [runBody, hbody]
    apply (Extends.ofExcept _).bind
    intro initial
    apply (Extends.ofExcept _).bind
    intro text
    exact (extends_generate name _).bind fun _ => .pure _
  | code code =>
    simp only [runBody, hbody]
    exact (Extends.ofExcept _).bind fun initial => extends_runCode name initial code given
  | define specs =>
    simp only [runBody, hbody]
    apply (Extends.ofExcept _).bind
    intro initial
    exact (Extends.ofExcept _).bind fun _ => .pure _
  | branch condition whenTrue whenFalse =>
    simp only [runBody, hbody]
    exact (Extends.ofExcept _).bind fun initial =>
      extends_runBranch hexec name initial condition whenTrue whenFalse given
  | compose steps =>
    simp only [runBody, hbody]
    exact (extends_runSteps hexec steps given).bind fun _ => .pure _
  | join branches =>
    simp only [runBody, hbody, hsequential, runBranches, Bool.false_and, Bool.false_eq_true, ↓reduceIte]
    exact (extends_runEach hexec branches given).bind fun _ => .pure _
  | unknown kind raw =>
    simp only [runBody, hbody]
    exact .fail _

end Compounds

theorem extends_bracket {work work' : Run σ (Environment × Trace)} (hwork : Extends cut work work')
    (name kind : String) : Extends cut (bracket name kind work) (bracket name kind work') := by
  refine (Extends.log _).bind fun _ => (hwork.onError _).bind ?_
  rintro ⟨outputs, trace⟩
  exact (Extends.ofExcept _).bind fun _ => (Extends.log _).bind fun _ => .pure _

theorem requests_execute [CharNames] (limit : Nat) (name given : Value) (s : State σ) :
    s.requests <+: ((engine.execute limit name given).perform s).2.requests := by
  obtain ⟨service, hservice⟩ := engine.exists_service
  obtain ⟨asked, -, hrequests⟩ := schedules_execute hservice limit name given s
  rw [hrequests]
  exact List.prefix_append _ _

theorem extends_execute [CharNames] (hsequential : engine.isParallel = false) {limit limit' : Nat}
    (hlimits : limit ≤ limit') (name given : Value) :
    Extends .exhausted (engine.execute limit name given) (engine.execute limit' name given) := by
  induction limit generalizing limit' name given with
  | zero =>
    refine ⟨fun _ => List.prefix_rfl, requests_execute limit' name given, ?_⟩
    intro s hcut
    exact absurd rfl hcut
  | succ limit ih =>
    obtain ⟨limit', rfl⟩ := Nat.exists_eq_succ_of_ne_zero (Nat.ne_zero_of_lt hlimits)
    have hexec := fun name given => ih (Nat.le_of_succ_le_succ hlimits) name given
    cases hfind : engine.program.find? name with
    | none =>
      simp only [execute, hfind]
      exact .fail _
    | some r =>
      have hbody := extends_runBody hexec hsequential name.label r given
      simp only [execute, hfind]
      cases r.body with
      | unknown kind raw => exact .fail _
      | _ => exact extends_bracket hbody _ _

theorem extends_runMain [CharNames] (hsequential : engine.isParallel = false) {limit limit' : Nat}
    (hlimits : limit ≤ limit') (env : Environment) :
    Extends (.tooDeep engine.program.main) (runMain engine limit env) (runMain engine limit' env) := by
  rw [runMain_eq, runMain_eq]
  split
  · exact .fail _
  · split
    · exact .fail _
    · refine (Extends.ofExcept _).bind fun _ => (Extends.log _).bind fun _ => ?_
      exact (extends_execute hsequential hlimits _ _).mapError (mainError engine.program.main)

theorem extends_runWithin [CharNames] (hsequential : engine.isParallel = false) {limit limit' : Nat}
    (hlimits : limit ≤ limit') (env : Environment) :
    Extends (.tooDeep engine.program.main) (runWithin engine limit env) (runWithin engine limit' env) := by
  refine ((extends_runMain hsequential hlimits env).onError _).bind ?_
  rintro ⟨outputs, trace⟩
  exact (Extends.ofExcept _).bind fun _ => (Extends.log _).bind fun _ => .pure _

end Engine

end RoutineFlow
