import RoutineFlow.Proofs.Execution
import RoutineFlow.Proofs.Reachability

/-!
An execution looks up the names that it is led to and no others, so routines that the main one does not lead to might as
well not be there.
-/

namespace RoutineFlow.Engine

open Run

variable {σ : Type}

section Calls

variable {execute execute' : Executor σ}

theorem runBranch_congr {condition whenTrue whenFalse given : Value}
    (hexec : ∀ target ∈ (Body.branch condition whenTrue whenFalse).references,
      execute target given = execute' target given) (name : String) (initial : Environment) :
    runBranch execute name initial condition whenTrue whenFalse given =
      runBranch execute' name initial condition whenTrue whenFalse given := by
  unfold runBranch
  congr 1
  funext taken
  cases hempty : (if taken then whenTrue else whenFalse).isEmpty with
  | true => simp only [hempty, ↓reduceIte]
  | false => simp only [hempty, Bool.false_eq_true, ↓reduceIte, hexec _ (Body.taken_mem_references hempty)]

theorem runSteps_congr {steps : List String}
    (hexec : ∀ step ∈ steps, ∀ given, execute (.str step) given = execute' (.str step) given) (given : Value) :
    runSteps execute steps given = runSteps execute' steps given := by
  induction steps generalizing given with
  | nil => rfl
  | cons step rest ih =>
    obtain ⟨hstep, hrest⟩ := List.forall_mem_cons.mp hexec
    simp only [runSteps, hstep, ih hrest]

theorem runEach_congr {branches : List String} {given : Value}
    (hexec : ∀ branch ∈ branches, execute (.str branch) given = execute' (.str branch) given) :
    runEach execute given branches = runEach execute' given branches := by
  induction branches with
  | nil => rfl
  | cons branch rest ih =>
    obtain ⟨hbranch, hrest⟩ := List.forall_mem_cons.mp hexec
    simp only [runEach, hbranch, ih hrest]

theorem runAll_congr {branches : List String} {given : Value}
    (hexec : ∀ branch ∈ branches, execute (.str branch) given = execute' (.str branch) given) :
    runAll execute given branches = runAll execute' given branches := by
  induction branches with
  | nil => rfl
  | cons branch rest ih =>
    obtain ⟨hbranch, hrest⟩ := List.forall_mem_cons.mp hexec
    simp only [runAll, hbranch, ih hrest]

theorem runBranches_congr {branches : List String} {given : Value}
    (hexec : ∀ branch ∈ branches, execute (.str branch) given = execute' (.str branch) given) (parallel : Bool) :
    runBranches execute parallel given branches = runBranches execute' parallel given branches := by
  unfold runBranches
  rw [runAll_congr hexec, runEach_congr hexec]

theorem runBody_congr [CharNames] (engine engine' : Engine σ) (hservice : engine.service = engine'.service)
    (hworkers : engine.workers = engine'.workers) {r : Routine}
    (hexec : ∀ target ∈ r.body.references, ∀ given, execute target given = execute' target given) (name : String)
    (given : Value) : runBody engine execute name r given = runBody engine' execute' name r given := by
  cases hbody : r.body with
  | prompt devMessage userMessage tags => simp only [runBody, hbody, runPrompt, generate, hservice]
  | branch condition whenTrue whenFalse =>
    rw [hbody] at hexec
    simp only [runBody, hbody, runBranch_congr fun target htarget => hexec target htarget given]
  | compose steps =>
    rw [hbody] at hexec
    have hsteps := runSteps_congr (fun step hstep => hexec _ (List.mem_map_of_mem hstep)) given
    simp only [runBody, hbody, hsteps]
  | join branches =>
    rw [hbody] at hexec
    have hbranches := runBranches_congr fun branch hbranch => hexec _ (List.mem_map_of_mem hbranch) given
    simp only [runBody, hbody, isParallel, hworkers, hbranches]
  | _ => simp only [runBody, hbody]

end Calls

def withProgram (engine : Engine σ) (program : Program) : Engine σ :=
  { engine with program := program }

section Programs

variable {engine : Engine σ} {program : Program}

theorem execute_withProgram [CharNames]
    (hsame : ∀ name, engine.program.Reachable name → engine.program.find? name = program.find? name) (limit : Nat)
    {name : Value} (hreachable : engine.program.Reachable name) (given : Value) :
    (engine.withProgram program).execute limit name given = engine.execute limit name given := by
  -- For all names in reach at once: those that a routine in reach refers to are in reach as well.
  induction limit generalizing name given with
  | zero => rfl
  | succ limit ih =>
    have hfind : (engine.withProgram program).program.find? name = engine.program.find? name := (hsame name hreachable).symm
    cases hfound : engine.program.find? name with
    | none => simp only [execute, hfind, hfound]
    | some r =>
      have hbody := runBody_congr (engine.withProgram program) engine rfl rfl
        (fun target htarget given => ih (hreachable.tail ⟨r, hfound, htarget⟩) given) name.label given
      simp only [execute, hfind, hfound, hbody]

/-- Programs with the same main routine and the same routines in its reach are run alike: to the same result or error, with
the same requests and the same events. -/
theorem unreachable_irrelevant [CharNames] (engine : Engine σ) (program : Program)
    (hmain : program.main = engine.program.main)
    (hsame : ∀ name, engine.program.Reachable name → engine.program.find? name = program.find? name) (limit : Nat)
    (env : Environment) (s : State σ) :
    ((engine.withProgram program).runWithin limit env).perform s = (engine.runWithin limit env).perform s := by
  have hmain' : (engine.withProgram program).program.main = engine.program.main := hmain
  have hreachable : engine.program.Reachable engine.program.main := Relation.ReflTransGen.refl
  have hfind : (engine.withProgram program).program.find? engine.program.main =
      engine.program.find? engine.program.main :=
    (hsame _ hreachable).symm
  simp only [runWithin, runMain, hmain', hfind, execute_withProgram hsame limit hreachable]

end Programs

def turningCore : Mapping String Routine := [
  ("main", ⟨.null, [], .compose ["ask", "turn"]⟩),
  ("ask", ⟨.null, [], .prompt (.str "") (.str "More? ${more}") [("more", .str "boolean")]⟩),
  ("turn", ⟨.null, [], .branch (.str "more") (.str "main") (.list [.str "spare"])⟩)]

/-- A program that turns back to its main routine, and in the end to what is no name. The routine that looks like the one
meant, and another that leads to it, are out of reach. -/
def turning : Program where
  routines := turningCore ++ [
    ("spare", ⟨.null, [], .compose ["aside"]⟩),
    ("aside", ⟨.null, [], .join ["spare", "main"]⟩)]
  main := .str "main"
  doc := .null

def turned : Program where
  routines := ("ghost", ⟨.null, [], .unknown "void" []⟩) :: ("spare", ⟨.null, [], .define []⟩) :: turningCore
  main := .str "main"
  doc := .str "Other routines around the same ones."

def turningNames : List Value := [.str "main", .str "ask", .str "turn", .list [.str "spare"]]

theorem reachable_turning {name : Value} (h : turning.Reachable name) : name ∈ turningNames := by
  induction h with
  | refl => exact List.mem_cons_self
  | tail _ hrefers ih =>
    obtain ⟨r, hfound, htarget⟩ := hrefers
    simp only [turningNames, List.mem_cons, List.not_mem_nil, or_false] at ih
    rcases ih with rfl | rfl | rfl | rfl
    · cases hfound
      simp only [Body.references, List.map_cons, List.map_nil] at htarget
      grind [turningNames]
    · cases hfound
      simp only [Body.references, List.not_mem_nil] at htarget
    · cases hfound
      simp only [Body.references, List.mem_filter] at htarget
      grind [turningNames]
    · cases hfound

def turningEngine : Engine (List Service.Step) := ⟨turning, some Service.scripted, 1⟩

def turningStart : State (List Service.Step) :=
  ⟨[.give (.map [("more", .bool true)]), .give (.map [("more", .bool false)])], [], ⟨true, []⟩⟩

theorem turning_unchanged :
    turned.main = turning.main ∧ (∀ name, turning.Reachable name → turning.find? name = turned.find? name) ∧
      ((turningEngine.withProgram turned).runWithin 6 []).perform turningStart =
        (turningEngine.runWithin 6 []).perform turningStart := by
  have hsame : ∀ name, turning.Reachable name → turning.find? name = turned.find? name := by
    intro name hname
    have hmem := reachable_turning hname
    simp only [turningNames, List.mem_cons, List.not_mem_nil, or_false] at hmem
    rcases hmem with rfl | rfl | rfl | rfl <;> rfl
  exact ⟨rfl, hsame, unreachable_irrelevant turningEngine turned rfl hsame 6 [] turningStart⟩

end RoutineFlow.Engine
