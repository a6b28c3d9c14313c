import RoutineFlow.Proofs.Bracketing
import RoutineFlow.Proofs.Likeness

/-!
A program reads the variables that its routines name and no others: inputs that agree on these are the same to it. Code
reads what it likes, and an empty list of steps passes everything on, so both are left out here.
-/

namespace RoutineFlow

namespace Program

def Names (p : Program) (key : Key) : Prop :=
  ∃ name r, p.Reachable name ∧ p.find? name = some r ∧ r.Names key

/-- Whatever is read is named: no routine that can be reached has code or an empty list of steps. -/
def Explicit (p : Program) : Prop :=
  ∀ name r, p.Reachable name → p.find? name = some r → (∀ code, r.body ≠ .code code) ∧ r.body ≠ .compose []

variable {p : Program}

theorem explicit_of_routines
    (h : ∀ entry ∈ p.routines, (∀ code, entry.2.body ≠ .code code) ∧ entry.2.body ≠ .compose []) : p.Explicit := by
  intro name r _ hfound
  obtain ⟨n, -, hmem⟩ := mem_of_find? hfound
  exact h (n, r) hmem

theorem Names.exists_routine {key : Key} (h : p.Names key) : ∃ entry ∈ p.routines, entry.2.Names key := by
  obtain ⟨name, r, -, hfound, hkey⟩ := h
  obtain ⟨n, -, hmem⟩ := mem_of_find? hfound
  exact ⟨(n, r), hmem, hkey⟩

theorem Explicit.indifferent (hexplicit : p.Explicit) {env env' : Environment}
    (hagree : env.AgreeOn p.Names env') {name : Value} (hreachable : p.Reachable name) {r : Routine}
    (hfound : p.find? name = some r) : Engine.Indifferent r env env' where
  names := fun key hkey => hagree key ⟨name, r, hreachable, hfound, hkey⟩
  code := fun code hcode => absurd hcode ((hexplicit name r hreachable hfound).1 code)
  empty := fun hempty => absurd hempty (hexplicit name r hreachable hfound).2

end Program

namespace Engine

open Run

variable {σ : Type} {engine : Engine σ} {env env' : Environment}

theorem execute_agree [CharNames] {E F : RunError → Prop} (hsequential : engine.isParallel = false)
    (hexplicit : engine.program.Explicit) (limit : Nat) {name : Value} (hreachable : engine.program.Reachable name)
    (hagree : env.AgreeOn engine.program.Names env') (s : State σ) :
    Alike E F Agree s (engine.execute limit name (.map env)) (engine.execute limit name (.map env')) := by
  induction limit generalizing name env env' s with
  | zero => exact .fail _
  | succ limit ih =>
    apply alike_execute rfl hsequential hsequential (fun _ _ _ _ => rfl) rfl _ hagree
    · exact fun r hfound => hexplicit.indifferent hagree hreachable hfound
    -- from the first outputs on, both runs go on with one and the same environment
    · exact fun inner hcalls env' hagree => ih (hreachable.tail hcalls.refers) hagree inner.state

/-- Variables that a program does not name have no influence on its runs, as long as the inputs are such that a run can
start. -/
theorem unnamed_inputs_irrelevant [CharNames] (engine : Engine σ) (hsequential : engine.isParallel = false)
    (hexplicit : engine.program.Explicit) (hagree : env.AgreeOn engine.program.Names env') (hsortable : env.Sortable)
    (hsortable' : env'.Sortable) (limit : Nat) (s : State σ) :
    ((engine.runWithin limit env).perform s).1.map Result.outputs =
        ((engine.runWithin limit env').perform s).1.map Result.outputs ∧
      ((engine.runWithin limit env).perform s).2.requests = ((engine.runWithin limit env').perform s).2.requests ∧
      ((engine.runWithin limit env).perform s).2.service = ((engine.runWithin limit env').perform s).2.service := by
  have halike : Alike (fun _ => False) (fun _ => False) Result.Agree s (engine.runWithin limit env)
      (engine.runWithin limit env') :=
    alike_runWithin rfl rfl (fun _ he => he) (fun _ he => he) (.inl ⟨hsortable, hsortable'⟩)
      fun _ => execute_agree hsequential hexplicit limit .refl hagree _
  obtain ⟨houtputs, hlevel⟩ := (halike s (.refl s)).map_eq (fun _ _ h => h) (fun _ _ => id) (fun _ _ => id)
  exact ⟨houtputs, hlevel.requests, hlevel.service⟩

def inquiry : Program where
  routines := [
    ("main", ⟨.null, [], .branch (.str "curious") (.str "ask") (.str "note")⟩),
    ("ask", ⟨.null, ["topic"], .prompt (.str "") (.str "Why ${topic}?") [("answer", .str "string")]⟩),
    ("note", ⟨.null, [], .define [("topic", .reference (.str "topic?"))]⟩)]
  main := .str "main"
  doc := .null

def inquiryEngine : Engine (List Service.Step) := ⟨inquiry, some Service.scripted, 1⟩

def inquiryStart : State (List Service.Step) :=
  ⟨[.give (.map [("answer", .str "the moon")])], [], ⟨true, []⟩⟩

def signed : Environment := [("user", .str "ann"), ("topic", .str "tides"), ("curious", .bool true)]

def unsigned : Environment := [("curious", .bool true), ("topic", .str "tides")]

theorem mentions_inquiry {name : List Char} (h : Template.Mentions "Why ${topic}?".toList name) :
    name = "topic".toList := by
  obtain ⟨before, after, htext, -, -⟩ := h
  have hdollar : "Why ".toList ++ '$' :: "{topic}?".toList = before ++ '$' :: ('{' :: (name ++ '}' :: after)) := htext
  obtain ⟨-, -, hbraces⟩ := (List.append_cons_inj_of_notMem (by decide) (by decide)).mp hdollar
  have hname : "topic".toList ++ '}' :: ['?'] = name ++ '}' :: after := (List.cons.inj hbraces).2
  exact ((List.append_cons_inj_of_notMem (by decide) (by decide)).mp hname).1.symm

theorem names_inquiry {key : Key} (h : inquiry.Names key) : key = .text "topic" ∨ key = .text "curious" := by
  obtain ⟨entry, hentry, hkey⟩ := h.exists_routine
  simp only [inquiry, List.mem_cons, List.not_mem_nil, or_false] at hentry
  rcases hentry with rfl | rfl | rfl
  · obtain ⟨_, hpass, -⟩ | hcondition := hkey
    · cases hpass
    · exact .inr (Except.ok.inj hcondition).symm
  · obtain ⟨_, hpass, rfl⟩ | ⟨_, hmentions, rfl⟩ := hkey
    · exact .inl (congrArg Key.text (List.mem_singleton.mp hpass))
    · rw [mentions_inquiry hmentions]
      exact .inl rfl
  · obtain ⟨_, hpass, -⟩ | ⟨_, hreference, rfl⟩ := hkey
    · cases hpass
    · have hname : references [("topic", .reference (.str "topic?"))] = ["topic"] := by decide
      rw [hname] at hreference
      exact .inl (congrArg Key.text (List.mem_singleton.mp hreference))

theorem inquiry_ignores_user :
    ((inquiryEngine.runWithin 3 signed).perform inquiryStart).1.map Result.outputs =
        ((inquiryEngine.runWithin 3 unsigned).perform inquiryStart).1.map Result.outputs ∧
      ((inquiryEngine.runWithin 3 signed).perform inquiryStart).2.requests =
        ((inquiryEngine.runWithin 3 unsigned).perform inquiryStart).2.requests ∧
      ((inquiryEngine.runWithin 3 signed).perform inquiryStart).2.service =
        ((inquiryEngine.runWithin 3 unsigned).perform inquiryStart).2.service := by
  have hexplicit : inquiry.Explicit := by
    apply Program.explicit_of_routines
    simp [inquiry]
  have hagree : signed.AgreeOn inquiry.Names unsigned := by
    intro key hkey
    obtain rfl | rfl := names_inquiry hkey
    · rfl
    · rfl
  exact unnamed_inputs_irrelevant inquiryEngine rfl hexplicit hagree ⟨_, rfl⟩ ⟨_, rfl⟩ 3 inquiryStart

def declared : Program := ⟨[("main", ⟨.null, [], .define []⟩)], .str "main", .null⟩

def declaredEngine : Engine Unit := ⟨declared, none, 1⟩

theorem not_names_declared (key : Key) : ¬declared.Names key := by
  intro h
  obtain ⟨entry, hentry, hkey⟩ := h.exists_routine
  rw [List.mem_singleton.mp hentry] at hkey
  obtain ⟨_, hpass, -⟩ | ⟨_, hreference, -⟩ := hkey
  · cases hpass
  · cases hreference

/-- A program that names no variable at all, and inputs that keep it from starting. -/
theorem unordered_inputs_matter :
    declared.Explicit ∧ unordered.AgreeOn declared.Names [] ∧ declaredEngine.isParallel = false ∧
      ((declaredEngine.runWithin 2 unordered).perform mixedStart).1.map Result.outputs = .error mixedError ∧
      ((declaredEngine.runWithin 2 []).perform mixedStart).1.map Result.outputs = .ok [] := by
  refine ⟨Program.explicit_of_routines (by simp [declared]), fun key hkey => absurd hkey (not_names_declared key), rfl,
    ?_, rfl⟩
  have hpresent : ¬declared.MainAbsent := by decide
  rw [run_refuses hpresent sortedKeys_unordered]
  rfl

end Engine

end RoutineFlow
