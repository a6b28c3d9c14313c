import RoutineFlow.Proofs.Dispatch
import RoutineFlow.Proofs.Mapping
import RoutineFlow.Proofs.Results
import RoutineFlow.Validation

/-!
A document without findings describes a closed program. The findings read the fields as they are given, and
the program is made of what stands in for them, so each field is followed from the one to the other.
-/

namespace RoutineFlow

namespace Program

theorem find?_ofEntries (entries : Environment) (name : String) :
    (ofEntries entries).find? (.str name) =
      (Mapping.get? (Environment.fieldNamed entries "routines") name).map Routine.ofDocument :=
  Mapping.get?_mapValues _ _ _

end Program

namespace Validation

open Results (bind_eq_ok)

theorem text?_eq_some {v : Value} {s : String} (h : v.text? = some s) : v = .str s := by
  cases v <;> cases h
  rfl

theorem when_eq_nil {condition : Bool} {message : String} :
    when condition message = [] ↔ condition = false := by
  cases condition <;> simp [when]

theorem find?_of_isName {entries : Environment} {v : Value}
    (h : isName (Environment.fieldNamed entries "routines") v = true) :
    ∃ name, v = .str name ∧ ((Program.ofEntries entries).find? (.str name)).isSome := by
  cases v with
  | str name =>
    refine ⟨name, rfl, ?_⟩
    rw [Program.find?_ofEntries, Option.isSome_map]
    exact h
  | _ => cases h

theorem find?_of_referenceFindings {entries : Environment} {v : Value}
    (h : referenceFindings (Environment.fieldNamed entries "routines") v = []) :
    ∃ name, v = .str name ∧ ((Program.ofEntries entries).find? (.str name)).isSome := by
  rw [referenceFindings, when_eq_nil, Bool.not_eq_false'] at h
  exact find?_of_isName h

variable {document entries : Environment}

theorem closed_of_branchFindings
    (h : branchFindings (Environment.fieldNamed document "routines") entries = []) :
    ∀ target ∈ [Environment.field entries "then", Environment.field entries "else"],
      target.isEmpty = false ∧ ((Program.ofEntries document).find? target).isSome := by
  obtain ⟨hmissing, hreferences⟩ := List.append_eq_nil_iff.mp h
  rw [when_eq_nil, Bool.or_eq_false_iff, Bool.or_eq_false_iff] at hmissing
  obtain ⟨⟨-, hthen⟩, helse⟩ := hmissing
  intro target htarget
  have hempty : target.isEmpty = false := by
    simp only [List.mem_cons, List.not_mem_nil, or_false] at htarget
    obtain rfl | rfl := htarget
    · exact hthen
    · exact helse
  refine ⟨hempty, ?_⟩
  rw [List.flatMap_eq_nil_iff] at hreferences
  have hmem : target ∈ [Environment.field entries "then", Environment.field entries "else"].filter
      fun v => !v.isEmpty := List.mem_filter.mpr ⟨htarget, by rw [hempty]; rfl⟩
  obtain ⟨name, rfl, hfound⟩ := find?_of_referenceFindings (hreferences target hmem)
  exact hfound

theorem closed_of_listFindings {label : String}
    (h : listFindings (Environment.fieldNamed document "routines") entries label = []) :
    ∀ name ∈ (Environment.field entries "routines").names,
      ((Program.ofEntries document).find? (.str name)).isSome := by
  unfold listFindings at h
  split at h
  · rename_i names hnames
    obtain ⟨-, hreferences⟩ := List.append_eq_nil_iff.mp h
    rw [List.flatMap_eq_nil_iff] at hreferences
    intro name hname
    rw [hnames] at hname
    obtain ⟨v, hv, rfl⟩ := List.mem_map.mp hname
    obtain ⟨name, rfl, hfound⟩ := find?_of_referenceFindings (hreferences v hv)
    exact hfound
  · cases h

theorem closed_of_kindFindings [CharNames] {c : Context} {kind : String} (hkind : kind ∈ Body.kinds)
    (htype : Environment.field entries "type" = .str kind)
    (hroutines : c.routines = Environment.fieldNamed document "routines")
    (h : kindFindings c kind entries = .ok []) : (Body.ofDocument entries).Closed (Program.ofEntries document) := by
  -- a type that is a text is there, so what stands in for a missing one does not matter
  have hgiven : (Mapping.get? entries "type").getD (.str "") = .str kind := by
    unfold Environment.field at htype
    cases hget : Mapping.get? entries "type" with
    | none =>
      rw [hget] at htype
      cases htype
    | some v =>
      rw [hget] at htype
      exact htype
  simp only [Body.kinds, List.mem_cons, List.not_mem_nil, or_false] at hkind
  unfold kindFindings at h
  rw [hroutines] at h
  unfold Body.ofDocument
  rw [hgiven]
  obtain rfl | rfl | rfl | rfl | rfl | rfl := hkind
  · trivial
  · trivial
  · trivial
  · exact closed_of_branchFindings (Except.ok.inj h)
  · exact closed_of_listFindings (Except.ok.inj h)
  · exact closed_of_listFindings (Except.ok.inj h)

theorem closed_of_routineFindings [CharNames] {c : Context} {routine : Value}
    (hroutines : c.routines = Environment.fieldNamed document "routines")
    (h : routineFindings c routine = .ok []) :
    (Routine.ofDocument routine).body.Closed (Program.ofEntries document) := by
  cases routine with
  | map entries =>
    simp only [routineFindings] at h
    cases htype : (Environment.field entries "type").text? with
    | none => simp [htype] at h
    | some kind =>
      simp only [htype] at h
      split at h
      · rename_i hkind
        obtain ⟨fields, hfields, h⟩ := bind_eq_ok.mp h
        obtain ⟨-, rfl⟩ := List.append_eq_nil_iff.mp (Except.ok.inj h)
        exact closed_of_kindFindings (List.contains_iff_mem.mp hkind) (text?_eq_some htype) hroutines hfields
      · cases h
  | _ => cases h

theorem forall_of_allFindings [CharNames] {c : Context} {routines : Mapping String Value}
    (h : allFindings c routines = .ok []) : ∀ entry ∈ routines, routineFindings c entry.2 = .ok [] := by
  induction routines with
  | nil => simp
  | cons entry routines ih =>
    obtain ⟨first, hfirst, h⟩ := bind_eq_ok.mp h
    obtain ⟨others, hothers, h⟩ := bind_eq_ok.mp h
    obtain ⟨habout, rfl⟩ := List.append_eq_nil_iff.mp (Except.ok.inj h)
    rw [about, List.map_eq_nil_iff] at habout
    rw [habout] at hfirst
    exact List.forall_mem_cons.mpr ⟨hfirst, ih hothers⟩

theorem find?_of_mainFindings {main : Value}
    (h : mainFindings (Environment.fieldNamed document "routines") main = .ok []) :
    main.isEmpty = false ∧ ((Program.ofEntries document).find? main).isSome := by
  unfold mainFindings at h
  split at h
  · cases h
  · split at h
    · cases h
    · split at h
      · rename_i hempty _ hname
        obtain ⟨name, rfl, hfound⟩ := find?_of_isName hname
        exact ⟨Bool.eq_false_iff.mpr hempty, hfound⟩
      · cases h

theorem closed_of_validate [CharNames] {document : Value} {knownInputs : List String} {checkCode : Bool}
    (h : validate document knownInputs checkCode = .ok []) :
    ∃ program, Program.ofDocument document = .ok program ∧ program.Closed := by
  cases document with
  | map entries =>
    obtain ⟨main, hmain, h⟩ := bind_eq_ok.mp h
    obtain ⟨others, hothers, h⟩ := bind_eq_ok.mp h
    obtain ⟨hshape, rfl⟩ := List.append_eq_nil_iff.mp (Except.ok.inj h)
    obtain ⟨-, rfl⟩ := List.append_eq_nil_iff.mp hshape
    obtain ⟨hgiven, hfound⟩ := find?_of_mainFindings hmain
    refine ⟨Program.ofEntries entries, rfl, hgiven, hfound, ?_⟩
    intro name r hr
    cases name with
    | str name =>
      rw [Program.find?_ofEntries, Option.map_eq_some_iff] at hr
      obtain ⟨routine, hroutine, rfl⟩ := hr
      obtain ⟨before, after, hentries, -⟩ := List.lookup_eq_some_iff.mp hroutine
      have hmem : (name, routine) ∈ Environment.fieldNamed entries "routines" := by
        rw [hentries]
        exact List.mem_append_right _ List.mem_cons_self
      exact closed_of_routineFindings rfl (forall_of_allFindings hothers _ hmem)
    | _ => cases hr
  | _ => cases h

/-- A run of a program whose document has no findings fails by its service or its depth, if it does not fail
by a value that it could not work with. -/
theorem validated_run_errors [CharNames] (document : Value) (knownInputs : List String) (checkCode : Bool)
    (hvalid : validate document knownInputs checkCode = .ok []) :
    ∃ program, Program.ofDocument document = .ok program ∧
      ∀ {σ : Type} (service : Option (Service σ)) (workers : Int) (limit : Nat) (env : Environment)
        (s s' : State σ) (e : RunError),
        (Engine.runWithin ⟨program, service, workers⟩ limit env).perform s = (.error e, s') →
        e.isDeclared → (∃ routine message, e = .service routine message) ∨ ∃ main, e = .tooDeep main := by
  obtain ⟨program, hprogram, hclosed⟩ := closed_of_validate hvalid
  refine ⟨program, hprogram, ?_⟩
  intro σ service workers limit env s s' e h hdeclared
  have he : e.OfRun := Engine.failsBy_runWithin hclosed limit env h
  cases e with
  | service routine message => exact .inl ⟨routine, message, rfl⟩
  | tooDeep main => exact .inr ⟨main, rfl⟩
  | failed cause => cases hdeclared
  | _ => exact he.elim

def endless : Value :=
  .record [
    ("routines", .record [("main", .record [("type", .str "compose"), ("routines", .list [.str "main"])])]),
    ("main", .str "main")]

def endlessEngine : Engine Unit :=
  ⟨⟨[("main", ⟨.null, [], .compose ["main"]⟩)], .str "main", .null⟩, none, 1⟩

theorem endless_run_errors :
    validate endless [] true = .ok [] ∧ ∃ e s s',
      (Engine.runWithin endlessEngine 3 []).perform s = (.error e, s') ∧ e.isDeclared ∧
        ((∃ routine message, e = .service routine message) ∨ ∃ main, e = .tooDeep main) := by
  have hvalid : validate endless [] true = .ok [] := by cbv
  obtain ⟨program, hprogram, herrors⟩ := validated_run_errors endless [] true hvalid
  obtain rfl : endlessEngine.program = program := Except.ok.inj hprogram
  have hrun : (Engine.runWithin endlessEngine 3 []).perform ⟨(), [], ⟨false, []⟩⟩ =
      (.error (.tooDeep (.str "main")), ⟨(), [], ⟨false, []⟩⟩) := rfl
  exact ⟨hvalid, _, _, _, hrun, rfl, herrors none 1 3 [] _ _ _ hrun rfl⟩

end Validation

end RoutineFlow
