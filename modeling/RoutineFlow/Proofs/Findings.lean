import RoutineFlow.Proofs.Validation

/-!
What a document is like when nothing is found wrong with it, function by function.
-/

namespace RoutineFlow

namespace Validation

open Results (bind_eq_ok)

variable {fields : Mapping String Value} {c : Context} {kind : String}

theorem routineFindings_eq_nil [CharNames] {routine : Value} (h : routineFindings c routine = .ok []) :
    ∃ entries kind, routine = .map entries ∧ kind ∈ Body.kinds ∧
      Mapping.get? entries "type" = some (.str kind) ∧ passthroughFindings entries = [] ∧
      kindFindings c kind entries = .ok [] := by
  cases routine with
  | map entries =>
    simp only [routineFindings] at h
    cases htype : (Environment.field entries "type").text? with
    | none => simp [htype] at h
    | some kind =>
      simp only [htype] at h
      split at h
      · rename_i hkind
        obtain ⟨others, hothers, h⟩ := bind_eq_ok.mp h
        obtain ⟨hpass, rfl⟩ := List.append_eq_nil_iff.mp (Except.ok.inj h)
        have htype := text?_eq_some htype
        refine ⟨entries, kind, rfl, List.contains_iff_mem.mp hkind, ?_, hpass, hothers⟩
        unfold Environment.field at htype
        cases hget : Mapping.get? entries "type" with
        | none => simp [hget] at htype
        | some v => simpa [hget] using htype
      · cases h
  | _ => cases h

theorem get?_of_not_empty {entries : Environment} {name : String}
    (h : (Environment.field entries name).isEmpty = false) :
    Mapping.get? entries name = some (Environment.field entries name) ∧
      (Environment.field entries name).orEmptyText = Environment.field entries name := by
  constructor
  · unfold Environment.field at h ⊢
    cases hget : Mapping.get? entries name with
    | none => simp [hget, Value.isEmpty] at h
    | some v => rfl
  · simp [Value.orEmptyText, h]

theorem exists_map_of_promptFindings {entries : Environment} (h : promptFindings entries = []) :
    (Environment.field entries "dev_msg").isEmpty = false ∧ (Environment.field entries "user_msg").isEmpty = false ∧
      ∃ tags, Environment.field entries "outputs" = .map tags ∧ tags.isEmpty = false ∧
        ∀ entry ∈ tags, tagFindings entry.2 = [] := by
  obtain ⟨hmissing, htags⟩ := List.append_eq_nil_iff.mp h
  simp only [when_eq_nil, Bool.or_eq_false_iff] at hmissing
  obtain ⟨⟨hdev, huser⟩, hnull⟩ := hmissing
  refine ⟨hdev, huser, ?_⟩
  split at htags
  · rename_i houtputs
    simp [houtputs, Value.kind] at hnull
  · rename_i tags houtputs
    obtain ⟨hempty, hall⟩ := List.append_eq_nil_iff.mp htags
    rw [List.flatMap_eq_nil_iff] at hall
    exact ⟨tags, houtputs, when_eq_nil.mp hempty, hall⟩
  · cases htags

theorem namesDocument_names {items : List Value} (h : ∀ v ∈ items, v.kind = .text) :
    Body.namesDocument (Value.list items).names = .list items := by
  have hsame : ∀ v ∈ items, Value.str v.label = v := by
    intro v hv
    have hkind := h v hv
    cases v with
    | str s => rfl
    | num n => cases n <;> cases hkind
    | _ => cases hkind
  rw [Body.namesDocument, Value.names, List.map_map]
  exact congrArg Value.list (List.map_congr_left hsame |>.trans (List.map_id _))

theorem null_or_names_of_passthroughFindings {entries : Environment} (h : passthroughFindings entries = []) :
    Environment.field entries "passthrough" = .null ∨
      ∃ names, Environment.field entries "passthrough" = .list names ∧
        Body.namesDocument (Environment.field entries "passthrough").names = .list names := by
  rw [passthroughFindings, when_eq_nil, Bool.not_eq_false'] at h
  split at h
  · rename_i hnull
    exact .inl hnull
  · rename_i names hnames
    right
    refine ⟨names, hnames, ?_⟩
    rw [hnames]
    apply namesDocument_names
    simpa using h
  · cases h

theorem exists_list_of_listFindings {entries : Environment} {routines : Mapping String Value} {label : String}
    (h : listFindings routines entries label = []) :
    ∃ names, Environment.field entries "routines" = .list names ∧ names.isEmpty = false ∧
      (∀ v ∈ names, referenceFindings routines v = []) ∧
        Body.namesDocument (Environment.field entries "routines").names = .list names := by
  unfold listFindings at h
  split at h
  · rename_i names hnames
    obtain ⟨hempty, hall⟩ := List.append_eq_nil_iff.mp h
    rw [List.flatMap_eq_nil_iff] at hall
    refine ⟨names, hnames, when_eq_nil.mp hempty, hall, ?_⟩
    rw [hnames]
    apply namesDocument_names
    intro v hv
    have hname := hall v hv
    rw [referenceFindings, when_eq_nil, Bool.not_eq_false'] at hname
    cases v with
    | str s => rfl
    | _ => cases hname
  · cases h

theorem nonempty_of_branchFindings {entries : Environment} {routines : Mapping String Value}
    (h : branchFindings routines entries = []) :
    (Environment.field entries "condition").isEmpty = false ∧ (Environment.field entries "then").isEmpty = false ∧
      (Environment.field entries "else").isEmpty = false := by
  obtain ⟨hmissing, -⟩ := List.append_eq_nil_iff.mp h
  rw [when_eq_nil, Bool.or_eq_false_iff, Bool.or_eq_false_iff] at hmissing
  exact ⟨hmissing.1.1, hmissing.1.2, hmissing.2⟩

theorem nonempty_of_codeFindings [CharNames] {entries : Environment} {checkCode : Bool}
    (h : codeFindings checkCode entries = .ok []) : (Environment.field entries "code").isEmpty = false := by
  unfold codeFindings at h
  by_cases hempty : (Environment.field entries "code").isEmpty
  · simp [hempty] at h
  · simpa using hempty

theorem exists_map_of_defineFindings {entries : Environment} {available : List String}
    (h : defineFindings available entries = []) :
    ∃ outputs, Environment.field entries "outputs" = .map outputs ∧
      ∀ entry ∈ Environment.named outputs,
        outputFindings available (Environment.named outputs) entry.1 entry.2 = [] := by
  unfold defineFindings at h
  split at h
  · rename_i outputs houtputs
    rw [List.flatMap_eq_nil_iff] at h
    exact ⟨outputs, houtputs, h⟩
  · cases h

theorem text_of_tagFindings {v : Value} (h : tagFindings v = []) : ∃ tag, v = .str tag := by
  cases v with
  | str tag => exact ⟨tag, rfl⟩
  | _ => simp [tagFindings, when] at h

theorem isName_mapValues (f : Value → Value) (routines : Mapping String Value) :
    isName (Mapping.mapValues f routines) = isName routines := by
  funext v
  cases v with
  | str name => simp [isName, Mapping.has, Mapping.get?_mapValues]
  | _ => rfl

theorem referenceFindings_mapValues (f : Value → Value) (routines : Mapping String Value) :
    referenceFindings (Mapping.mapValues f routines) = referenceFindings routines := by
  funext v
  rw [referenceFindings, referenceFindings, isName_mapValues]

theorem allFindings_of_forall [CharNames] {routines : Mapping String Value}
    (h : ∀ entry ∈ routines, routineFindings c entry.2 = .ok []) : allFindings c routines = .ok [] := by
  induction routines with
  | nil => rfl
  | cons entry routines ih =>
    obtain ⟨hentry, hothers⟩ := List.forall_mem_cons.mp h
    simp only [allFindings]
    rw [hentry, ih hothers]
    rfl

theorem validate_eq_nil [CharNames] {document : Value} {knownInputs : List String} {checkCode : Bool} :
    validate document knownInputs checkCode = .ok [] ↔
      ∃ entries routines, document = .map entries ∧ Environment.field entries "routines" = .map routines ∧
        mainFindings (Environment.named routines) (Environment.field entries "main") = .ok [] ∧
        allFindings ⟨Environment.named routines, knownInputs ++ definedNames (Environment.named routines), checkCode⟩
          (Environment.named routines) = .ok [] := by
  constructor
  · intro h
    cases document with
    | map entries =>
      obtain ⟨main, hmain, h⟩ := bind_eq_ok.mp h
      obtain ⟨others, hothers, h⟩ := bind_eq_ok.mp h
      obtain ⟨hshape, rfl⟩ := List.append_eq_nil_iff.mp (Except.ok.inj h)
      obtain ⟨hkind, rfl⟩ := List.append_eq_nil_iff.mp hshape
      cases hroutines : Environment.field entries "routines" with
      | map routines =>
        rw [hroutines] at hmain hothers
        exact ⟨entries, routines, rfl, hroutines, hmain, hothers⟩
      | num n => cases n <;> simp [hroutines, Value.kind, Number.kind] at hkind
      | _ => simp [hroutines, Value.kind] at hkind
    | _ => cases h
  · rintro ⟨entries, routines, rfl, hroutines, hmain, hothers⟩
    simp only [validate, hroutines, Value.mapping, hmain, hothers]
    rfl

/-- The names that one routine defines. -/
def namesOf (routine : Value) : List String :=
  match routine with
  | .map entries => match Environment.field entries "type", Environment.field entries "outputs" with
    | .str "define", .map outputs => Mapping.keys (Environment.named outputs)
    | _, _ => []
  | _ => []

theorem definedNames_eq (routines : Mapping String Value) :
    definedNames routines = routines.flatMap fun entry => namesOf entry.2 := rfl

theorem mainFindings_mapValues (f : Value → Value) (routines : Mapping String Value) :
    mainFindings (Mapping.mapValues f routines) = mainFindings routines := by
  funext main
  simp only [mainFindings, isName_mapValues]

end Validation

end RoutineFlow
