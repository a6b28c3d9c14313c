import RoutineFlow.Proofs.Findings
import RoutineFlow.Proofs.Keyed

/-!
A valid document says no more than what its program keeps: reading it fills in nothing, and drops only fields that
no table names, empty documentation and passthrough lists, and marks of literals that are not optional.
-/

namespace RoutineFlow

namespace Environment

/-- The fields that a table gives a value for. -/
def keep (table : String → Value → Option Value) (fields : Mapping String Value) : Mapping String Value :=
  fields.filterMap fun (name, v) => (table name v).map fun w => (name, w)

theorem get?_keep {table : String → Value → Option Value} {fields : Mapping String Value}
    (hdistinct : (Mapping.keys fields).Nodup) (name : String) :
    Mapping.get? (keep table fields) name = (Mapping.get? fields name).bind (table name) := by
  induction fields with
  | nil => rfl
  | cons field fields ih =>
    obtain ⟨key, v⟩ := field
    obtain ⟨hkey, hrest⟩ := List.nodup_cons.mp hdistinct
    have hcons : keep table ((key, v) :: fields) =
        ((table key v).map fun w => (key, w)).toList ++ keep table fields := by
      cases htable : table key v <;> simp [keep, htable]
    rw [hcons, Mapping.get?_append, Mapping.get?_cons, ih hrest]
    by_cases hname : name = key
    · subst hname
      have hnone : Mapping.get? fields name = none := Mapping.get?_eq_none hkey
      cases htable : table name v <;> simp [hnone, htable, Mapping.get?_cons, Mapping.get?_nil]
    · cases table key v <;> simp [hname, Mapping.get?_cons, Mapping.get?_nil]

end Environment

namespace Value

/-- Two values are the same but for the order in which mappings hold their keys. -/
inductive Alike : Value → Value → Prop
  | refl (v : Value) : Alike v v
  | map {m n : Environment} (h : ∀ key, Option.Rel Alike (Mapping.get? m key) (Mapping.get? n key)) :
      Alike (.map m) (.map n)

def mapMembers (f : Value → Value) : Value → Value
  | .map entries => .record (Mapping.mapValues f (Environment.named entries))
  | v => v

theorem Alike.record {m n : Mapping String Value}
    (h : ∀ name, Option.Rel Alike (Mapping.get? m name) (Mapping.get? n name)) :
    Alike (.record m) (.record n) :=
  .map (Environment.rel_ofNamed.mpr h)

theorem Alike.mapValues {m : Mapping String Value} {f g : Value → Value}
    (h : ∀ entry ∈ m, Alike (f entry.2) (g entry.2)) :
    Alike (.record (Mapping.mapValues f m)) (.record (Mapping.mapValues g m)) := by
  apply Alike.record
  intro name
  rw [Mapping.get?_mapValues, Mapping.get?_mapValues]
  cases hget : Mapping.get? m name with
  | none => exact .none
  | some v => exact .some (h (name, v) (Mapping.mem_of_get? hget))

end Value

/-- What is kept of a literal. -/
def OutputSpec.keptField (name : String) (v : Value) : Option Value :=
  match name with
  | "type" | "value" => some v
  | "optional" => if v.isEmpty then none else some (.bool true)
  | _ => none

/-- What is kept of a define routine's output. -/
def OutputSpec.kept : Value → Value
  | .map entries => .record (Environment.keep keptField (Environment.named entries))
  | v => v

def Body.fieldNames : String → List String
  | "prompt" => ["dev_msg", "user_msg", "outputs"]
  | "code" => ["code"]
  | "define" => ["outputs"]
  | "if" => ["condition", "then", "else"]
  | "compose" | "join" => ["routines"]
  | _ => []

/-- What is kept of a routine of some kind, when `output` is kept of a define routine's outputs. -/
def Routine.keptField (output : Value → Value) (kind name : String) (v : Value) : Option Value :=
  match name with
  | "type" => some v
  | "doc" => if v.kind = .null then none else some v
  | "passthrough" => match v with
    | .null | .list [] => none
    | v => some v
  | _ =>
    if name ∈ Body.fieldNames kind then some (if kind = "define" then v.mapMembers output else v)
    else none

theorem Routine.keptField_of_not_common (output : Value → Value) (kind : String) {name : String}
    (hname : name ∉ ["type", "doc", "passthrough"]) (v : Value) :
    keptField output kind name v =
      if name ∈ Body.fieldNames kind then some (if kind = "define" then v.mapMembers output else v) else none := by
  unfold keptField
  split <;> first | rfl | simp at hname

theorem Body.not_common_of_mem {kind name : String} (h : name ∈ fieldNames kind) :
    name ∉ ["type", "doc", "passthrough"] := by
  intro hcommon
  simp only [List.mem_cons, List.not_mem_nil, or_false] at hcommon
  unfold fieldNames at h
  obtain rfl | rfl | rfl := hcommon <;> split at h <;> simp at h

def Routine.kept : Value → Value
  | .map entries =>
    let kind := ((Environment.field entries "type").text?).getD ""
    .record (Environment.keep (keptField OutputSpec.kept kind) (Environment.named entries))
  | v => v

/-- What is kept of a program, when `routine` is kept of its routines. -/
def Program.keptField (routine : Value → Value) (name : String) (v : Value) : Option Value :=
  match name with
  | "doc" => if v.kind = .null then none else some v
  | "routines" => some (v.mapMembers routine)
  | "main" => some v
  | _ => none

/-- A document without what reading it drops. -/
def Program.kept : Value → Value
  | .map entries => .record (Environment.keep (keptField Routine.kept) (Environment.named entries))
  | v => v

namespace Validation

variable {fields : Mapping String Value} {c : Context} {kind : String}

/-- What reading and writing make of a define routine's output. -/
def reread (v : Value) : Value :=
  (OutputSpec.ofDocument v).toDocument

/-- The fields that a program writes for a kind of routine are those of the valid document that it was read from. -/
theorem get?_fields_of_valid [CharNames] {entries : Environment} (hkeyed : (Value.map entries).Keyed)
    (hkind : kind ∈ Body.kinds) (htype : Mapping.get? entries "type" = some (.str kind))
    (h : kindFindings c kind entries = .ok []) (name : String) :
    Mapping.get? (Body.ofDocument entries).fields name =
      if name ∈ Body.fieldNames kind then
        (Mapping.get? entries name).map fun v => if kind = "define" then v.mapMembers reread else v
      else none := by
  have hbody : (Mapping.get? entries "type").getD (.str "") = .str kind := by rw [htype]; rfl
  simp only [Body.kinds, List.mem_cons, List.not_mem_nil, or_false] at hkind
  simp only [Body.ofDocument, hbody]
  obtain rfl | rfl | rfl | rfl | rfl | rfl := hkind
  · obtain ⟨hdev, huser, tags, htags, -, -⟩ := exists_map_of_promptFindings (Except.ok.inj h)
    obtain ⟨hdev, hdev'⟩ := get?_of_not_empty hdev
    obtain ⟨huser, huser'⟩ := get?_of_not_empty huser
    have houtputs := Environment.get?_of_field htags (by simp)
    have hrecord := (hkeyed.of_get? houtputs).record_named
    apply Mapping.get?_eq_ite rfl
    simp [Body.fields, hdev, hdev', huser, huser', houtputs, Environment.fieldNamed, htags, Value.mapping, hrecord]
  · obtain ⟨hcode, hcode'⟩ := get?_of_not_empty (nonempty_of_codeFindings h)
    apply Mapping.get?_eq_ite rfl
    simp [Body.fields, hcode, hcode']
  · obtain ⟨outputs, hdefine, -⟩ := exists_map_of_defineFindings (Except.ok.inj h)
    have houtputs := Environment.get?_of_field hdefine (by simp)
    apply Mapping.get?_eq_ite rfl
    simp [Body.fields, houtputs, Environment.fieldNamed, hdefine, Value.mapping, Value.mapMembers,
      Mapping.mapValues_mapValues]
    rfl
  · obtain ⟨hcondition, hthen, helse⟩ := nonempty_of_branchFindings (Except.ok.inj h)
    obtain ⟨hcondition, hcondition'⟩ := get?_of_not_empty hcondition
    apply Mapping.get?_eq_ite rfl
    simp [Body.fields, hcondition, hcondition', (get?_of_not_empty hthen).1, (get?_of_not_empty helse).1]
  · obtain ⟨names, hlist, -, -, hnames⟩ := exists_list_of_listFindings (Except.ok.inj h)
    apply Mapping.get?_eq_ite rfl
    simp [Body.fields, hnames, Environment.get?_of_field hlist]
  · obtain ⟨names, hlist, -, -, hnames⟩ := exists_list_of_listFindings (Except.ok.inj h)
    apply Mapping.get?_eq_ite rfl
    simp [Body.fields, hnames, Environment.get?_of_field hlist]

theorem kind_ofDocument {entries : Environment} (hkind : kind ∈ Body.kinds)
    (htype : Mapping.get? entries "type" = some (.str kind)) : (Body.ofDocument entries).kind = kind := by
  simp only [Body.kinds, List.mem_cons, List.not_mem_nil, or_false] at hkind
  simp only [Body.ofDocument, htype, Option.getD_some]
  obtain rfl | rfl | rfl | rfl | rfl | rfl := hkind <;> rfl

theorem toDocument_of_valid [CharNames] {entries : Environment} (hkeyed : (Value.map entries).Keyed)
    (hkind : kind ∈ Body.kinds) (htype : Mapping.get? entries "type" = some (.str kind))
    (hpass : passthroughFindings entries = []) (h : kindFindings c kind entries = .ok []) :
    ∃ written, (Routine.ofEntries entries).toDocument = .record written ∧
      ∀ name, Mapping.get? written name = (Mapping.get? entries name).bind (Routine.keptField reread kind name) := by
  have hsame : (Body.ofDocument entries).kind = kind := kind_ofDocument hkind htype
  have hknown : ∀ type raw, (Routine.ofEntries entries).body ≠ .unknown type raw := by
    intro type raw hbody
    change Body.ofDocument entries = _ at hbody
    rw [hbody] at hsame
    rw [← hsame] at hkind
    simp [Body.kinds, Body.kind] at hkind
  refine ⟨_, Routine.toDocument_of_known hknown, ?_⟩
  intro name
  rw [Mapping.get?_append, Routine.get?_header]
  change (if name = "type" then some (Value.str (Body.ofDocument entries).kind)
    else if name = "doc" ∧ (Environment.field entries "doc").kind ≠ .null then some (Environment.field entries "doc")
    else if name = "passthrough" ∧ (Environment.field entries "passthrough").names ≠ [] then
      some (Body.namesDocument (Environment.field entries "passthrough").names)
    else none).or (Mapping.get? (Body.ofDocument entries).fields name) = _
  by_cases htypeName : name = "type"
  · subst htypeName
    simp [hsame, htype, Routine.keptField]
  by_cases hdocName : name = "doc"
  · subst hdocName
    rw [Routine.get?_fields _ (by simp), Option.or_none, Environment.field]
    cases hget : Mapping.get? entries "doc" with
    | none => simp [Value.kind]
    | some v => by_cases hnull : v.kind = .null <;> simp [hnull, Routine.keptField]
  by_cases hpassName : name = "passthrough"
  · subst hpassName
    rw [Routine.get?_fields _ (by simp), Option.or_none]
    obtain hnull | ⟨names, hnames, hlist⟩ := null_or_names_of_passthroughFindings hpass
    · have hget : (Mapping.get? entries "passthrough").getD .null = .null := hnull
      rw [hnull]
      cases hentry : Mapping.get? entries "passthrough" with
      | none => simp [Value.names]
      | some v =>
        obtain rfl : v = .null := by simpa [hentry] using hget
        simp [Value.names, Routine.keptField]
    · rw [Environment.get?_of_field hnames (by simp), hlist, hnames]
      cases names with
      | nil => simp [Value.names, Routine.keptField]
      | cons first others => simp [Value.names, Routine.keptField]
  · rw [get?_fields_of_valid hkeyed hkind htype h]
    have hother : Routine.keptField reread kind name = fun v =>
        if name ∈ Body.fieldNames kind then some (if kind = "define" then v.mapMembers reread else v) else none :=
      funext (Routine.keptField_of_not_common reread kind (by simp [htypeName, hdocName, hpassName]))
    rw [hother]
    by_cases hfield : name ∈ Body.fieldNames kind
    · simp only [htypeName, hdocName, hpassName, hfield, false_and, ↓reduceIte, Option.none_or]
      exact Option.map_eq_bind
    · simp [htypeName, hdocName, hpassName, hfield]

theorem get?_keep_named {entries : Environment} (hkeyed : (Value.map entries).Keyed)
    (table : String → Value → Option Value) (name : String) :
    Mapping.get? (Environment.keep table (Environment.named entries)) name =
      (Mapping.get? entries name).bind (table name) := by
  rw [← hkeyed.get?_named]
  exact Environment.get?_keep hkeyed.distinct_named name

theorem reread_literal {entries : Environment} {tag : String}
    (htype : Mapping.get? entries "type" = some (.str tag)) :
    ∃ written, reread (.map entries) = .record written ∧
      ∀ name, Mapping.get? written name = (Mapping.get? entries name).bind (OutputSpec.keptField name) := by
  refine ⟨_, rfl, ?_⟩
  intro name
  rw [Mapping.get?_append, Mapping.get?_append, htype]
  by_cases htypeName : name = "type"
  · subst htypeName
    simp [htype, OutputSpec.keptField, Mapping.get?_cons]
  by_cases hvalueName : name = "value"
  · subst hvalueName
    cases hvalue : Mapping.get? entries "value" <;> cases hoptional : (Environment.field entries "optional").isEmpty <;>
      simp [OutputSpec.keptField, Mapping.get?_cons, Mapping.get?_nil]
  by_cases hoptionalName : name = "optional"
  · subst hoptionalName
    unfold Environment.field
    cases hvalue : Mapping.get? entries "value" <;> cases hoptional : Mapping.get? entries "optional" with
    | none => simp [Mapping.get?_cons, Mapping.get?_nil, Value.isEmpty]
    | some v =>
      cases hempty : v.isEmpty <;> simp [hempty, OutputSpec.keptField, Mapping.get?_cons, Mapping.get?_nil]
  · have hdropped : OutputSpec.keptField name = fun _ => none := by
      funext v
      unfold OutputSpec.keptField
      split <;> first | contradiction | rfl
    rw [hdropped]
    cases hvalue : Mapping.get? entries "value" <;> cases hoptional : (Environment.field entries "optional").isEmpty <;>
      simp [htypeName, hvalueName, hoptionalName, Mapping.get?_cons, Mapping.get?_nil]

theorem alike_output {available : List String} {outputs : Mapping String Value} {key : String} {spec : Value}
    (hkeyed : spec.Keyed) (h : outputFindings available outputs key spec = []) :
    (reread spec).Alike (OutputSpec.kept spec) := by
  cases spec with
  | map entries =>
    obtain ⟨tag, htag⟩ := text_of_tagFindings h
    obtain ⟨written, hwritten, hget⟩ := reread_literal (Environment.get?_of_field htag (by simp))
    rw [hwritten]
    apply Value.Alike.record
    intro name
    rw [hget, get?_keep_named hkeyed]
    cases (Mapping.get? entries name).bind (OutputSpec.keptField name) with
    | none => exact .none
    | some v => exact .some (.refl v)
  | str s => exact .refl _
  | _ => cases h

/-- Values with the same fields are alike if what two tables keep of each is. -/
theorem alike_keep {entries : Environment} {written : Mapping String Value} {table table' : String → Value → Option Value}
    (hkeyed : (Value.map entries).Keyed)
    (hwritten : ∀ name, Mapping.get? written name = (Mapping.get? entries name).bind (table name))
    (h : ∀ (name : String) v, Mapping.get? entries name = some v → Option.Rel Value.Alike (table name v) (table' name v)) :
    (Value.record written).Alike (.record (Environment.keep table' (Environment.named entries))) := by
  apply Value.Alike.record
  intro name
  rw [hwritten, get?_keep_named hkeyed]
  cases hget : Mapping.get? entries name with
  | none => exact .none
  | some v => exact h name v hget

theorem rel_refl (o : Option Value) : Option.Rel Value.Alike o o := by
  cases o with
  | none => exact .none
  | some v => exact .some (.refl v)

theorem alike_routine [CharNames] {routine : Value} (hkeyed : routine.Keyed) (h : routineFindings c routine = .ok []) :
    (Routine.ofDocument routine).toDocument.Alike (Routine.kept routine) := by
  obtain ⟨entries, kind, rfl, hkind, htype, hpass, hfields⟩ := routineFindings_eq_nil h
  obtain ⟨written, hwritten, hget⟩ := toDocument_of_valid hkeyed hkind htype hpass hfields
  have hkept : Routine.kept (.map entries) =
      .record (Environment.keep (Routine.keptField OutputSpec.kept kind) (Environment.named entries)) := by
    simp [Routine.kept, Environment.field, htype, Value.text?]
  change (Routine.ofEntries entries).toDocument.Alike _
  rw [hwritten, hkept]
  apply alike_keep hkeyed hget
  intro name v hv
  -- Only of the outputs of a define routine do the two tables keep something different.
  by_cases hdefine : kind = "define" ∧ name = "outputs"
  · obtain ⟨rfl, rfl⟩ := hdefine
    obtain ⟨outputs, houtputs, hall⟩ := exists_map_of_defineFindings (Except.ok.inj hfields)
    rw [Environment.get?_of_field houtputs (by simp)] at hv
    obtain rfl := Option.some.inj hv
    have hinner := hkeyed.of_get? (Environment.get?_of_field houtputs (by simp))
    refine .some ?_
    change (Value.record (Mapping.mapValues reread _)).Alike (.record (Mapping.mapValues OutputSpec.kept _))
    apply Value.Alike.mapValues
    intro entry hentry
    exact alike_output (hinner.of_mem_named hentry) (hall entry hentry)
  · have hsame : Routine.keptField reread kind name v = Routine.keptField OutputSpec.kept kind name v := by
      unfold Routine.keptField
      by_cases hkindDefine : kind = "define"
      · have hname : name ∉ Body.fieldNames kind := by
          subst hkindDefine
          simpa [Body.fieldNames] using hdefine
        simp only [hname, ↓reduceIte]
      · simp only [hkindDefine, ↓reduceIte]
    rw [hsame]
    exact rel_refl _

def rereadRoutine (v : Value) : Value :=
  (Routine.ofDocument v).toDocument

theorem outputFindings_reread {available : List String} {outputs : Mapping String Value} {key : String}
    {spec : Value} (h : outputFindings available outputs key spec = []) :
    outputFindings available (Mapping.mapValues reread outputs) key (reread spec) = [] := by
  cases spec with
  | map entries =>
    obtain ⟨tag, htag⟩ := text_of_tagFindings h
    have htype := Environment.get?_of_field htag (by simp)
    obtain ⟨written, hwritten, hget⟩ := reread_literal htype
    rw [hwritten]
    change tagFindings (Environment.field (Environment.ofNamed written) "type") = []
    rw [Environment.field_ofNamed, hget, htype]
    change tagFindings (.str tag) = []
    rw [← htag]
    exact h
  | str s =>
    change outputFindings available (Mapping.mapValues reread outputs) key (.str s) = []
    simpa [outputFindings, Mapping.has, Mapping.get?_mapValues] using h
  | _ => cases h

theorem kindFindings_reread [CharNames] {entries : Environment} {written : Mapping String Value} (f : Value → Value)
    (hkind : kind ∈ Body.kinds) (h : kindFindings c kind entries = .ok [])
    (hget : ∀ name, Mapping.get? written name = (Mapping.get? entries name).bind (Routine.keptField reread kind name)) :
    kindFindings { c with routines := Mapping.mapValues f c.routines } kind (Environment.ofNamed written) =
      .ok [] := by
  have hfield : kind ≠ "define" → ∀ name ∈ Body.fieldNames kind,
      Environment.field (Environment.ofNamed written) name = Environment.field entries name := by
    intro hdefine name hname
    rw [Environment.field_ofNamed, hget, Environment.field]
    cases Mapping.get? entries name with
    | none => rfl
    | some v =>
      rw [Option.bind_some, Routine.keptField_of_not_common _ _ (Body.not_common_of_mem hname), if_pos hname,
        if_neg hdefine]
  simp only [Body.kinds, List.mem_cons, List.not_mem_nil, or_false] at hkind
  obtain rfl | rfl | rfl | rfl | rfl | rfl := hkind
  · rw [← h]
    simp [kindFindings, promptFindings, hfield, Body.fieldNames]
  · rw [← h]
    simp [kindFindings, codeFindings, hfield, Body.fieldNames]
  · obtain ⟨outputs, houtputs, hall⟩ := exists_map_of_defineFindings (Except.ok.inj h)
    have hwritten : Environment.field (Environment.ofNamed written) "outputs" =
        .record (Mapping.mapValues reread (Environment.named outputs)) := by
      rw [Environment.field_ofNamed, hget, Environment.get?_of_field houtputs (by simp)]
      rfl
    have hrow : defineFindings c.available (Environment.ofNamed written) = [] := by
      rw [defineFindings, hwritten]
      simp only [Value.record]
      rw [List.flatMap_eq_nil_iff, Environment.named_ofNamed]
      intro entry hentry
      obtain ⟨⟨key, spec⟩, hspec, rfl⟩ := List.mem_map.mp hentry
      exact outputFindings_reread (hall _ hspec)
    exact congrArg Except.ok hrow
  · rw [← h]
    simp [kindFindings, branchFindings, hfield, Body.fieldNames, referenceFindings_mapValues]
  · rw [← h]
    simp [kindFindings, listFindings, hfield, Body.fieldNames, referenceFindings_mapValues]
  · rw [← h]
    simp [kindFindings, listFindings, hfield, Body.fieldNames, referenceFindings_mapValues]

theorem passthroughFindings_reread {entries : Environment} {written : Mapping String Value}
    (h : passthroughFindings entries = [])
    (hget : ∀ name, Mapping.get? written name = (Mapping.get? entries name).bind (Routine.keptField reread kind name)) :
    passthroughFindings (Environment.ofNamed written) = [] := by
  have hfield : Environment.field (Environment.ofNamed written) "passthrough" =
      ((Mapping.get? entries "passthrough").bind (Routine.keptField reread kind "passthrough")).getD .null := by
    rw [Environment.field_ofNamed, hget]
  rw [passthroughFindings, hfield]
  obtain hnull | ⟨names, hnames, -⟩ := null_or_names_of_passthroughFindings h
  · have hvalue : (Mapping.get? entries "passthrough").getD .null = .null := hnull
    cases hentry : Mapping.get? entries "passthrough" with
    | none => rfl
    | some v =>
      obtain rfl : v = .null := by simpa [hentry] using hvalue
      rfl
  · rw [Environment.get?_of_field hnames (by simp)]
    cases names with
    | nil => rfl
    | cons first others =>
      rw [passthroughFindings, hnames] at h
      exact h

theorem routineFindings_reread [CharNames] {routine : Value} (f : Value → Value) (hkeyed : routine.Keyed)
    (h : routineFindings c routine = .ok []) :
    routineFindings { c with routines := Mapping.mapValues f c.routines } (rereadRoutine routine) = .ok [] := by
  obtain ⟨entries, kind, rfl, hkind, htype, hpass, hfields⟩ := routineFindings_eq_nil h
  obtain ⟨written, hwritten, hget⟩ := toDocument_of_valid hkeyed hkind htype hpass hfields
  change routineFindings _ (Routine.ofEntries entries).toDocument = _
  rw [hwritten]
  have htype' : Environment.field (Environment.ofNamed written) "type" = .str kind := by
    rw [Environment.field_ofNamed, hget, htype]
    rfl
  have hpass' := passthroughFindings_reread hpass hget
  have hfields' := kindFindings_reread f hkind hfields hget
  simp only [Value.record, routineFindings, htype', Value.text?, List.contains_iff_mem.mpr hkind, ↓reduceIte, hpass',
    hfields']
  rfl

theorem namesOf_reread [CharNames] {routine : Value} (hkeyed : routine.Keyed) (h : routineFindings c routine = .ok []) :
    namesOf (rereadRoutine routine) = namesOf routine := by
  obtain ⟨entries, kind, rfl, hkind, htype, hpass, hfields⟩ := routineFindings_eq_nil h
  obtain ⟨written, hwritten, hget⟩ := toDocument_of_valid hkeyed hkind htype hpass hfields
  change namesOf (Routine.ofEntries entries).toDocument = _
  rw [hwritten]
  have htype' : Environment.field (Environment.ofNamed written) "type" = .str kind := by
    rw [Environment.field_ofNamed, hget, htype]
    rfl
  have htypeField : Environment.field entries "type" = .str kind := by
    rw [Environment.field, htype]
    rfl
  simp only [Value.record, namesOf, htype', htypeField]
  by_cases hdefine : kind = "define"
  · subst hdefine
    obtain ⟨outputs, houtputs, -⟩ := exists_map_of_defineFindings (Except.ok.inj hfields)
    have houtputs' : Environment.field (Environment.ofNamed written) "outputs" =
        .record (Mapping.mapValues reread (Environment.named outputs)) := by
      rw [Environment.field_ofNamed, hget, Environment.get?_of_field houtputs (by simp)]
      rfl
    simp only [houtputs, houtputs', Value.record, Environment.named_ofNamed, Mapping.keys_mapValues]
  · split
    · simp_all
    · split
      · simp_all
      · rfl

theorem definedNames_reread [CharNames] {routines : Mapping String Value}
    (h : ∀ entry ∈ routines, entry.2.Keyed ∧ routineFindings c entry.2 = .ok []) :
    definedNames (Mapping.mapValues rereadRoutine routines) = definedNames routines := by
  change (Mapping.mapValues rereadRoutine routines).flatMap (fun entry => namesOf entry.2) =
    routines.flatMap fun entry => namesOf entry.2
  rw [Mapping.mapValues, List.flatMap_map]
  apply List.flatMap_congr
  intro entry hentry
  exact namesOf_reread (h entry hentry).1 (h entry hentry).2

variable {entries routines : Environment}

theorem get?_fields_of_main (hroutines : Environment.field entries "routines" = .map routines)
    (hmain : (Environment.field entries "main").isEmpty = false) (name : String) :
    Mapping.get? (Program.ofEntries entries).fields name =
      (Mapping.get? entries name).bind (Program.keptField rereadRoutine name) := by
  rw [Program.get?_fields]
  by_cases hdocName : name = "doc"
  · subst hdocName
    change (if "doc" = "doc" ∧ (Environment.field entries "doc").kind ≠ .null then
      some (Environment.field entries "doc") else _) = _
    rw [Environment.field]
    cases hget : Mapping.get? entries "doc" with
    | none => simp [Value.kind]
    | some v => by_cases hnull : v.kind = .null <;> simp [hnull, Program.keptField]
  by_cases hroutinesName : name = "routines"
  · subst hroutinesName
    rw [Environment.get?_of_field hroutines (by simp)]
    simp [Program.keptField, Value.mapMembers, Program.ofEntries, Environment.fieldNamed, hroutines, Value.mapping,
      Mapping.mapValues_mapValues]
    rfl
  by_cases hmainName : name = "main"
  · subst hmainName
    rw [(get?_of_not_empty hmain).1]
    simp [Program.keptField, Program.ofEntries]
  · have hdropped : Program.keptField rereadRoutine name = fun _ => none := by
      funext v
      unfold Program.keptField
      split <;> first | contradiction | rfl
    simp [hdocName, hroutinesName, hmainName, hdropped]

/-- A valid document is kept when its program is read: the program's own document is valid too, and says the same
but for what no table names, empty documentation and passthrough lists, and the marks of literals. -/
theorem valid_document_kept [CharNames] (document : Value) (knownInputs : List String) (checkCode : Bool)
    (hkeyed : document.Keyed) (hvalid : validate document knownInputs checkCode = .ok []) :
    ∃ p, Program.ofDocument document = .ok p ∧ validate p.toDocument knownInputs checkCode = .ok [] ∧
      p.toDocument.Alike (Program.kept document) := by
  obtain ⟨entries, routines, rfl, hroutines, hmain, hall⟩ := validate_eq_nil.mp hvalid
  have hnonempty : (Environment.field entries "main").isEmpty = false := by
    by_cases hempty : (Environment.field entries "main").isEmpty
    · simp [mainFindings, hempty] at hmain
    · simpa using hempty
  have hget := get?_fields_of_main hroutines hnonempty
  have hinner := hkeyed.of_get? (Environment.get?_of_field hroutines (by simp))
  have hroutine : ∀ entry ∈ Environment.named routines, entry.2.Keyed ∧ routineFindings _ entry.2 = .ok [] :=
    fun entry hentry => ⟨hinner.of_mem_named hentry, forall_of_allFindings hall entry hentry⟩
  have hroutines' : Environment.field (Environment.ofNamed (Program.ofEntries entries).fields) "routines" =
      .record (Mapping.mapValues rereadRoutine (Environment.named routines)) := by
    rw [Environment.field_ofNamed, hget, Environment.get?_of_field hroutines (by simp)]
    rfl
  have hmain' : Environment.field (Environment.ofNamed (Program.ofEntries entries).fields) "main" =
      Environment.field entries "main" := by
    rw [Environment.field_ofNamed, hget, (get?_of_not_empty hnonempty).1]
    rfl
  refine ⟨Program.ofEntries entries, rfl, ?_, ?_⟩
  · rw [Program.toDocument_eq, validate_eq_nil]
    refine ⟨_, _, rfl, hroutines', ?_, ?_⟩
    · rw [Environment.named_ofNamed, mainFindings_mapValues, hmain', hmain]
    · rw [Environment.named_ofNamed, definedNames_reread hroutine]
      apply allFindings_of_forall
      intro entry hentry
      obtain ⟨⟨name, routine⟩, hmem, rfl⟩ := List.mem_map.mp hentry
      exact routineFindings_reread rereadRoutine (hroutine _ hmem).1 (hroutine _ hmem).2
  · rw [Program.toDocument_eq]
    apply alike_keep hkeyed hget
    intro name v hv
    by_cases hname : name = "routines"
    · subst hname
      rw [Environment.get?_of_field hroutines (by simp)] at hv
      obtain rfl := Option.some.inj hv
      refine .some (Value.Alike.mapValues ?_)
      intro entry hentry
      exact alike_routine (hroutine entry hentry).1 (hroutine entry hentry).2
    · have hsame : Program.keptField rereadRoutine name v = Program.keptField Routine.kept name v := by
        unfold Program.keptField
        split <;> first | contradiction | rfl
      rw [hsame]
      exact rel_refl _

/-- Notes, a colour, empty documentation, an empty passthrough list, and marks of literals in other words. -/
def greeting : Value :=
  .record [("note", .str "first draft"), ("main", .str "start"), ("doc", .null),
    ("routines", .record [
      ("start", .record [("routines", .list [.str "setup", .str "answer"]), ("type", .str "compose"),
        ("passthrough", .list []), ("colour", .str "red")]),
      ("setup", .record [("type", .str "define"), ("outputs", .record [
        ("name", .record [("value", .str "you"), ("optional", .int 1), ("type", .str "string")]),
        ("count", .record [("type", .str "number"), ("optional", .int 0)]), ("copy", .str "name")])]),
      ("answer", .record [("type", .str "code"), ("code", .str "{answer: input.name}"),
        ("passthrough", .null)])])]

theorem greeting_kept : validate greeting [] false = .ok [] ∧ ∃ p, Program.ofDocument greeting = .ok p ∧
    validate p.toDocument [] false = .ok [] ∧ p.toDocument.Alike (.record [("main", .str "start"),
      ("routines", .record [
        ("start", .record [("routines", .list [.str "setup", .str "answer"]), ("type", .str "compose")]),
        ("setup", .record [("type", .str "define"), ("outputs", .record [
          ("name", .record [("value", .str "you"), ("optional", .bool true), ("type", .str "string")]),
          ("count", .record [("type", .str "number")]), ("copy", .str "name")])]),
        ("answer", .record [("type", .str "code"), ("code", .str "{answer: input.name}")])])]) := by
  have hvalid : validate greeting [] false = .ok [] := by with_unfolding_all rfl
  have hkeyed : greeting.Keyed := by simp [greeting, Mapping.keys, Value.int]
  have hkept : Program.kept greeting = .record [("main", .str "start"), ("routines", .record [
      ("start", .record [("routines", .list [.str "setup", .str "answer"]), ("type", .str "compose")]),
      ("setup", .record [("type", .str "define"), ("outputs", .record [
        ("name", .record [("value", .str "you"), ("optional", .bool true), ("type", .str "string")]),
        ("count", .record [("type", .str "number")]), ("copy", .str "name")])]),
      ("answer", .record [("type", .str "code"), ("code", .str "{answer: input.name}")])])] := by
    with_unfolding_all rfl
  rw [← hkept]
  exact ⟨hvalid, valid_document_kept greeting [] false hkeyed hvalid⟩

end Validation

end RoutineFlow
