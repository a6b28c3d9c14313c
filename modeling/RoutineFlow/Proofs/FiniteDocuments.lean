import RoutineFlow.Proofs.Finiteness
import RoutineFlow.Proofs.Keyed
import RoutineFlow.Run.Emit

/-!
Programs, traces and results as documents. What is read from a finite document is written as one, and no finite document
is refused for its doubles.
-/

namespace RoutineFlow

namespace Value

variable {v : Value}

theorem Finite.mapping (h : v.Finite) : Environment.Finite v.mapping := by
  cases v with
  | map entries => exact finite_map.mp h
  | _ => exact Mapping.each_nil

theorem Finite.orEmptyText (h : v.Finite) : v.orEmptyText.Finite := by
  unfold Value.orEmptyText
  split
  · exact .str _
  · exact h

end Value

namespace Environment

open Value

variable {entries : Environment}

theorem Finite.field (h : Environment.Finite entries) (name : String) : (field entries name).Finite :=
  Value.Finite.get? (finite_map.mpr h)

theorem Finite.get?_getD (h : Environment.Finite entries) (name : String) (default : String) :
    ((Mapping.get? entries name).getD (.str default)).Finite := by
  cases hget : Mapping.get? entries name with
  | none => exact .str _
  | some v => exact h.of_get? hget

theorem Finite.named (h : Environment.Finite entries) : ∀ field ∈ named entries, field.2.Finite := by
  intro field hfield
  obtain ⟨entry, hentry, hnamed⟩ := List.mem_filterMap.mp hfield
  obtain ⟨name, -, rfl⟩ := Option.map_eq_some_iff.mp hnamed
  exact (h entry hentry).2

theorem Finite.fieldNamed (h : Environment.Finite entries) (name : String) :
    ∀ field ∈ fieldNamed entries name, field.2.Finite :=
  Finite.named (h.field name).mapping

end Environment

namespace OutputSpec

theorem finite_ofDocument {v : Value} (h : v.Finite) : (ofDocument v).toDocument.Finite := by
  cases v with
  | map entries =>
    have hentries := Value.finite_map.mp h
    simp only [ofDocument, toDocument, Value.finite_record, List.forall_mem_append]
    refine ⟨⟨by simpa using hentries.get?_getD "type" "", ?_⟩, ?_⟩
    · cases hget : Mapping.get? entries "value" with
      | none => simp
      | some w =>
      have hw : w.Finite := hentries.of_get? hget
      simpa using hw
    · split <;> simp
  | _ => exact h

theorem finite_defined? {env : Environment} {spec : OutputSpec} {v : Value} (henv : env.Finite)
    (hspec : spec.toDocument.Finite) (h : Engine.defined? env spec = some v) : v.Finite := by
  unfold Engine.defined? at h
  split at h
  · cases h
    simp only [toDocument, Value.finite_record, List.forall_mem_append] at hspec
    simpa using hspec.1.2
  · split at h <;> cases h
    exact .null
  · simp only at h
    split at h
    · cases h
      exact henv.of_get? ‹_›
    · split at h <;> cases h
      exact .null
  · cases h

end OutputSpec

namespace Routine

theorem finite_fields {r : Routine} (h : r.toDocument.Finite) (hknown : ∀ type raw, r.body ≠ .unknown type raw) :
    ∀ field ∈ r.body.fields, field.2.Finite := by
  rw [toDocument_of_known hknown, Value.finite_record, List.forall_mem_append] at h
  exact h.2

theorem finite_docField {doc : Value} (h : doc.Finite) : ∀ field ∈ docField doc, field.2.Finite := by
  cases doc with
  | null => exact nofun
  | _ => simp [docField, h]

theorem finite_namesDocument (names : List String) : (Body.namesDocument names).Finite := by
  simp [Body.namesDocument]

theorem finite_ofEntries {entries : Environment} (h : Environment.Finite entries) :
    (ofEntries entries).toDocument.Finite := by
  have hheader : ∀ field ∈ (ofEntries entries).header, field.2.Finite := by
    have hdoc := h.field "doc"
    rw [header, List.forall_mem_append, List.forall_mem_append]
    refine ⟨⟨by simp, finite_docField hdoc⟩, ?_⟩
    split
    · simp
    · simpa using finite_namesDocument _
  have hbody : (∃ type, Body.ofDocument entries = .unknown type entries) ∨
      (∀ type raw, Body.ofDocument entries ≠ .unknown type raw) ∧
        ∀ field ∈ (Body.ofDocument entries).fields, field.2.Finite := by
    unfold Body.ofDocument
    simp only
    split
    · right
      simp [Body.fields, (h.field "dev_msg").orEmptyText, (h.field "user_msg").orEmptyText,
        Value.finite_record.mpr (h.fieldNamed "outputs")]
    · right
      simp [Body.fields, (h.field "code").orEmptyText]
    · right
      refine ⟨by simp, ?_⟩
      simp only [Body.fields, List.forall_mem_cons, Value.finite_record, List.not_mem_nil, false_implies,
        implies_true, and_true]
      intro field hfield
      obtain ⟨spec, hspec, rfl⟩ := List.mem_map.mp hfield
      obtain ⟨named, hnamed, rfl⟩ := List.mem_map.mp hspec
      exact OutputSpec.finite_ofDocument (h.fieldNamed "outputs" named hnamed)
    · right
      simp [Body.fields, (h.field "condition").orEmptyText, h.field "then", h.field "else"]
    · right
      simp [Body.fields, finite_namesDocument]
    · right
      simp [Body.fields, finite_namesDocument]
    · left
      exact ⟨_, rfl⟩
  obtain ⟨type, hunknown⟩ | ⟨hknown, hfields⟩ := hbody
  · have hraw : (ofEntries entries).toDocument = .map entries := by
      simp only [toDocument, ofEntries, hunknown]
    rw [hraw, Value.finite_map]
    exact h
  · rw [toDocument_of_known hknown, Value.finite_record, List.forall_mem_append]
    exact ⟨hheader, hfields⟩

end Routine

namespace Program

theorem finite_ofDocument {document : Value} (h : document.Finite) :
    Yields (fun p : Program => p.toDocument.Finite) (ofDocument document) := by
  cases document with
  | map entries =>
    have hentries := Value.finite_map.mp h
    apply Yields.ok
    simp only [toDocument, ofEntries, Value.finite_record, List.forall_mem_append]
    constructor
    · have hdoc := hentries.field "doc"
      exact Routine.finite_docField hdoc
    · simp only [List.forall_mem_cons, Value.finite_record, List.not_mem_nil, false_implies, implies_true, and_true]
      refine ⟨?_, hentries.field "main"⟩
      intro field hfield
      obtain ⟨routine, hroutine, rfl⟩ := List.mem_map.mp hfield
      obtain ⟨named, hnamed, rfl⟩ := List.mem_map.mp hroutine
      exact Routine.finite_ofEntries (hentries.fieldNamed "routines" named hnamed).mapping
  | _ => exact .error _

theorem finite_find? {p : Program} (h : p.toDocument.Finite) {name : Value} {r : Routine}
    (hfind : p.find? name = some r) : r.toDocument.Finite := by
  have hroutines : ∀ field ∈ Mapping.mapValues Routine.toDocument p.routines, field.2.Finite := by
    rw [toDocument, Value.finite_record, List.forall_mem_append] at h
    exact Value.finite_record.mp (h.2 _ List.mem_cons_self)
  cases name with
  | str s => exact hroutines _ (List.mem_map_of_mem (Mapping.mem_of_get? hfind))
  | _ => cases hfind

end Program

namespace Trace

theorem documents_eq_map (traces : List Trace) : documents traces = traces.map toDocument := by
  induction traces with
  | nil => rfl
  | cons t traces ih => rw [documents, ih, List.map_cons]

variable {name : String} {given : Value} {outputs : Environment} (hgiven : given.Finite) (houtputs : outputs.Finite)

include hgiven houtputs

theorem finite_recordFields (kind : String) :
    ∀ field ∈ recordFields ⟨name, given, outputs⟩ kind, field.2.Finite := by
  simp [recordFields, hgiven, houtputs]

theorem finite_prompt {dev : Value} (hdev : dev.Finite) (user : String) :
    (toDocument (.prompt ⟨name, given, outputs⟩ dev user)).Finite := by
  rw [toDocument, Value.finite_record, List.forall_mem_append]
  exact ⟨finite_recordFields hgiven houtputs "prompt", by simp [hdev]⟩

theorem finite_code : (toDocument (.code ⟨name, given, outputs⟩)).Finite :=
  Value.finite_record.mpr (finite_recordFields hgiven houtputs "code")

theorem finite_define : (toDocument (.define ⟨name, given, outputs⟩)).Finite :=
  Value.finite_record.mpr (finite_recordFields hgiven houtputs "define")

theorem finite_branch (taken : Bool) {sub : Trace} (hsub : sub.toDocument.Finite) :
    (toDocument (.branch ⟨name, given, outputs⟩ taken sub)).Finite := by
  rw [toDocument, Value.finite_record, List.forall_mem_append]
  exact ⟨finite_recordFields hgiven houtputs "if", by simp [hsub]⟩

variable {subs : List Trace} (hsubs : ∀ sub ∈ subs, sub.toDocument.Finite)

include hsubs

theorem finite_compose : (toDocument (.compose ⟨name, given, outputs⟩ subs)).Finite := by
  rw [toDocument, Value.finite_record, List.forall_mem_append, documents_eq_map]
  exact ⟨finite_recordFields hgiven houtputs "compose", by simpa using hsubs⟩

theorem finite_join : (toDocument (.join ⟨name, given, outputs⟩ subs)).Finite := by
  rw [toDocument, Value.finite_record, List.forall_mem_append, documents_eq_map]
  exact ⟨finite_recordFields hgiven houtputs "join", by simpa using hsubs⟩

end Trace

namespace Json

/-- Nothing but an integer of too many digits is refused. -/
def OnlyTooLong {α : Type} (r : Except Cause α) : Prop :=
  ∀ cause, r = .error cause → cause = .unwritableInteger

variable {l : Layout}

theorem writeNumber_of_finite {n : Number} (h : n.Finite) : OnlyTooLong (writeNumber l n) := by
  cases n with
  | int i =>
    simp only [writeNumber, Number.intText]
    split
    · rintro _ ⟨⟩
      rfl
    · exact FailsIn.ok _
  | float x =>
    rw [writeNumber, Number.specialWord?_of_isFinite h]
    exact FailsIn.ok _
  | unknown mark => cases h

section Numbers

variable {P : Cause → Prop} {Q : Number → Prop}

theorem failsIn_keyWord (hnumber : ∀ n, Q n → FailsIn P (writeNumber l n)) {key : Key} (h : key.Over Q) :
    FailsIn P (keyWord l key) := by
  cases key with
  | num n => exact hnumber n h
  | _ => exact .ok _

mutual

theorem failsIn_write (hnumber : ∀ n, Q n → FailsIn P (writeNumber l n)) (depth : Nat) :
    ∀ {v : Value}, v.Over Q → FailsIn P (write l depth v)
  | .null, _ => .ok _
  | .bool _, _ => .ok _
  | .num n, h => hnumber n (Value.over_num.mp h)
  | .str _, _ => .ok _
  | .list items, h => by
    rw [write]
    exact (failsIn_writeItems hnumber (depth + 1) (Value.over_list.mp h)).bind fun _ => .ok _
  | .map entries, h => by
    rw [write]
    exact (failsIn_writeEntries hnumber (depth + 1) (Value.over_map.mp h)).bind fun _ => .ok _

theorem failsIn_writeItems (hnumber : ∀ n, Q n → FailsIn P (writeNumber l n)) (depth : Nat) :
    ∀ {items : List Value}, (∀ v ∈ items, v.Over Q) → FailsIn P (writeItems l depth items)
  | [], _ => .ok _
  | v :: rest, h => by
    obtain ⟨hv, hrest⟩ := List.forall_mem_cons.mp h
    rw [writeItems]
    exact (failsIn_write hnumber depth hv).bind fun _ => (failsIn_writeItems hnumber depth hrest).bind fun _ => .ok _

theorem failsIn_writeEntries (hnumber : ∀ n, Q n → FailsIn P (writeNumber l n)) (depth : Nat) :
    ∀ {entries : List (Key × Value)}, Environment.Over Q entries → FailsIn P (writeEntries l depth entries)
  | [], _ => .ok _
  | (key, v) :: rest, h => by
    obtain ⟨⟨hkey, hv⟩, hrest⟩ := Mapping.each_cons.mp h
    rw [writeEntries]
    exact (failsIn_keyWord hnumber hkey).bind fun _ => (failsIn_write hnumber depth hv).bind fun _ =>
      (failsIn_writeEntries hnumber depth hrest).bind fun _ => .ok _

end

end Numbers

theorem write_of_finite (depth : Nat) {v : Value} (h : v.Finite) : OnlyTooLong (write l depth v) :=
  failsIn_write (fun _ => writeNumber_of_finite) depth h

end Json

namespace Emit

/-- However a result is written, it shows finite numbers only, and none of them is refused as not finite. -/
def FiniteIn (program : Program) (r : Engine.Result) : Prop :=
  ∀ options, (resultDocument options program r).Finite ∧
    ∀ indent description, render indent (resultDocument options program r) ≠ .error (.unwritableDouble description)

theorem render_ne {v : Value} (h : v.Finite) (indent : Option Nat) (description : Option String) :
    render indent v ≠ .error (.unwritableDouble description) := by
  intro hrender
  unfold render Json.render at hrender
  cases hwrite : Json.write (layout indent) 0 v with
  | ok cs =>
    rw [hwrite] at hrender
    cases hrender
  | error cause =>
    obtain rfl := Json.write_of_finite 0 h cause hwrite
    rw [hwrite] at hrender
    cases hrender

theorem finiteIn {program : Program} {r : Engine.Result} (hprogram : program.toDocument.Finite)
    (hinputs : r.inputs.Finite) (houtputs : r.outputs.Finite) (htrace : r.trace.toDocument.Finite) :
    FiniteIn program r := by
  intro options
  have hdocument : (resultDocument options program r).Finite := by
    rw [resultDocument, Value.finite_record, List.forall_mem_append, List.forall_mem_append]
    refine ⟨⟨?_, ?_⟩, by simp [houtputs, htrace]⟩
    · split <;> simp [hprogram]
    · split <;> simp [hinputs]
  exact ⟨hdocument, render_ne hdocument⟩

end Emit

end RoutineFlow
