import RoutineFlow.Proofs.FiniteRuns
import RoutineFlow.Proofs.Rereading
import RoutineFlow.Program.Loading

/-!
What is written of results, traces and programs is read back. The layout makes no difference to it, and nothing but the
numbers decides whether something can be written at all.
-/

namespace RoutineFlow

open Results (bind_eq_ok)

namespace Json

variable {l : Layout}

theorem writeNumber_ok_iff (hfinite : l.finiteOnly = true) (n : Number) : (∃ cs, writeNumber l n = .ok cs) ↔ n.Exact := by
  cases n with
  | int i =>
    simp only [writeNumber, Number.intText, Number.Exact]
    split
    · rename_i hlong
      simpa using Nat.not_lt_of_le hlong
    · rename_i hshort
      simpa using Nat.lt_of_not_le hshort
  | float x =>
    simp only [writeNumber, Number.Exact]
    split
    · rename_i hnone
      simpa using isFinite_of_specialWord? hnone
    · rename_i word hsome
      simp only [writeSpecial, hfinite, ↓reduceIte, reduceCtorEq, exists_false, false_iff]
      intro hx
      rw [Number.specialWord?_of_isFinite hx] at hsome
      cases hsome
  | unknown mark => simp [writeNumber, writeSpecial, hfinite, Number.Exact]

variable {P : Number → Prop} (hnumber : ∀ n, (∃ cs, writeNumber l n = .ok cs) ↔ P n)

include hnumber

theorem keyWord_ok_iff {key : Key} : (∃ cs, keyWord l key = .ok cs) ↔ key.Over P := by
  cases key with
  | num n => exact hnumber n
  | _ => simp [keyWord, Key.Over]

theorem write_ok_iff (v : Value) (depth : Nat) : (∃ cs, write l depth v = .ok cs) ↔ v.Over P := by
  induction v using Value.induct generalizing depth with
  | null => simp [write]
  | bool b => simp [write]
  | num n => simpa [write] using hnumber n
  | str s => simp [write]
  | list items ih =>
    have hitems : (∃ members, writeItems l (depth + 1) items = .ok members) ↔ ∀ v ∈ items, v.Over P := by
      induction items with
      | nil => simp [writeItems]
      | cons v items ihitems =>
        obtain ⟨hv, hrest⟩ := List.forall_mem_cons.mp ih
        rw [List.forall_mem_cons, ← ihitems hrest, ← hv (depth + 1)]
        constructor
        · rintro ⟨members, h⟩
          obtain ⟨member, others, -, hmember, hothers⟩ := writeItems_eq_ok h
          exact ⟨⟨member, hmember⟩, others, hothers⟩
        · rintro ⟨⟨member, hmember⟩, others, hothers⟩
          exact ⟨member :: others, by rw [writeItems, hmember, hothers]; rfl⟩
    rw [Value.over_list, ← hitems, write]
    constructor
    · rintro ⟨cs, h⟩
      obtain ⟨members, hmembers, -⟩ := bind_eq_ok.mp h
      exact ⟨members, hmembers⟩
    · rintro ⟨members, hmembers⟩
      exact ⟨_, by rw [hmembers]; rfl⟩
  | map entries ih =>
    have hentries : (∃ members, writeEntries l (depth + 1) entries = .ok members) ↔
        Environment.Over P entries := by
      induction entries with
      | nil => exact iff_of_true ⟨[], rfl⟩ Mapping.each_nil
      | cons entry entries ihentries =>
        obtain ⟨key, v⟩ := entry
        obtain ⟨hv, hrest⟩ := List.forall_mem_cons.mp ih
        rw [Environment.Over, Mapping.each_cons, ← keyWord_ok_iff hnumber, ← hv (depth + 1)]
        refine Iff.trans ?_ (and_congr_right fun _ => ihentries hrest)
        constructor
        · rintro ⟨members, h⟩
          obtain ⟨word, member, others, -, hword, hmember, hothers⟩ := writeEntries_eq_ok h
          exact ⟨⟨⟨word, hword⟩, member, hmember⟩, others, hothers⟩
        · rintro ⟨⟨⟨word, hword⟩, member, hmember⟩, others, hothers⟩
          exact ⟨_, by rw [writeEntries, hword, hmember, hothers]; rfl⟩
    rw [Value.over_map, ← hentries, write]
    constructor
    · rintro ⟨cs, h⟩
      obtain ⟨members, hmembers, -⟩ := bind_eq_ok.mp h
      exact ⟨members, hmembers⟩
    · rintro ⟨members, hmembers⟩
      exact ⟨_, by rw [hmembers]; rfl⟩

omit hnumber

theorem render_ok_iff (hfinite : l.finiteOnly = true) (v : Value) :
    (∃ text, render l v = .ok text) ↔ v.Over Number.Exact := by
  rw [← write_ok_iff (writeNumber_ok_iff hfinite) v 0, render]
  cases write l 0 v <;> simp [Except.map]

end Json

section Keyed

open Value

variable {entries : Environment} (h : (Value.map entries).Keyed)

include h

theorem Value.Keyed.field (name : String) : (Environment.field entries name).Keyed := by
  unfold Environment.field
  cases hget : Mapping.get? entries name with
  | none => exact .null
  | some v => exact h.of_get? hget

theorem Value.Keyed.fieldNamed (name : String) : (Value.record (Environment.fieldNamed entries name)).Keyed := by
  have hfield := h.field name
  rw [Environment.fieldNamed]
  cases hvalue : Environment.field entries name with
  | map fields =>
    rw [hvalue] at hfield
    exact keyed_record.mpr ⟨hfield.distinct_named, fun entry hentry => hfield.of_mem_named hentry⟩
  | _ => exact keyed_record.mpr ⟨List.nodup_nil, List.forall_mem_nil _⟩

omit h

theorem Value.Keyed.orEmptyText {v : Value} (h : v.Keyed) : v.orEmptyText.Keyed := by
  unfold Value.orEmptyText
  split
  · exact .str _
  · exact h

theorem OutputSpec.keyed_ofDocument {v : Value} (h : v.Keyed) : (ofDocument v).toDocument.Keyed := by
  cases v with
  | map entries =>
    simp only [ofDocument, toDocument]
    have htype : ((Mapping.get? entries "type").getD (.str "")).Keyed := by
      cases hget : Mapping.get? entries "type" with
      | none => exact .str _
      | some w => exact h.of_get? hget
    generalize (!(Environment.field entries "optional").isEmpty) = optional
    cases hvalue : Mapping.get? entries "value" with
    | none => cases optional <;> simp [Mapping.keys, htype]
    | some w =>
      have hw : w.Keyed := h.of_get? hvalue
      cases optional <;> simp [Mapping.keys, htype, hw]
  | _ => exact h

theorem Routine.keyed_header_fields {r : Routine} (hdoc : r.doc.Keyed) (hfields : (Value.record r.body.fields).Keyed) :
    (Value.record (r.header ++ r.body.fields)).Keyed := by
  rw [keyed_record] at hfields ⊢
  constructor
  · have hnames : ∀ key ∈ Mapping.keys r.body.fields, key ∉ ["type", "doc", "passthrough"] := by
      cases r.body <;> simp [Body.fields, Mapping.keys]
    have hheader : (Mapping.keys r.header).Nodup ∧
        ∀ key ∈ Mapping.keys r.header, key ∈ ["type", "doc", "passthrough"] := by
      unfold header
      cases r.doc <;> split <;> simp [docField, Mapping.keys]
    rw [Mapping.keys, List.map_append, List.nodup_append]
    refine ⟨hheader.1, hfields.1, ?_⟩
    rintro key hkey _ hkey' rfl
    exact hnames key hkey' (hheader.2 key hkey)
  · rw [List.forall_mem_append]
    refine ⟨?_, hfields.2⟩
    unfold header
    cases hvalue : r.doc <;> rw [hvalue] at hdoc <;> split <;> simp [docField, Body.namesDocument, hdoc]

theorem Routine.keyed_ofEntries (h : (Value.map entries).Keyed) : (ofEntries entries).toDocument.Keyed := by
  have hnames : ∀ names, (Body.namesDocument names).Keyed := by simp [Body.namesDocument]
  have hbody : (∃ type, Body.ofDocument entries = .unknown type entries) ∨
      (∀ type raw, Body.ofDocument entries ≠ .unknown type raw) ∧
        (Value.record (Body.ofDocument entries).fields).Keyed := by
    unfold Body.ofDocument
    simp only
    split
    · right
      refine ⟨by simp, keyed_record.mpr ⟨by simp [Body.fields, Mapping.keys], ?_⟩⟩
      simp only [Body.fields, List.forall_mem_cons]
      exact ⟨(h.field "dev_msg").orEmptyText, (h.field "user_msg").orEmptyText, h.fieldNamed "outputs",
        List.forall_mem_nil _⟩
    · right
      simp [Body.fields, Mapping.keys, (h.field "code").orEmptyText]
    · right
      obtain ⟨hdistinct, hspecs⟩ := keyed_record.mp (h.fieldNamed "outputs")
      refine ⟨by simp, keyed_record.mpr ⟨by simp [Body.fields, Mapping.keys], ?_⟩⟩
      simp only [Body.fields, List.forall_mem_cons, keyed_record, Mapping.keys_mapValues]
      refine ⟨⟨hdistinct, ?_⟩, List.forall_mem_nil _⟩
      intro field hfield
      obtain ⟨spec, hspec, rfl⟩ := List.mem_map.mp hfield
      obtain ⟨named, hnamed, rfl⟩ := List.mem_map.mp hspec
      exact OutputSpec.keyed_ofDocument (hspecs named hnamed)
    · right
      simp [Body.fields, Mapping.keys, (h.field "condition").orEmptyText, h.field "then", h.field "else"]
    · right
      simp [Body.fields, Mapping.keys, hnames]
    · right
      simp [Body.fields, Mapping.keys, hnames]
    · left
      exact ⟨_, rfl⟩
  obtain ⟨type, hunknown⟩ | ⟨hknown, hfields⟩ := hbody
  · have hraw : (ofEntries entries).toDocument = .map entries := by
      simp only [toDocument, ofEntries, hunknown]
    rw [hraw]
    exact h
  · rw [toDocument_of_known hknown]
    exact keyed_header_fields (h.field "doc") hfields

theorem Program.keyed_ofEntries (h : (Value.map entries).Keyed) : (ofEntries entries).toDocument.Keyed := by
  obtain ⟨hdistinct, hroutines⟩ := keyed_record.mp (h.fieldNamed "routines")
  have hrecord : (Value.record (Mapping.mapValues Routine.toDocument (ofEntries entries).routines)).Keyed := by
    rw [keyed_record, Mapping.keys_mapValues, ofEntries, Mapping.keys_mapValues]
    refine ⟨hdistinct, ?_⟩
    intro field hfield
    obtain ⟨routine, hroutine, rfl⟩ := List.mem_map.mp hfield
    obtain ⟨⟨name, v⟩, hnamed, rfl⟩ := List.mem_map.mp hroutine
    have hv : v.Keyed := hroutines _ hnamed
    cases v with
    | map fields => exact Routine.keyed_ofEntries hv
    | _ => exact Routine.keyed_ofEntries (@Keyed.map [] List.nodup_nil (List.forall_mem_nil _))
  have hmain := h.field "main"
  have hdoc := h.field "doc"
  unfold toDocument
  generalize Value.record (Mapping.mapValues Routine.toDocument (ofEntries entries).routines) = routines at hrecord
  change (Value.record (Routine.docField (Environment.field entries "doc") ++
    [("routines", routines), ("main", Environment.field entries "main")])).Keyed
  cases hvalue : Environment.field entries "doc" <;> rw [hvalue] at hdoc <;>
    simp [Routine.docField, Mapping.keys, hrecord, hmain, hdoc]

end Keyed

theorem Program.exists_keyed {text : String} {source : Option String} {p : Program} (h : load text source = .ok p) :
    ∃ entries, (Value.map entries).Keyed ∧ ofEntries entries = p := by
  unfold load readDocument at h
  split at h
  · rename_i entries hread
    exact ⟨entries, Json.keyed_of_read hread, Except.ok.inj h⟩
  · cases h
  · cases h
  · cases h

namespace Emit

/-- What can be written: the result of a run of a program, a trace, or a program. -/
inductive Subject where
  | result (p : Program) (r : Engine.Result)
  | trace (t : Trace)
  | program (p : Program)

namespace Subject

def document (x : Subject) (o : Options) : Value :=
  match x with
  | .result p r => resultDocument o p r
  | .trace t => t.toDocument
  | .program p => p.toDocument

def emit (x : Subject) (o : Options) : Except Cause String :=
  render o.indent (x.document o)

theorem document_eq_map (x : Subject) (o : Options) : x.document o = .map (x.document o).mapping := by
  cases x with
  | result p r => rfl
  | trace t => cases t <;> rfl
  | program p => rfl

theorem document_indent (x : Subject) (o : Options) (indent : Option Nat) :
    x.document { o with indent := indent } = x.document o := by
  cases x <;> rfl

theorem emit_ok_iff (x : Subject) (o : Options) :
    (∃ text, x.emit o = .ok text) ↔ (x.document o).Over Number.Exact :=
  Json.render_ok_iff rfl _

theorem asRead_document_eq_iff {x : Subject} {o : Options} :
    (x.document o).asRead.mapping = (x.document o).mapping ↔ (x.document o).asRead = x.document o := by
  rw [x.document_eq_map o]
  simp [Value.asRead, Value.mapping]

theorem readDocument_emit {x : Subject} {o : Options}
    (hprint : ∀ y, .float y ∈ (x.document o).numbers → Numeral.double? (Binary.text y) = some y) {text : String}
    (h : x.emit o = .ok text) (source : Option String) :
    Program.readDocument text source = .ok (x.document o).asRead.mapping := by
  have hread := Json.read_render rfl rfl hprint h
  rw [Program.readDocument, hread, document_eq_map]
  rfl

end Subject

/-- What is emitted is read back: as it was if all keys are texts, and else with the texts of the keys. The layout makes
no difference, and the numbers alone decide whether anything is emitted. -/
theorem emitted_reads_back (x : Subject) (o : Options)
    (hprint : ∀ y, .float y ∈ (x.document o).numbers → Numeral.double? (Binary.text y) = some y) :
    ((∃ text, x.emit o = .ok text) ↔ (x.document o).Over Number.Exact) ∧
    ∀ text, x.emit o = .ok text →
      (∀ source, Program.readDocument text source = .ok (x.document o).asRead.mapping) ∧
      ((∀ source, Program.readDocument text source = .ok (x.document o).mapping) ↔ (x.document o).Keyed) ∧
      (∀ indent, ∃ other, x.emit { o with indent := indent } = .ok other ∧
        ∀ source, Program.readDocument other source = Program.readDocument text source) ∧
      ∀ p origin loaded, x = .program p → Program.load loaded origin = .ok p →
        ∀ source, Program.load text source = .ok p := by
  refine ⟨x.emit_ok_iff o, fun text htext => ?_⟩
  have hread := Subject.readDocument_emit hprint htext
  refine ⟨hread, ?_, ?_, ?_⟩
  · rw [← Value.asRead_eq_iff, ← Subject.asRead_document_eq_iff]
    simp [hread]
  · intro indent
    have hexact := (x.emit_ok_iff o).mp ⟨text, htext⟩
    obtain ⟨other, hemit⟩ := (x.emit_ok_iff { o with indent := indent }).mpr (x.document_indent o indent ▸ hexact)
    refine ⟨other, hemit, fun source => ?_⟩
    rw [hread, Subject.readDocument_emit (x.document_indent o indent ▸ hprint) hemit, x.document_indent]
  · rintro p origin loaded rfl hload source
    obtain ⟨entries, hkeyed, rfl⟩ := Program.exists_keyed hload
    have hdocument := Program.keyed_ofEntries hkeyed
    obtain ⟨p, hp, hown, -⟩ := Program.reads_own_document entries
    obtain rfl := Except.ok.inj hp
    have hsame : Program.readDocument text source = .ok (Program.ofEntries entries).toDocument.mapping := by
      rw [hread]
      exact congrArg (fun v => Except.ok v.mapping) hdocument.asRead_eq
    have hentries : Program.ofEntries (Program.ofEntries entries).toDocument.mapping = Program.ofEntries entries :=
      Except.ok.inj hown
    rw [Program.load, hsame]
    exact congrArg Except.ok hentries

/-- Inputs that are given in pairs, with a number for a key. -/
def paired : Value := .list [.list [.int 3, .str "x"]]

def pairedInputs : Environment := [(.num (.int 3), .str "x")]

def keeper : Program := ⟨[("main", ⟨.null, [], .compose []⟩)], .str "main", .null⟩

def keeperEngine : Engine Unit := ⟨keeper, none, 1⟩

def keptResult (inputs : Environment) : Engine.Result :=
  ⟨inputs, inputs, .compose ⟨"main", .map inputs, inputs⟩ []⟩

theorem exact_keptResult {inputs : Environment} (h : inputs.Over Number.Exact) :
    ((Subject.result keeper (keptResult inputs)).document .default).Over Number.Exact := by
  simpa [Subject.document, resultDocument, Options.default, keeper, keptResult, Program.toDocument, Routine.toDocument,
    Routine.docField, Body.fields, Body.namesDocument, Mapping.mapValues, Trace.toDocument, Trace.recordFields,
    Trace.documents] using h

theorem keyed_of_keptResult {inputs : Environment}
    (h : ((Subject.result keeper (keptResult inputs)).document .default).Keyed) : (Value.map inputs).Keyed :=
  (Value.keyed_record.mp h).2 ("inputs", .map inputs) (by simp [Options.default, keptResult])

/-- The number comes out as a key, and is read back as a text. -/
theorem paired_inputs_reread : paired.toMapping = .ok pairedInputs ∧
    (∃ final, (keeperEngine.run pairedInputs).perform ⟨(), [], ⟨false, []⟩⟩ =
      (.ok (keptResult pairedInputs), final)) ∧
    ∃ text, (Subject.result keeper (keptResult pairedInputs)).emit .default = .ok text ∧
      Program.readDocument text none ≠
        .ok ((Subject.result keeper (keptResult pairedInputs)).document .default).mapping := by
  have hthree : Number.Exact (.int 3) := by decide +kernel
  have hinputs : pairedInputs.Over Number.Exact := Mapping.each_cons.mpr ⟨⟨hthree, .str "x"⟩, Mapping.each_nil⟩
  have hprint : ∀ y, .float y ∈ ((Subject.result keeper (keptResult pairedInputs)).document .default).numbers →
      Numeral.double? (Binary.text y) = some y := by
    intro y hy
    have hnumbers : ((Subject.result keeper (keptResult pairedInputs)).document .default).numbers = [] := rfl
    simp [hnumbers] at hy
  obtain ⟨text, htext⟩ := (Subject.emit_ok_iff _ _).mpr (exact_keptResult hinputs)
  refine ⟨rfl, ⟨_, rfl⟩, text, htext, fun hsame => ?_⟩
  rw [Subject.readDocument_emit hprint htext] at hsame
  have hasRead := Subject.asRead_document_eq_iff.mp (Except.ok.inj hsame)
  cases (keyed_of_keptResult (Value.asRead_eq_iff.mp hasRead)).record_named

def measuredSubject (unit height : Float) : Subject :=
  .result (Engine.measuring unit) ⟨[], Engine.measuredOutputs unit height, Engine.measuredTrace unit height⟩

theorem numbers_measuredSubject (unit height : Float) : ((measuredSubject unit height).document .default).numbers =
    [.float unit, .float height, .float unit, .float height, .float unit, .float height, .float height, .float height,
      .float unit] := rfl

theorem double?_measuredSubject {unit height : Float} (hunit : Numeral.double? (Binary.text unit) = some unit)
    (hheight : Numeral.double? (Binary.text height) = some height) {y : Float}
    (hy : .float y ∈ ((measuredSubject unit height).document .default).numbers) :
    Numeral.double? (Binary.text y) = some y := by
  rw [numbers_measuredSubject] at hy
  simp only [List.mem_cons, Number.float.injEq, List.not_mem_nil, or_false] at hy
  rcases hy with rfl | rfl | rfl | rfl | rfl | rfl | rfl | rfl | rfl <;> assumption

theorem keyed_measuredSubject (unit height : Float) : ((measuredSubject unit height).document .default).Keyed := by
  have hempty : (Value.map []).Keyed := (@Value.keyed_record []).mpr (by simp [Mapping.keys])
  have houtputs : (Value.map (Engine.measuredOutputs unit height)).Keyed :=
    (@Value.keyed_record [("top", .num (.float height)), ("unit", .num (.float unit))]).mpr (by simp [Mapping.keys])
  have hheight : (Value.map (Engine.heightOutputs height)).Keyed :=
    (@Value.keyed_record [("height", .num (.float height))]).mpr (by simp [Mapping.keys])
  simp [measuredSubject, Subject.document, resultDocument, Options.default, Engine.measuring, Program.toDocument,
    Routine.toDocument, Routine.docField, Body.fields, Body.namesDocument, Mapping.mapValues, Mapping.keys,
    OutputSpec.toDocument, Engine.measuredTrace, Trace.toDocument, Trace.recordFields, Trace.documents, hempty, houtputs,
    hheight]

theorem exact_measuredSubject {unit height : Float} (hunit : Number.isFinite unit = true)
    (hheight : Number.isFinite height = true) :
    ((measuredSubject unit height).document .default).Over Number.Exact := by
  have hunit' : Number.Exact (.float unit) := hunit
  have hheight' : Number.Exact (.float height) := hheight
  have houtputs : Environment.Over Number.Exact (Engine.measuredOutputs unit height) :=
    Mapping.each_cons.mpr ⟨⟨Key.over_text _, .num hheight'⟩,
      Mapping.each_cons.mpr ⟨⟨Key.over_text _, .num hunit'⟩, Mapping.each_nil⟩⟩
  have hheightOutputs : Environment.Over Number.Exact (Engine.heightOutputs height) :=
    Mapping.each_cons.mpr ⟨⟨Key.over_text _, .num hheight'⟩, Mapping.each_nil⟩
  have hempty : Environment.Over Number.Exact [] := Mapping.each_nil
  simp [measuredSubject, Subject.document, resultDocument, Options.default, Engine.measuring, Program.toDocument,
    Routine.toDocument, Routine.docField, Body.fields, Body.namesDocument, Mapping.mapValues, OutputSpec.toDocument,
    Engine.measuredTrace, Trace.toDocument, Trace.recordFields, Trace.documents, houtputs, hheightOutputs, hempty, hunit']

/-- A result with doubles in its program, its outputs and its trace. -/
theorem measured_reads_back :
    Numeral.double? (Binary.text 0.5) = some 0.5 ∧ Numeral.double? (Binary.text 2.5) = some 2.5 ∧
    ∃ text, (measuredSubject 0.5 2.5).emit .default = .ok text ∧
    (∀ source, Program.readDocument text source = .ok ((measuredSubject 0.5 2.5).document .default).mapping) ∧
    ∃ line, (measuredSubject 0.5 2.5).emit { Options.default with indent := none } = .ok line ∧
      ∀ source, Program.readDocument line source = Program.readDocument text source := by
  have hunit : Numeral.double? (Binary.text 0.5) = some 0.5 := by decide
  have hheight : Numeral.double? (Binary.text 2.5) = some 2.5 := by decide
  refine ⟨hunit, hheight, ?_⟩
  obtain ⟨hemits, hreads⟩ :=
    emitted_reads_back (measuredSubject 0.5 2.5) .default fun y hy => double?_measuredSubject hunit hheight hy
  obtain ⟨text, htext⟩ := hemits.mpr (exact_measuredSubject (by decide) (by decide))
  obtain ⟨-, hback, hindents, -⟩ := hreads text htext
  exact ⟨text, htext, hback.mpr (keyed_measuredSubject _ _), hindents none⟩

end Emit

end RoutineFlow
