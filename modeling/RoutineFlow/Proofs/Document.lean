import RoutineFlow.Proofs.Mapping
import RoutineFlow.Program.Document

/-!
Programs are written as documents and read from them. A program that was read is found again in its own document,
also where the first document was malformed: what stood in for missing or malformed fields is written out.
-/

namespace RoutineFlow

namespace Mapping

variable {κ α β γ : Type}

theorem mapValues_mapValues (f : α → β) (g : β → γ) (m : Mapping κ α) :
    mapValues g (mapValues f m) = mapValues (fun v => g (f v)) m := by
  rw [mapValues, mapValues, List.map_map]
  rfl

variable [BEq κ]

theorem get?_nil (k : κ) : get? ([] : Mapping κ α) k = none := rfl

theorem get?_cons (k j : κ) (v : α) (m : Mapping κ α) :
    get? ((k, v) :: m) j = if j == k then some v else get? m j := by
  rw [get?, List.lookup_cons]
  cases j == k <;> rfl

theorem get?_append (m n : Mapping κ α) (k : κ) : get? (m ++ n) k = (get? m k).or (get? n k) :=
  List.lookup_append

end Mapping

theorem Key.beq_text (a b : String) : ((a : Key) == (b : Key)) = (a == b) := by
  rw [Bool.eq_iff_iff, beq_iff, beq_iff_eq, identity, identity, Identity.text.injEq]

namespace Environment

theorem named_ofNamed (fields : Mapping String Value) : named (ofNamed fields) = fields := by
  induction fields with
  | nil => rfl
  | cons field fields ih => exact congrArg (field :: ·) ih

theorem named_record (fields : Mapping String Value) : named (Value.record fields).mapping = fields :=
  named_ofNamed fields

theorem get?_ofNamed (fields : Mapping String Value) (key : String) :
    Mapping.get? (ofNamed fields) (key : Key) = Mapping.get? fields key := by
  induction fields with
  | nil => rfl
  | cons field fields ih =>
    have hcons : ofNamed (field :: fields) = (.text field.1, field.2) :: ofNamed fields := rfl
    rw [hcons, Mapping.get?_cons, Mapping.get?_cons, Key.beq_text, ih]

theorem field_ofNamed (fields : Mapping String Value) (key : String) :
    field (ofNamed fields) key = (Mapping.get? fields key).getD .null := by
  rw [field, get?_ofNamed]

theorem fieldNamed_ofNamed (fields : Mapping String Value) (key : String) :
    fieldNamed (ofNamed fields) key = named ((Mapping.get? fields key).getD .null).mapping := by
  rw [fieldNamed, field_ofNamed]

end Environment

namespace Value

theorem kind_eq_null {v : Value} : v.kind = .null ↔ v = .null := by
  cases v with
  | num n => cases n <;> simp [kind, Number.kind]
  | _ => simp [kind]

theorem orEmptyText_orEmptyText (v : Value) : v.orEmptyText.orEmptyText = v.orEmptyText := by
  unfold orEmptyText
  by_cases h : v.isEmpty
  · simp only [h, ↓reduceIte, ite_self]
  · simp only [h, Bool.false_eq_true, ↓reduceIte]

end Value

theorem Body.names_namesDocument (names : List String) : (namesDocument names).names = names := by
  change (names.map Value.str).map Value.label = names
  rw [List.map_map]
  exact List.map_id names

namespace OutputSpec

theorem ofDocument_literal (type : Value) (value : Option Value) (optional : Bool) :
    ofDocument (literal type value optional).toDocument = literal type value optional := by
  cases value <;> cases optional <;>
    simp [toDocument, ofDocument, Value.record, Environment.field_ofNamed, Environment.get?_ofNamed,
      Mapping.get?_cons, Mapping.get?_nil, Value.isEmpty]

theorem ofDocument_toDocument (v : Value) : ofDocument (ofDocument v).toDocument = ofDocument v := by
  cases v with
  | map entries => exact ofDocument_literal _ _ _
  | _ => rfl

end OutputSpec

namespace Routine

/-- The fields that routines of all kinds have. -/
def header (r : Routine) : Mapping String Value :=
  [("type", .str r.body.kind)] ++ docField r.doc ++
    if r.passthrough.isEmpty then [] else [("passthrough", Body.namesDocument r.passthrough)]

theorem toDocument_of_known {r : Routine} (h : ∀ type raw, r.body ≠ .unknown type raw) :
    r.toDocument = .record (r.header ++ r.body.fields) := by
  unfold toDocument
  split
  · rename_i hbody
    exact absurd hbody (h _ _)
  · rfl

theorem get?_docField (doc : Value) (key : String) :
    Mapping.get? (docField doc) key = if key = "doc" ∧ doc.kind ≠ .null then some doc else none := by
  cases doc <;> simp [docField, Mapping.get?_cons, Mapping.get?_nil, Value.kind_eq_null]

theorem get?_header (r : Routine) (key : String) :
    Mapping.get? r.header key =
      if key = "type" then some (.str r.body.kind)
      else if key = "doc" ∧ r.doc.kind ≠ .null then some r.doc
      else if key = "passthrough" ∧ r.passthrough ≠ [] then some (Body.namesDocument r.passthrough)
      else none := by
  simp only [header, Mapping.get?_append, get?_docField, Mapping.get?_cons, Mapping.get?_nil, beq_iff_eq]
  by_cases htype : key = "type"
  · simp [htype]
  · by_cases hdoc : key = "doc" ∧ r.doc.kind ≠ .null
    · simp [hdoc]
    · by_cases hpass : r.passthrough = [] <;>
        simp [htype, hdoc, hpass, Mapping.get?_cons, Mapping.get?_nil]

theorem get?_fields (body : Body) {key : String} (hkey : key ∈ ["type", "doc", "passthrough"]) :
    Mapping.get? body.fields key = none := by
  simp only [List.mem_cons, List.not_mem_nil, or_false] at hkey
  obtain rfl | rfl | rfl := hkey <;> cases body <;> simp [Body.fields, Mapping.get?_cons, Mapping.get?_nil]

theorem ofDocument_record {r : Routine}
    (hbody : Body.ofDocument (Environment.ofNamed (r.header ++ r.body.fields)) = r.body) :
    ofDocument (.record (r.header ++ r.body.fields)) = r := by
  have hdoc : Environment.field (Environment.ofNamed (r.header ++ r.body.fields)) "doc" = r.doc := by
    rw [Environment.field_ofNamed, Mapping.get?_append, get?_header, get?_fields _ (by simp)]
    by_cases hnull : r.doc = .null <;> simp [hnull, Value.kind_eq_null]
  have hpassthrough : (Environment.field (Environment.ofNamed (r.header ++ r.body.fields)) "passthrough").names =
      r.passthrough := by
    rw [Environment.field_ofNamed, Mapping.get?_append, get?_header, get?_fields _ (by simp)]
    by_cases hpass : r.passthrough = []
    · simp [hpass, Value.names]
    · simp [hpass, Body.names_namesDocument]
  change ofEntries (Environment.ofNamed _) = r
  rw [ofEntries, hdoc, hpassthrough, hbody]

theorem ofDocument_toDocument (v : Value) : ofDocument (ofDocument v).toDocument = ofDocument v := by
  change ofDocument (ofEntries v.mapping).toDocument = ofEntries v.mapping
  generalize v.mapping = entries
  generalize hr : ofEntries entries = r
  have hbody : Body.ofDocument entries = r.body := congrArg body hr
  simp only [Body.ofDocument] at hbody
  split at hbody
  case h_7 =>
    -- a routine of an unknown kind is kept as it was given
    have hdocument : r.toDocument = .map entries := by
      unfold toDocument
      rw [← hbody]
    rw [hdocument]
    exact hr
  all_goals
    rw [toDocument_of_known (by simp [← hbody])]
    apply ofDocument_record
    simp [← hbody, Body.ofDocument, Body.fields, Body.kind, Environment.get?_ofNamed, Environment.field_ofNamed,
      Environment.fieldNamed_ofNamed, Environment.named_record, Mapping.get?_append, get?_header, Mapping.get?_cons,
      Mapping.mapValues_mapValues, OutputSpec.ofDocument_toDocument, Value.orEmptyText_orEmptyText,
      Body.names_namesDocument]

end Routine

namespace Program

/-- The fields of a program's document. -/
def fields (p : Program) : Mapping String Value :=
  Routine.docField p.doc ++
    [("routines", .record (Mapping.mapValues Routine.toDocument p.routines)), ("main", p.main)]

theorem toDocument_eq (p : Program) : p.toDocument = .record p.fields := rfl

theorem get?_fields (p : Program) (key : String) :
    Mapping.get? p.fields key =
      if key = "doc" ∧ p.doc.kind ≠ .null then some p.doc
      else if key = "routines" then some (.record (Mapping.mapValues Routine.toDocument p.routines))
      else if key = "main" then some p.main
      else none := by
  simp only [fields, Mapping.get?_append, Routine.get?_docField, Mapping.get?_cons, Mapping.get?_nil, beq_iff_eq]
  by_cases hdoc : key = "doc" ∧ p.doc.kind ≠ .null
  · simp [hdoc]
  · simp [hdoc]

theorem ofDocument_toDocument {p : Program}
    (h : Mapping.mapValues (fun r => Routine.ofDocument (Routine.toDocument r)) p.routines = p.routines) :
    ofDocument p.toDocument = .ok p := by
  have hdoc : Environment.field (Environment.ofNamed p.fields) "doc" = p.doc := by
    rw [Environment.field_ofNamed, get?_fields]
    by_cases hnull : p.doc = .null <;> simp [hnull, Value.kind_eq_null]
  have hmain : Environment.field (Environment.ofNamed p.fields) "main" = p.main := by
    rw [Environment.field_ofNamed, get?_fields]
    simp
  have hroutines : Environment.fieldNamed (Environment.ofNamed p.fields) "routines" =
      Mapping.mapValues Routine.toDocument p.routines := by
    rw [Environment.fieldNamed_ofNamed, get?_fields]
    simp [Environment.named_record]
  change Except.ok (ofEntries (Environment.ofNamed p.fields)) = .ok p
  rw [ofEntries, hdoc, hmain, hroutines, Mapping.mapValues_mapValues, h]

/-- A program that was read from any document is found again in its own document, which is therefore its own
document once more. -/
theorem reads_own_document (entries : Environment) :
    ∃ p, ofDocument (.map entries) = .ok p ∧ ofDocument p.toDocument = .ok p ∧
      (ofDocument p.toDocument).map toDocument = .ok p.toDocument := by
  have hroutines : Mapping.mapValues (fun r => Routine.ofDocument (Routine.toDocument r))
      (ofEntries entries).routines = (ofEntries entries).routines := by
    rw [ofEntries, Mapping.mapValues_mapValues]
    congr 1
    funext v
    exact Routine.ofDocument_toDocument v
  have hread := ofDocument_toDocument hroutines
  refine ⟨ofEntries entries, rfl, hread, ?_⟩
  rw [hread]
  rfl

end Program

end RoutineFlow
