import RoutineFlow.Proofs.Conversions
import RoutineFlow.Proofs.Validation

/-!
Which documents the validation comes to an end with. Findings say what is wrong with a document, but two of its fields are
used before anything has looked at their kind.
-/

namespace RoutineFlow.Validation

open Results (bind_eq_error)

variable {entries : Environment} {cause : Cause} {c : Context}

/-- A code routine with code that is no text, which parsing fails on. -/
def Unparsable [CharNames] (routine : Value) (cause : Cause) : Prop :=
  ∃ entries, routine = .map entries ∧ Environment.field entries "type" = .str "code" ∧
    (Environment.field entries "code").isEmpty = false ∧ Expr.parseValue (Environment.field entries "code") = .error cause

/-- Why a document cannot be examined: its entry routine is named by a list or a mapping, or the first code that is no text
is to be parsed. -/
inductive Unexamined [CharNames] (document : Environment) (checkCode : Bool) : Cause → Prop
  | main (hgiven : (Environment.field document "main").isEmpty = false)
      (hkey : (Environment.field document "main").key? = none) :
      Unexamined document checkCode (.unhashable (Environment.field document "main").kind)
  | code {before after : Mapping String Value} {name : String} {routine : Value} {cause : Cause}
      (hkey : (Environment.field document "main").isEmpty = true ∨ (Environment.field document "main").key? ≠ none)
      (hcheck : checkCode = true)
      (hroutines : Environment.fieldNamed document "routines" = before ++ (name, routine) :: after)
      (hbefore : ∀ entry ∈ before, ∀ cause, ¬ Unparsable entry.2 cause) (hroutine : Unparsable routine cause) :
      Unexamined document checkCode cause

theorem codeFindings_eq_error [CharNames] {checkCode : Bool} : codeFindings checkCode entries = .error cause ↔
    checkCode = true ∧ (Environment.field entries "code").isEmpty = false ∧
      Expr.parseValue (Environment.field entries "code") = .error cause := by
  unfold codeFindings
  dsimp only
  cases (Environment.field entries "code").isEmpty with
  | true => simp
  | false =>
    cases checkCode with
    | false => simp
    | true =>
      cases Expr.parseValue (Environment.field entries "code") with
      | error cause => simp
      | ok parsed => cases parsed <;> simp

theorem kindFindings_eq_error [CharNames] {kind : String} : kindFindings c kind entries = .error cause ↔
    kind = "code" ∧ codeFindings c.checkCode entries = .error cause := by
  unfold kindFindings
  split
  case h_2 => simp
  case h_6 => simp_all
  all_goals simp

theorem routineFindings_eq_error [CharNames] {routine : Value} :
    routineFindings c routine = .error cause ↔ c.checkCode = true ∧ Unparsable routine cause := by
  cases routine with
  | map entries =>
    constructor
    · intro h
      unfold routineFindings at h
      dsimp only at h
      split at h
      · rename_i kind hkind
        split at h
        · obtain hfindings | ⟨findings, -, hdone⟩ := bind_eq_error.mp h
          · obtain ⟨rfl, hcode⟩ := kindFindings_eq_error.mp hfindings
            obtain ⟨hcheck, hgiven, hparse⟩ := codeFindings_eq_error.mp hcode
            exact ⟨hcheck, entries, rfl, text?_eq_some hkind, hgiven, hparse⟩
          · cases hdone
        · cases h
      · cases h
    · rintro ⟨hcheck, _, ⟨⟩, htype, hgiven, hparse⟩
      have hcode := codeFindings_eq_error.mpr ⟨hcheck, hgiven, hparse⟩
      unfold routineFindings
      dsimp only
      rw [htype]
      exact bind_eq_error.mpr (.inl (kindFindings_eq_error.mpr ⟨rfl, hcode⟩))
  | _ => simp [routineFindings, Unparsable]

theorem allFindings_eq_error [CharNames] {routines : Mapping String Value} : allFindings c routines = .error cause ↔
    c.checkCode = true ∧ ∃ before name routine after, routines = before ++ (name, routine) :: after ∧
      (∀ entry ∈ before, ∀ cause, ¬ Unparsable entry.2 cause) ∧ Unparsable routine cause := by
  induction routines with
  | nil => simp [allFindings]
  | cons entry rest ih =>
    obtain ⟨name, routine⟩ := entry
    have hrest (first : List String) :
        (do return about name first ++ (← allFindings c rest)) = .error cause ↔ allFindings c rest = .error cause := by
      simp [bind_eq_error, pure, Except.pure]
    rw [allFindings, bind_eq_error, routineFindings_eq_error]
    simp only [hrest, ih]
    constructor
    · rintro (⟨hcheck, hroutine⟩ | ⟨first, hfirst, hcheck, before, other, found, after, rfl, hbefore, hfound⟩)
      · exact ⟨hcheck, [], name, routine, rest, rfl, by simp, hroutine⟩
      · refine ⟨hcheck, (name, routine) :: before, other, found, after, rfl, ?_, hfound⟩
        rw [List.forall_mem_cons]
        refine ⟨fun cause hunparsable => ?_, hbefore⟩
        cases hfirst.symm.trans (routineFindings_eq_error.mpr ⟨hcheck, hunparsable⟩)
    · rintro ⟨hcheck, before, other, found, after, hsplit, hbefore, hfound⟩
      cases before with
      | nil =>
        obtain ⟨⟨⟩, rfl⟩ := List.cons.inj hsplit
        exact .inl ⟨hcheck, hfound⟩
      | cons first before =>
        obtain ⟨rfl, rfl⟩ := List.cons.inj hsplit
        obtain ⟨hfirst, hbefore⟩ := List.forall_mem_cons.mp hbefore
        cases hfindings : routineFindings c routine with
        | error cause => exact (hfirst cause (routineFindings_eq_error.mp hfindings).2).elim
        | ok findings => exact .inr ⟨findings, rfl, hcheck, before, other, found, after, rfl, hbefore, hfound⟩

theorem mainFindings_eq_error {routines : Mapping String Value} {main : Value} :
    mainFindings routines main = .error cause ↔ main.isEmpty = false ∧ main.key? = none ∧ .unhashable main.kind = cause := by
  unfold mainFindings
  cases main.isEmpty with
  | true => simp
  | false =>
    cases main.key? with
    | none => simp
    | some key => cases isName routines main <;> simp

theorem validate_eq_error [CharNames] {known : List String} {checkCode : Bool} :
    validate (.map entries) known checkCode = .error cause ↔ Unexamined entries checkCode cause := by
  have hrest (shape main : List Finding) (context : Context) (routines : Mapping String Value) :
      (do return shape ++ main ++ (← allFindings context routines)) = .error cause ↔
        allFindings context routines = .error cause := by
    simp [bind_eq_error, pure, Except.pure]
  rw [validate]
  dsimp only
  rw [bind_eq_error, mainFindings_eq_error]
  simp only [hrest, allFindings_eq_error]
  constructor
  · rintro (⟨hgiven, hkey, rfl⟩ | ⟨main, hmain, hcheck, before, name, routine, after, hroutines, hbefore, hroutine⟩)
    · exact .main hgiven hkey
    · refine .code ?_ hcheck hroutines hbefore hroutine
      by_contra hnone
      rw [not_or, Bool.not_eq_true, not_not] at hnone
      cases hmain.symm.trans (mainFindings_eq_error.mpr ⟨hnone.1, hnone.2, rfl⟩)
  · intro h
    cases h with
    | main hgiven hkey => exact .inl ⟨hgiven, hkey, rfl⟩
    | @code before after name routine _ hkey hcheck hroutines hbefore hroutine =>
      refine .inr ?_
      cases hmain : mainFindings (Environment.named (Environment.field entries "routines").mapping)
          (Environment.field entries "main") with
      | ok main => exact ⟨main, rfl, hcheck, before, name, routine, after, hroutines, hbefore, hroutine⟩
      | error cause =>
        obtain ⟨hgiven, hnone, -⟩ := mainFindings_eq_error.mp hmain
        obtain hempty | hsome := hkey
        · cases hgiven.symm.trans hempty
        · exact (hsome hnone).elim

theorem exists_ok_iff {ε α : Type} {r : Except ε α} : (∃ a, r = .ok a) ↔ ∀ e, r ≠ .error e := by
  cases r <;> simp

/-- Code that is to be parsed is a text, if there is any. -/
def Parsable (routine : Value) : Prop :=
  ∀ entries, routine = .map entries → Environment.field entries "type" = .str "code" →
    (Environment.field entries "code").isEmpty = true ∨ ∃ source, Environment.field entries "code" = .str source

/-- A document whose entry routine can be looked up, and whose code can be parsed if it is to be. -/
def Examinable (document : Value) (checkCode : Bool) : Prop :=
  ∀ entries, document = .map entries →
    ((Environment.field entries "main").isEmpty = true ∨ (Environment.field entries "main").key? ≠ none) ∧
      (checkCode = true → ∀ entry ∈ Environment.fieldNamed entries "routines", Parsable entry.2)

theorem parseValue_eq_error [CharNames] {code : Value} : Expr.parseValue code = .error cause ↔
    (∀ source, code ≠ .str source) ∧
    (code.key? = none ∧ cause = .unhashable code.kind ∨ code.key? ≠ none ∧ cause = .notParsable) := by
  cases code <;> simp [Expr.parseValue, Value.toKey, Value.key?, eq_comm]

theorem parsable_iff [CharNames] {routine : Value} : Parsable routine ↔ ∀ cause, ¬ Unparsable routine cause := by
  constructor
  · rintro h cause ⟨entries, rfl, htype, hgiven, hparse⟩
    obtain hempty | ⟨source, hsource⟩ := h entries rfl htype
    · rw [hgiven] at hempty
      cases hempty
    · exact (parseValue_eq_error.mp hparse).1 source hsource
  · intro h entries hroutine htype
    by_contra hcode
    rw [not_or, Bool.not_eq_true] at hcode
    obtain ⟨hgiven, htext⟩ := hcode
    rw [not_exists] at htext
    cases hkey : (Environment.field entries "code").key? with
    | none => exact h _ ⟨entries, hroutine, htype, hgiven, parseValue_eq_error.mpr ⟨htext, .inl ⟨hkey, rfl⟩⟩⟩
    | some key =>
      exact h _ ⟨entries, hroutine, htype, hgiven, parseValue_eq_error.mpr ⟨htext, .inr ⟨by simp [hkey], rfl⟩⟩⟩

theorem exists_routineFindings_iff [CharNames] {routine : Value} :
    (∃ findings, routineFindings c routine = .ok findings) ↔
    (c.checkCode = true → Parsable routine) := by
  rw [exists_ok_iff, parsable_iff]
  constructor
  · intro h hcheck cause hunparsable
    exact h cause (routineFindings_eq_error.mpr ⟨hcheck, hunparsable⟩)
  · intro h cause herror
    obtain ⟨hcheck, hunparsable⟩ := routineFindings_eq_error.mp herror
    exact h hcheck cause hunparsable

theorem exists_allFindings_iff [CharNames] {routines : Mapping String Value} :
    (∃ findings, allFindings c routines = .ok findings) ↔
    (c.checkCode = true → ∀ entry ∈ routines, Parsable entry.2) := by
  induction routines with
  | nil => simp [allFindings]
  | cons entry rest ih =>
    rw [List.forall_mem_cons, imp_and, ← exists_routineFindings_iff, ← ih]
    simp only [allFindings, Results.bind_eq_ok]
    constructor
    · rintro ⟨findings, first, hfirst, others, hothers, -⟩
      exact ⟨⟨first, hfirst⟩, others, hothers⟩
    · rintro ⟨⟨first, hfirst⟩, others, hothers⟩
      exact ⟨_, first, hfirst, others, hothers, rfl⟩

theorem exists_mainFindings_iff {routines : Mapping String Value} {main : Value} :
    (∃ findings, mainFindings routines main = .ok findings) ↔ main.isEmpty = true ∨ main.key? ≠ none := by
  rw [exists_ok_iff]
  simp only [ne_eq, mainFindings_eq_error]
  cases main.isEmpty <;> cases main.key? <;> simp

theorem exists_findings_iff [CharNames] {document : Value} {known : List String} {checkCode : Bool} :
    (∃ findings, validate document known checkCode = .ok findings) ↔ Examinable document checkCode := by
  cases document with
  | map entries =>
    simp only [validate, Results.bind_eq_ok, Examinable, Value.map.injEq, forall_eq']
    generalize hroutines : Environment.fieldNamed entries "routines" = routines
    rw [Environment.fieldNamed] at hroutines
    have hall := @exists_allFindings_iff ⟨routines, known ++ definedNames routines, checkCode⟩ _ routines
    rw [← @exists_mainFindings_iff routines, ← hall, hroutines]
    constructor
    · rintro ⟨findings, main, hmain, others, hothers, -⟩
      exact ⟨⟨main, hmain⟩, others, hothers⟩
    · rintro ⟨⟨main, hmain⟩, others, hothers⟩
      exact ⟨_, main, hmain, others, hothers, rfl⟩
  | _ => simp [validate, Examinable]

theorem Unexamined.mem_causes [CharNames] {document : Environment} {checkCode : Bool}
    (h : Unexamined document checkCode cause) : cause ∈ [.unhashable .list, .unhashable .mapping, .notParsable] := by
  have hkind {v : Value} (hkey : v.key? = none) : v.kind = .list ∨ v.kind = .mapping := by
    cases v <;> simp [Value.key?, Value.kind] at hkey ⊢
  cases h with
  | main hgiven hkey => obtain hkind | hkind := hkind hkey <;> simp [hkind]
  | code hkey hcheck hroutines hbefore hroutine =>
    obtain ⟨entries, -, -, -, hparse⟩ := hroutine
    obtain ⟨-, ⟨hkey, rfl⟩ | ⟨-, rfl⟩⟩ := parseValue_eq_error.mp hparse
    · obtain hkind | hkind := hkind hkey <;> simp [hkind]
    · simp

/-- Validation of a document that can be written, as all that were read can, comes to findings unless the entry routine
is named by a list or a mapping, or code that is no text is to be parsed. The first of these that it meets is what it
fails with. -/
theorem validation_returns_iff [CharNames] (document : Value) (_hwritable : document.Over Number.Writable)
    (known : List String)
    (checkCode : Bool) :
    ((∃ findings, validate document known checkCode = .ok findings) ↔ Examinable document checkCode) ∧
      ∀ cause, validate document known checkCode = .error cause ↔
        cause ∈ [.unhashable .list, .unhashable .mapping, .notParsable] ∧
          ∃ entries, document = .map entries ∧ Unexamined entries checkCode cause := by
  refine ⟨exists_findings_iff, fun cause => ?_⟩
  cases document with
  | map entries =>
    rw [validate_eq_error]
    constructor
    · intro h
      exact ⟨h.mem_causes, entries, rfl, h⟩
    · rintro ⟨-, _, ⟨⟩, h⟩
      exact h
  | _ => simp [validate]

/-- A routine with code that is no text. -/
def listedCode : Value :=
  .record [("type", .str "code"), ("code", .list [.str "x"])]

def listedProgram : Environment :=
  .ofNamed [("main", .str "m"), ("routines", .record [("m", listedCode)])]

/-- Only where code is parsed does validation fail at such code. -/
theorem listed_code_raises : (∃ findings, validate (.map listedProgram) [] false = .ok findings) ∧
    validate (.map listedProgram) [] true = .error (.unhashable .list) := by
  have hwritable : (Value.map listedProgram).Over Number.Writable := by
    change (Value.record _).Over Number.Writable
    simp [listedCode]
  have hmain : (Environment.field listedProgram "main").key? ≠ none := nofun
  constructor
  · rw [(validation_returns_iff _ hwritable [] false).1]
    rintro _ ⟨⟩
    exact ⟨.inr hmain, nofun⟩
  · have hroutines : Environment.fieldNamed listedProgram "routines" = [] ++ [("m", listedCode)] := rfl
    have hunparsable : Unparsable listedCode (.unhashable .list) := ⟨_, rfl, rfl, rfl, rfl⟩
    rw [(validation_returns_iff _ hwritable [] true).2]
    exact ⟨List.mem_cons_self, _, rfl, .code (.inr hmain) rfl hroutines nofun hunparsable⟩

/-- A program whose entry routine is named by a list. -/
def listedMain : Value :=
  .record [("main", .list [.str "m"]), ("routines", .record [])]

theorem listed_main_raises : validate listedMain [] false = .error (.unhashable .list) ∧
    (Cause.unhashable .list).kindOf.name = "TypeError" ∧
      (Cause.unhashable .list).message = "unhashable type: 'list'" :=
  ⟨rfl, rfl, rfl⟩

end RoutineFlow.Validation
