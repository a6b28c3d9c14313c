import RoutineFlow.Proofs.Validation

/-!
Findings one by one: the routine that each is about, and the words that its message begins with.
-/

namespace RoutineFlow.Validation

open Results (bind_eq_ok)

/-- A message that does not begin with the given words. -/
def Unlike (start message : String) : Prop :=
  message.toList.take start.toList.length ≠ start.toList

instance (start message : String) : Decidable (Unlike start message) :=
  inferInstanceAs (Decidable (_ ≠ _))

namespace Unlike

variable {start message : String}

theorem append (h : Unlike start message) (hlength : start.toList.length ≤ message.toList.length) (rest : String) :
    Unlike start (message ++ rest) := by
  rw [Unlike, String.toList_append, List.take_append_of_le_length hlength]
  exact h

theorem ne (h : Unlike start message) (rest : String) : message ≠ start ++ rest := by
  rintro rfl
  rw [Unlike, String.toList_append, List.take_left] at h
  exact h rfl

theorem of_when {condition : Bool} (h : Unlike start message) : ∀ m ∈ when condition message, Unlike start m := by
  cases condition with
  | true => simpa [when] using h
  | false => simp [when]

end Unlike

variable {c : Context} {routines : Mapping String Value} {findings : List Finding}

/-- The findings about a routine, none where it cannot be examined. -/
def ofRoutine [CharNames] (c : Context) (entry : String × Value) : List Finding :=
  match routineFindings c entry.2 with
  | .ok messages => about entry.1 messages
  | .error _ => []

theorem ofRoutine_of_ok [CharNames] {entry : String × Value} {messages : List String}
    (h : routineFindings c entry.2 = .ok messages) : ofRoutine c entry = about entry.1 messages := by
  rw [ofRoutine, h]

theorem allFindings_eq_ok [CharNames] : allFindings c routines = .ok findings ↔
    (∀ entry ∈ routines, ∃ messages, routineFindings c entry.2 = .ok messages) ∧
      findings = routines.flatMap (ofRoutine c) := by
  induction routines generalizing findings with
  | nil => simp [allFindings, eq_comm]
  | cons entry routines ih =>
    rw [List.forall_mem_cons, List.flatMap_cons]
    constructor
    · intro h
      obtain ⟨first, hfirst, h⟩ := bind_eq_ok.mp h
      obtain ⟨others, hothers, h⟩ := bind_eq_ok.mp h
      obtain ⟨hall, rfl⟩ := ih.mp hothers
      refine ⟨⟨⟨first, hfirst⟩, hall⟩, ?_⟩
      rw [ofRoutine_of_ok hfirst]
      exact (Except.ok.inj h).symm
    · rintro ⟨⟨⟨first, hfirst⟩, hall⟩, rfl⟩
      have hothers := ih.mpr ⟨hall, rfl⟩
      rw [ofRoutine_of_ok hfirst]
      simp only [allFindings, hfirst, hothers]
      rfl

theorem routine_of_mem_ofRoutine [CharNames] {entry : String × Value} {f : Finding} (h : f ∈ ofRoutine c entry) :
    f.routine = some entry.1 := by
  unfold ofRoutine at h
  split at h
  · obtain ⟨message, -, rfl⟩ := List.mem_map.mp h
    rfl
  · cases h

/-- What the findings about the routines of a document depend on. -/
def contextOf (entries : Environment) (known : List String) (checkCode : Bool) : Context :=
  let routines := Environment.fieldNamed entries "routines"
  ⟨routines, known ++ definedNames routines, checkCode⟩

/-- The findings about a document that are about none of its routines. -/
def wholeFindings (entries : Environment) : Findings := do
  let shape : List Finding :=
    if (Environment.field entries "routines").kind = .mapping then [] else [⟨"Program must have routines object", none⟩]
  return shape ++ (← mainFindings (Environment.fieldNamed entries "routines") (Environment.field entries "main"))

theorem validate_eq_ok [CharNames] {entries : Environment} {known : List String} {checkCode : Bool} :
    validate (.map entries) known checkCode = .ok findings ↔
      ∃ whole, wholeFindings entries = .ok whole ∧
        (∀ entry ∈ Environment.fieldNamed entries "routines", ∃ messages,
          routineFindings (contextOf entries known checkCode) entry.2 = .ok messages) ∧
        findings = whole ++
          (Environment.fieldNamed entries "routines").flatMap (ofRoutine (contextOf entries known checkCode)) := by
  constructor
  · intro h
    obtain ⟨main, hmain, h⟩ := bind_eq_ok.mp h
    obtain ⟨others, hothers, h⟩ := bind_eq_ok.mp h
    obtain ⟨hall, rfl⟩ := allFindings_eq_ok.mp hothers
    refine ⟨_, ?_, hall, (Except.ok.inj h).symm⟩
    rw [wholeFindings]
    exact congrArg (Except.map _) hmain
  · rintro ⟨whole, hwhole, hall, rfl⟩
    obtain ⟨main, hmain, h⟩ := bind_eq_ok.mp hwhole
    obtain rfl := Except.ok.inj h
    have hothers := allFindings_eq_ok.mpr ⟨hall, rfl⟩
    simp only [contextOf, Environment.fieldNamed] at hmain hothers
    simp only [validate, hmain, hothers]
    rfl

theorem routine_of_mainFindings {main : Value} (h : mainFindings routines main = .ok findings) :
    ∀ f ∈ findings, f.routine = none := by
  unfold mainFindings at h
  split at h
  · cases h
    simp
  · split at h
    · cases h
    · split at h <;> cases h <;> simp

theorem routine_of_wholeFindings {entries : Environment} {whole : List Finding} (h : wholeFindings entries = .ok whole) :
    ∀ f ∈ whole, f.routine = none := by
  obtain ⟨main, hmain, h⟩ := bind_eq_ok.mp h
  obtain rfl := Except.ok.inj h
  refine List.forall_mem_append.mpr ⟨?_, routine_of_mainFindings hmain⟩
  split <;> simp

end RoutineFlow.Validation
