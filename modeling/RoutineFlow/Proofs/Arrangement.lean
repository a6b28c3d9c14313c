import RoutineFlow.Proofs.Findings
import RoutineFlow.Proofs.Keyed
import RoutineFlow.Proofs.Messages

/-!
The findings about a document do not depend on the order in which its routines and their outputs are declared. Further inputs
settle the findings that these are missing, and no others.
-/

namespace RoutineFlow

/-- The same entries, but related values under one key. -/
inductive Environment.Varies (key : String) (R : Value → Value → Prop) : Environment → Environment → Prop
  | nil : Varies key R [] []
  | same {m n : Environment} (entry : Key × Value) (h : Varies key R m n) : Varies key R (entry :: m) (entry :: n)
  | other {m n : Environment} {v w : Value} (hvalue : R v w) (h : Varies key R m n) :
      Varies key R ((.text key, v) :: m) ((.text key, w) :: n)

namespace Value

/-- The same value, or a mapping with a related value under one key. -/
inductive Within (key : String) (R : Value → Value → Prop) : Value → Value → Prop
  | refl (v : Value) : Within key R v v
  | fields {m n : Environment} (h : Environment.Varies key R m n) : Within key R (.map m) (.map n)

/-- The same value, or a mapping with its entries in another order. -/
inductive Shuffled : Value → Value → Prop
  | refl (v : Value) : Shuffled v v
  | entries {m n : Environment} (h : m.Perm n) : Shuffled (.map m) (.map n)

/-- The same value, or a mapping of routines in another order, each with its outputs in another order. -/
inductive Redeclared : Value → Value → Prop
  | refl (v : Value) : Redeclared v v
  | routines {m n o : Environment}
      (houtputs : List.Forall₂ (fun e f => e.1 = f.1 ∧ Within "outputs" Shuffled e.2 f.2) m n) (horder : n.Perm o) :
      Redeclared (.map m) (.map o)

/-- The same document, but for the order of its routines and of the outputs of each. -/
abbrev Rearranged : Value → Value → Prop :=
  Within "routines" Redeclared

end Value

namespace Environment

variable {key : String} {R : Value → Value → Prop} {m n : Environment}

theorem Varies.field_or (h : Varies key R m n) (name : String) :
    field m name = field n name ∨ name = key ∧ R (field m name) (field n name) := by
  induction h with
  | nil => exact .inl rfl
  | same entry h ih =>
    obtain ⟨k, v⟩ := entry
    simp only [field, Mapping.get?_cons] at ih ⊢
    cases Key.text name == k with
    | true => exact .inl rfl
    | false => exact ih
  | other hvalue h ih =>
    simp only [field, Mapping.get?_cons, Key.beq_text] at ih ⊢
    cases hname : name == key with
    | true => exact .inr ⟨eq_of_beq hname, hvalue⟩
    | false => exact ih

theorem Varies.field_eq (h : Varies key R m n) (name : String) (hname : name ≠ key) : field m name = field n name :=
  (h.field_or name).resolve_right fun hkey => hname hkey.1

theorem Varies.field_rel (h : Varies key R m n) (hR : ∀ v, R v v) : R (field m key) (field n key) := by
  obtain hsame | ⟨-, hvalue⟩ := h.field_or key
  · rw [hsame]
    exact hR _
  · exact hvalue

theorem perm_named (h : m.Perm n) : (named m).Perm (named n) :=
  h.filterMap _

end Environment

theorem perm_flatMap_of_forall₂ {α β γ : Type} {R : α → β → Prop} {F : α → List γ} {G : β → List γ} {xs : List α}
    {ys : List β} (h : List.Forall₂ R xs ys) (hperm : ∀ x ∈ xs, ∀ y, R x y → (F x).Perm (G y)) :
    (xs.flatMap F).Perm (ys.flatMap G) := by
  induction h with
  | nil => exact .refl _
  | cons hfirst h ih =>
    obtain ⟨hown, hrest⟩ := List.forall_mem_cons.mp hperm
    rw [List.flatMap_cons, List.flatMap_cons]
    exact (hown _ hfirst).append (ih hrest)

theorem exists_mem_of_forall₂ {α β : Type} {R : α → β → Prop} {xs : List α} {ys : List β} (h : List.Forall₂ R xs ys) :
    ∀ y ∈ ys, ∃ x ∈ xs, R x y := by
  induction h with
  | nil => simp
  | cons hfirst h ih =>
    rw [List.forall_mem_cons]
    refine ⟨⟨_, List.mem_cons_self, hfirst⟩, fun y hy => ?_⟩
    obtain ⟨x, hx, hxy⟩ := ih y hy
    exact ⟨x, List.mem_cons_of_mem _ hx, hxy⟩

theorem Mapping.has_of_perm {α β : Type} {m : Mapping String α} {n : Mapping String β} (h : (keys m).Perm (keys n)) :
    has m = has n := by
  funext key
  rw [has_eq_any, has_eq_any, h.any_eq]

namespace Validation

open Results (bind_eq_ok)

variable {c c' : Context} {m n : Environment} {v w : Value} {messages : List String}

section Outputs

variable (h : Environment.Varies "outputs" Value.Shuffled m n)

include h

theorem promptFindings_perm : (promptFindings m).Perm (promptFindings n) := by
  have hdev := h.field_eq "dev_msg" (by decide)
  have huser := h.field_eq "user_msg" (by decide)
  have houtputs := h.field_rel .refl
  unfold promptFindings
  rw [hdev, huser]
  generalize Environment.field m "outputs" = v at houtputs ⊢
  generalize Environment.field n "outputs" = w at houtputs ⊢
  cases houtputs with
  | refl v => exact .refl _
  | @entries tags tags' hperm =>
    simp only [Value.kind, hperm.isEmpty_eq]
    exact ((hperm.flatMap_right _).append_left _).append_left _

theorem defineFindings_perm (available : List String) :
    (defineFindings available m).Perm (defineFindings available n) := by
  have houtputs := h.field_rel .refl
  unfold defineFindings
  generalize Environment.field m "outputs" = v at houtputs ⊢
  generalize Environment.field n "outputs" = w at houtputs ⊢
  cases houtputs with
  | refl v => exact .refl _
  | @entries outputs outputs' hperm =>
    have hnamed := Environment.perm_named hperm
    have hhas : Mapping.has (Environment.named outputs) = Mapping.has (Environment.named outputs') :=
      Mapping.has_of_perm (hnamed.map _)
    have hsame : outputFindings available (Environment.named outputs) =
        outputFindings available (Environment.named outputs') := by
      funext key spec
      unfold outputFindings
      rw [hhas]
    simp only [hsame]
    exact hnamed.flatMap_right _

theorem kindFindings_perm [CharNames] {kind : String} (hm : kindFindings c kind m = .ok messages) :
    ∃ others, kindFindings c kind n = .ok others ∧ messages.Perm others := by
  have hcode := h.field_eq "code" (by decide)
  have hcondition := h.field_eq "condition" (by decide)
  have hthen := h.field_eq "then" (by decide)
  have helse := h.field_eq "else" (by decide)
  have hroutines := h.field_eq "routines" (by decide)
  unfold kindFindings at hm ⊢
  split at hm
  · obtain rfl := Except.ok.inj hm
    exact ⟨_, rfl, promptFindings_perm h⟩
  · rw [codeFindings, hcode] at hm
    exact ⟨messages, hm, .refl _⟩
  · obtain rfl := Except.ok.inj hm
    exact ⟨_, rfl, defineFindings_perm h _⟩
  · obtain rfl := Except.ok.inj hm
    refine ⟨_, rfl, ?_⟩
    rw [branchFindings, hcondition, hthen, helse]
    exact .refl _
  all_goals
    obtain rfl := Except.ok.inj hm
    refine ⟨_, rfl, ?_⟩
    rw [listFindings, hroutines]
    exact .refl _

end Outputs

theorem routineFindings_perm [CharNames] (h : Value.Within "outputs" Value.Shuffled v w)
    (hv : routineFindings c v = .ok messages) :
    ∃ others, routineFindings c w = .ok others ∧ messages.Perm others := by
  cases h with
  | refl v => exact ⟨messages, hv, .refl _⟩
  | @fields m n h =>
    have htype := h.field_eq "type" (by decide)
    have hpass : passthroughFindings m = passthroughFindings n := by
      rw [passthroughFindings, h.field_eq "passthrough" (by decide)]
      rfl
    simp only [routineFindings, htype, hpass] at hv ⊢
    split at hv
    · split at hv
      · rename_i hkind
        obtain ⟨fields, hfields, hdone⟩ := bind_eq_ok.mp hv
        obtain rfl := Except.ok.inj hdone
        obtain ⟨others, hothers, hperm⟩ := kindFindings_perm h hfields
        refine ⟨passthroughFindings n ++ others, ?_, hperm.append_left _⟩
        simp only [hkind, ↓reduceIte, hothers]
        rfl
      · rename_i hkind
        simp only [hkind, Bool.false_eq_true, ↓reduceIte]
        exact ⟨messages, hv, .refl _⟩
    · exact ⟨messages, hv, .refl _⟩

section Contexts

/-- Contexts that tell the same names of routines, and have the same names available. -/
structure Context.Alike (c c' : Context) : Prop where
  names : isName c.routines = isName c'.routines
  available : ∀ name, name ∈ c.available ↔ name ∈ c'.available
  checkCode : c.checkCode = c'.checkCode

variable (h : c.Alike c')

include h

theorem kindFindings_congr [CharNames] : kindFindings c = kindFindings c' := by
  have hreference : referenceFindings c.routines = referenceFindings c'.routines := by
    funext v
    rw [referenceFindings, referenceFindings, h.names]
  have havailable (name : String) : c.available.contains name = c'.available.contains name := by
    rw [Bool.eq_iff_iff, List.contains_iff_mem, List.contains_iff_mem, h.available]
  have houtput : outputFindings c.available = outputFindings c'.available := by
    funext outputs key spec
    unfold outputFindings
    simp only [havailable]
  funext kind entries
  unfold kindFindings promptFindings defineFindings branchFindings listFindings
  simp only [hreference, houtput, h.checkCode]

theorem routineFindings_congr [CharNames] : routineFindings c = routineFindings c' := by
  funext routine
  unfold routineFindings
  rw [kindFindings_congr h]

end Contexts

theorem namesOf_perm (h : Value.Within "outputs" Value.Shuffled v w) : (namesOf v).Perm (namesOf w) := by
  cases h with
  | refl v => exact .refl _
  | @fields m n h =>
    have houtputs := h.field_rel .refl
    unfold namesOf
    dsimp only
    rw [h.field_eq "type" (by decide)]
    generalize Environment.field m "outputs" = v at houtputs ⊢
    generalize Environment.field n "outputs" = w at houtputs ⊢
    cases houtputs with
    | refl v => exact .refl _
    | entries hperm =>
      split
      · rename_i outputs htype houtputs
        obtain rfl := Value.map.inj houtputs
        simp only [htype]
        exact (Environment.perm_named hperm).map _
      · split
        · simp_all
        · exact .refl _

abbrev Reordered (routines others : Mapping String Value) : Prop :=
  List.Forall₂ (fun e f => e.1 = f.1 ∧ Value.Within "outputs" Value.Shuffled e.2 f.2) routines others

theorem reordered_named
    (h : List.Forall₂ (fun e f => e.1 = f.1 ∧ Value.Within "outputs" Value.Shuffled e.2 f.2) m n) :
    Reordered (Environment.named m) (Environment.named n) := by
  induction h with
  | nil => exact .nil
  | @cons e f m n hfirst h ih =>
    obtain ⟨key, v⟩ := e
    obtain ⟨key', w⟩ := f
    obtain ⟨rfl, hfirst⟩ := hfirst
    cases key with
    | text name => exact .cons ⟨rfl, hfirst⟩ ih
    | _ => exact ih

section Routines

variable {routines others : Mapping String Value} (h : Reordered routines others)

include h

theorem Reordered.keys_eq : Mapping.keys routines = Mapping.keys others := by
  induction h with
  | nil => rfl
  | cons hfirst h ih =>
    simp only [Mapping.keys, List.map_cons] at ih ⊢
    rw [hfirst.1, ih]

theorem Reordered.definedNames_perm : (definedNames routines).Perm (definedNames others) := by
  rw [definedNames_eq, definedNames_eq]
  exact perm_flatMap_of_forall₂ h fun e _ f hef => namesOf_perm hef.2

theorem Reordered.ofRoutine_perm [CharNames]
    (hok : ∀ entry ∈ routines, ∃ messages, routineFindings c entry.2 = .ok messages) :
    (∀ entry ∈ others, ∃ messages, routineFindings c entry.2 = .ok messages) ∧
      (routines.flatMap (ofRoutine c)).Perm (others.flatMap (ofRoutine c)) := by
  constructor
  · intro f hf
    obtain ⟨e, he, -, hef⟩ := exists_mem_of_forall₂ h f hf
    obtain ⟨messages, hmessages⟩ := hok e he
    obtain ⟨messages', hmessages', -⟩ := routineFindings_perm hef hmessages
    exact ⟨messages', hmessages'⟩
  · refine perm_flatMap_of_forall₂ h fun e he f hef => ?_
    obtain ⟨messages, hmessages⟩ := hok e he
    obtain ⟨messages', hmessages', hperm⟩ := routineFindings_perm hef.2 hmessages
    rw [ofRoutine_of_ok hmessages, ofRoutine_of_ok hmessages', hef.1]
    exact hperm.map _

end Routines

theorem mainFindings_congr {routines others : Mapping String Value} (h : isName routines = isName others) :
    mainFindings routines = mainFindings others := by
  funext main
  simp only [mainFindings, h]

variable {known known' : List String} {checkCode : Bool} {findings : List Finding}

/-- What rearranged documents have in common. Each routine of either can be examined if those of the other can. -/
theorem contextOf_alike [CharNames] (h : Environment.Varies "routines" Value.Redeclared m n) :
    (Environment.field m "routines").kind = (Environment.field n "routines").kind ∧
      (contextOf m known checkCode).Alike (contextOf n known checkCode) ∧
      ((∀ entry ∈ Environment.fieldNamed m "routines", ∃ messages, routineFindings c entry.2 = .ok messages) →
        (∀ entry ∈ Environment.fieldNamed n "routines", ∃ messages, routineFindings c entry.2 = .ok messages) ∧
          ((Environment.fieldNamed m "routines").flatMap (ofRoutine c)).Perm
            ((Environment.fieldNamed n "routines").flatMap (ofRoutine c))) := by
  have hfield := h.field_rel .refl
  unfold contextOf Environment.fieldNamed
  generalize Environment.field m "routines" = v at *
  generalize Environment.field n "routines" = w at *
  cases hfield with
  | refl => exact ⟨rfl, ⟨rfl, fun _ => .rfl, rfl⟩, fun hok => ⟨hok, .refl _⟩⟩
  | @routines m n o houtputs horder =>
    have hreordered := reordered_named houtputs
    have hperm := Environment.perm_named horder
    refine ⟨rfl, ⟨?_, ?_, rfl⟩, ?_⟩
    · have hhas : Mapping.has (Environment.named m) = Mapping.has (Environment.named o) := by
        apply Mapping.has_of_perm
        rw [hreordered.keys_eq]
        exact hperm.map _
      funext v
      cases v with
      | str name => exact congrFun hhas name
      | _ => rfl
    · intro name
      exact ((hreordered.definedNames_perm.trans (hperm.flatMap_right _)).append_left known).mem_iff
    · intro hok
      obtain ⟨hothers, hsame⟩ := hreordered.ofRoutine_perm hok
      exact ⟨fun entry hentry => hothers entry (hperm.mem_iff.mpr hentry), hsame.trans (hperm.flatMap_right _)⟩

theorem validate_perm [CharNames] {document document' : Value} (h : document.Rearranged document')
    (hok : validate document known checkCode = .ok findings) :
    ∃ others, validate document' known checkCode = .ok others ∧ findings.Perm others := by
  cases h with
  | refl => exact ⟨findings, hok, .refl _⟩
  | @fields m n h =>
    obtain ⟨whole, hwhole, hall, rfl⟩ := validate_eq_ok.mp hok
    obtain ⟨hkind, halike, hroutines⟩ := contextOf_alike h
    have hcongr : ofRoutine (contextOf m known checkCode) = ofRoutine (contextOf n known checkCode) := by
      funext entry
      rw [ofRoutine, ofRoutine, routineFindings_congr halike]
    rw [routineFindings_congr halike] at hall
    rw [hcongr]
    obtain ⟨hothers, hperm⟩ := hroutines hall
    refine ⟨_, validate_eq_ok.mpr ⟨whole, ?_, hothers, rfl⟩, hperm.append_left _⟩
    rw [← hwhole, wholeFindings, wholeFindings, hkind, h.field_eq "main" (by decide)]
    exact congrArg (Except.map _ <| · (Environment.field n "main")) (mainFindings_congr halike.names).symm

def missingInput (name : String) : String :=
  "Input \"" ++ name ++ "\" not found"

/-- Whether the message is that one of the inputs is missing. -/
def settles (inputs : List String) (message : String) : Bool :=
  inputs.any fun name => message == missingInput name

def unsettled (inputs messages : List String) : List String :=
  messages.filter fun message => !settles inputs message

theorem missingInput_inj {a b : String} (h : missingInput a = missingInput b) : a = b := by
  simpa [missingInput, String.ext_iff] using h

theorem settles_missingInput (inputs : List String) (name : String) :
    settles inputs (missingInput name) = inputs.contains name := by
  rw [Bool.eq_iff_iff, settles, List.any_eq_true, List.contains_iff_mem]
  constructor
  · rintro ⟨other, hother, hsame⟩
    rwa [missingInput_inj (eq_of_beq hsame)]
  · exact fun hname => ⟨name, hname, beq_self_eq_true _⟩

theorem Unlike.not_settles {message : String} (h : Unlike "Input \"" message) (inputs : List String) :
    settles inputs message = false := by
  rw [settles, List.any_eq_false]
  intro name _ hsame
  rw [eq_of_beq hsame, missingInput, String.append_assoc] at h
  exact h.ne _ rfl

theorem unsettled_when (inputs : List String) (condition : Bool) (message : String) :
    unsettled inputs (when condition message) = when (condition && !settles inputs message) message := by
  cases condition <;> cases hsettles : settles inputs message <;> simp [when, unsettled, hsettles]

theorem unsettled_append (inputs messages messages' : List String) :
    unsettled inputs (messages ++ messages') = unsettled inputs messages ++ unsettled inputs messages' :=
  List.filter_append _ _

abbrev Needless (messages : List String) : Prop :=
  ∀ message ∈ messages, Unlike "Input \"" message

theorem Needless.unsettled_eq (h : Needless messages) (inputs : List String) : unsettled inputs messages = messages := by
  rw [unsettled, List.filter_eq_self]
  intro message hmessage
  rw [(h message hmessage).not_settles]
  rfl

theorem needless_tagFindings (v : Value) : Needless (tagFindings v) := by
  apply Unlike.of_when
  have h : Unlike "Input \"" "Invalid type: " := by decide
  exact h.append (by decide) _

theorem needless_referenceFindings (routines : Mapping String Value) (v : Value) :
    Needless (referenceFindings routines v) := by
  apply Unlike.of_when
  have h : Unlike "Input \"" "Routine \"" := by decide
  rw [String.append_assoc]
  exact h.append (by decide) _

theorem needless_unknown (kind : String) : Needless [s!"Unknown routine type: {kind}"] := by
  have h : Unlike "Input \"" "Unknown routine type: " := by decide
  exact List.forall_mem_singleton.mpr (h.append (by decide) _)

theorem needless_passthroughFindings (entries : Environment) : Needless (passthroughFindings entries) :=
  Unlike.of_when (by decide)

theorem needless_flatMap {α : Type} {f : α → List String} (h : ∀ x, Needless (f x)) (xs : List α) :
    Needless (xs.flatMap f) := by
  intro message hmessage
  obtain ⟨x, -, hx⟩ := List.mem_flatMap.mp hmessage
  exact h x message hx

theorem needless_promptFindings (entries : Environment) : Needless (promptFindings entries) := by
  refine List.forall_mem_append.mpr ⟨Unlike.of_when (by decide), ?_⟩
  split
  · simp
  · exact List.forall_mem_append.mpr
      ⟨Unlike.of_when (by decide), needless_flatMap (fun entry : Key × Value => needless_tagFindings entry.2) _⟩
  · exact List.forall_mem_singleton.mpr (by decide)

theorem needless_codeFindings [CharNames] {checkCode : Bool} {entries : Environment}
    (h : codeFindings checkCode entries = .ok messages) : Needless messages := by
  unfold codeFindings at h
  dsimp only at h
  split at h
  · obtain rfl := Except.ok.inj h
    exact List.forall_mem_singleton.mpr (by decide)
  · split at h
    · split at h
      · cases h
      · obtain rfl := Except.ok.inj h
        exact List.forall_mem_nil _
      · obtain rfl := Except.ok.inj h
        have hstart : Unlike "Input \"" "Invalid code expression: " := by decide
        exact List.forall_mem_singleton.mpr (hstart.append (by decide) _)
    · obtain rfl := Except.ok.inj h
      exact List.forall_mem_nil _

theorem needless_branchFindings (routines : Mapping String Value) (entries : Environment) :
    Needless (branchFindings routines entries) :=
  List.forall_mem_append.mpr
    ⟨Unlike.of_when (by decide), needless_flatMap (needless_referenceFindings routines) _⟩

theorem needless_listFindings (routines : Mapping String Value) (entries : Environment) {label : String}
    (hempty : Unlike "Input \"" s!"{label} routine must have at least one routine")
    (hnone : Unlike "Input \"" s!"{label} routine must have routines array") :
    Needless (listFindings routines entries label) := by
  unfold listFindings
  split
  · exact List.forall_mem_append.mpr
      ⟨Unlike.of_when hempty, needless_flatMap (needless_referenceFindings routines) _⟩
  · exact List.forall_mem_singleton.mpr hnone

section Known

variable {inputs more : List String}
  (hmore : ∀ name, more.contains name = (c.available.contains name || inputs.contains name))

include hmore

theorem outputFindings_unsettled (outputs : Mapping String Value) (key : String) (spec : Value) :
    outputFindings more outputs key spec = unsettled inputs (outputFindings c.available outputs key spec) := by
  cases spec with
  | map fields => exact ((needless_tagFindings _).unsettled_eq inputs).symm
  | str reference =>
    simp only [outputFindings, hmore]
    rw [unsettled_when, ← missingInput, settles_missingInput]
    congr 1
    cases (TypeTag.splitOptional reference).2 <;> simp [Bool.and_right_comm]
  | _ =>
    have h : Unlike "Input \"" "Define output \"" := by decide
    have hneedless : Needless ["Define output \"" ++ key ++ "\" must be a reference or a literal spec"] := by
      rw [String.append_assoc]
      exact List.forall_mem_singleton.mpr (h.append (by decide) _)
    exact (hneedless.unsettled_eq inputs).symm

theorem kindFindings_unsettled [CharNames] (kind : String) (entries : Environment) :
    kindFindings { c with available := more } kind entries = (kindFindings c kind entries).map (unsettled inputs) := by
  unfold kindFindings
  split
  · exact congrArg Except.ok ((needless_promptFindings entries).unsettled_eq inputs).symm
  · cases hcode : codeFindings c.checkCode entries with
    | error cause => rfl
    | ok messages => exact congrArg Except.ok ((needless_codeFindings hcode).unsettled_eq inputs).symm
  · refine congrArg Except.ok ?_
    unfold defineFindings
    split
    · rename_i outputs _
      dsimp only
      rw [unsettled, List.filter_flatMap]
      exact congrArg (List.flatMap · _) (funext fun entry => outputFindings_unsettled hmore _ _ _)
    · have hneedless : Needless ["Define routine must have outputs object"] := by decide
      exact (hneedless.unsettled_eq inputs).symm
  · exact congrArg Except.ok ((needless_branchFindings _ entries).unsettled_eq inputs).symm
  · exact congrArg Except.ok ((needless_listFindings _ entries (by decide) (by decide)).unsettled_eq inputs).symm
  · exact congrArg Except.ok ((needless_listFindings _ entries (by decide) (by decide)).unsettled_eq inputs).symm

theorem routineFindings_unsettled [CharNames] (routine : Value) :
    routineFindings { c with available := more } routine = (routineFindings c routine).map (unsettled inputs) := by
  cases routine with
  | map entries =>
    simp only [routineFindings]
    split
    · split
      · rw [kindFindings_unsettled hmore]
        cases kindFindings c _ entries with
        | error cause => rfl
        | ok messages =>
          refine congrArg Except.ok ?_
          rw [unsettled_append, (needless_passthroughFindings entries).unsettled_eq]
      · exact congrArg Except.ok ((needless_unknown _).unsettled_eq inputs).symm
    · exact congrArg Except.ok ((needless_unknown _).unsettled_eq inputs).symm
  | _ =>
    have hneedless : Needless ["Routine must be an object"] := by decide
    exact congrArg Except.ok (hneedless.unsettled_eq inputs).symm

theorem ofRoutine_unsettled [CharNames] (entry : String × Value) :
    ofRoutine { c with available := more } entry = (ofRoutine c entry).filter fun f => !settles inputs f.message := by
  rw [ofRoutine, ofRoutine, routineFindings_unsettled hmore]
  cases routineFindings c entry.2 with
  | error cause => rfl
  | ok messages =>
    simp only [Except.map, about, unsettled, List.filter_map]
    rfl

end Known

theorem unlike_of_wholeFindings {entries : Environment} {whole : List Finding} (h : wholeFindings entries = .ok whole) :
    ∀ f ∈ whole, Unlike "Input \"" f.message := by
  obtain ⟨main, hmain, h⟩ := bind_eq_ok.mp h
  obtain rfl := Except.ok.inj h
  refine List.forall_mem_append.mpr ⟨?_, ?_⟩
  · split
    · simp
    · exact List.forall_mem_singleton.mpr (by decide)
  · unfold mainFindings at hmain
    split at hmain
    · obtain rfl := Except.ok.inj hmain
      exact List.forall_mem_singleton.mpr (by decide)
    · split at hmain
      · cases hmain
      · split at hmain
        · obtain rfl := Except.ok.inj hmain
          exact List.forall_mem_nil _
        · obtain rfl := Except.ok.inj hmain
          have hstart : Unlike "Input \"" "Main routine \"" := by decide
          refine List.forall_mem_singleton.mpr ?_
          rw [String.append_assoc]
          exact hstart.append (by decide) _

theorem validate_filter [CharNames] {document : Value} (hknown : known ⊆ known')
    (hok : validate document known checkCode = .ok findings) :
    validate document known' checkCode = .ok (findings.filter fun f => !settles known' f.message) := by
  cases document with
  | map entries =>
    obtain ⟨whole, hwhole, hall, rfl⟩ := validate_eq_ok.mp hok
    have hmore (name : String) : (known' ++ definedNames (Environment.fieldNamed entries "routines")).contains name =
        ((contextOf entries known checkCode).available.contains name || known'.contains name) := by
      rw [Bool.eq_iff_iff, Bool.or_eq_true]
      simp only [contextOf, List.contains_iff_mem, List.mem_append]
      have hsubset : name ∈ known → name ∈ known' := @hknown name
      tauto
    refine validate_eq_ok.mpr ⟨whole, hwhole, fun entry hentry => ?_, ?_⟩
    · obtain ⟨messages, hmessages⟩ := hall entry hentry
      refine ⟨unsettled known' messages, ?_⟩
      have hunsettled := routineFindings_unsettled hmore entry.2
      rwa [hmessages] at hunsettled
    · have hrest : ofRoutine (contextOf entries known' checkCode) = _ := funext (ofRoutine_unsettled hmore)
      have hfirst : whole.filter (fun f => !settles known' f.message) = whole := by
        rw [List.filter_eq_self]
        intro f hf
        rw [(unlike_of_wholeFindings hwhole f hf).not_settles]
        rfl
      rw [List.filter_append, List.filter_flatMap, hfirst, hrest]
  | _ =>
    obtain rfl := Except.ok.inj hok
    have hunlike : Unlike "Input \"" "Program must be an object" := by decide
    rw [List.filter_cons, hunlike.not_settles]
    rfl

/-- Routines and outputs that are declared in another order make for the same findings, as often, but in another order.
Further inputs make for the same findings in the same order, but for those that one of the inputs is missing. -/
theorem findings_of_rearranged [CharNames] (document : Value) (known : List String) (checkCode : Bool)
    (findings : List Finding)
    (h : validate document known checkCode = .ok findings) :
    (∀ document', document.Rearranged document' →
      ∃ others, validate document' known checkCode = .ok others ∧ findings.Perm others) ∧
    ∀ known', known ⊆ known' →
      validate document known' checkCode = .ok (findings.filter fun f => !settles known' f.message) :=
  ⟨fun _ hdocument => validate_perm hdocument h, fun _ hknown => validate_filter hknown h⟩

def naming (outputs : Mapping String Value) : Value :=
  .record [("type", .str "define"), ("outputs", .record outputs)]

def welcoming : Value :=
  .record [("type", .str "compose"), ("routines", .list [.str "naming", .str "ghost"])]

/-- Both outputs are missing inputs, and one routine is missing. -/
def declared : Value :=
  .record [
    ("main", .str "welcoming"),
    ("routines", .record [("naming", naming [("first", .str "given"), ("last", .str "family")]), ("welcoming", welcoming)])]

def redeclared : Value :=
  .record [
    ("main", .str "welcoming"),
    ("routines", .record [("welcoming", welcoming), ("naming", naming [("last", .str "family"), ("first", .str "given")])])]

def declaredFindings : List Finding :=
  [⟨missingInput "given", some "naming"⟩, ⟨missingInput "family", some "naming"⟩,
    ⟨"Routine \"ghost\" not found", some "welcoming"⟩]

theorem declared_rearranged : declared.Rearranged redeclared := by
  have houtputs : Value.Within "outputs" Value.Shuffled
      (naming [("first", .str "given"), ("last", .str "family")])
      (naming [("last", .str "family"), ("first", .str "given")]) :=
    .fields (.same _ (.other (.entries (.swap _ _ _)) .nil))
  refine .fields (.same _ (.other (.routines ?_ (.swap _ _ _)) .nil))
  exact .cons ⟨rfl, houtputs⟩ (.cons ⟨rfl, .refl _⟩ .nil)

theorem declared_findings : validate declared [] true = .ok declaredFindings ∧
    (∃ others, validate redeclared [] true = .ok others ∧ declaredFindings.Perm others) ∧
    validate declared ["given"] true =
      .ok [⟨missingInput "family", some "naming"⟩, ⟨"Routine \"ghost\" not found", some "welcoming"⟩] := by
  have hdeclared : validate declared [] true = .ok declaredFindings := by rfl
  obtain ⟨hperm, hknown⟩ := findings_of_rearranged declared [] true declaredFindings hdeclared
  exact ⟨hdeclared, hperm redeclared declared_rearranged, hknown ["given"] (List.nil_subset _)⟩

end Validation

end RoutineFlow
