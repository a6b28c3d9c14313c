import RoutineFlow.Proofs.Keyed
import RoutineFlow.Proofs.Messages
import RoutineFlow.Proofs.Reachability
import RoutineFlow.Run.Execute

/-!
References between routines, as the validation reports them and as the program that was read follows them. The program looks
for the targets of a branch as they are given, but for the entries of a list by their texts.
-/

namespace RoutineFlow

namespace Validation

/-- A reference as a document gives it, and what is looked for in its place. A text stands for itself. -/
structure Reference where
  written : Value
  target : Value
  target_of_text : ∀ name, written = .str name → target = .str name

namespace Reference

def direct (v : Value) : Reference :=
  ⟨v, v, fun _ h => h⟩

def listed (v : Value) : Reference where
  written := v
  target := .str v.label
  target_of_text := by
    rintro name rfl
    rfl

def ofTargets (targets : List Value) : List Reference :=
  (targets.filter fun v => !v.isEmpty).map direct

def ofList : Value → List Reference
  | .list names => names.map listed
  | _ => []

def ofFields (kind : String) (entries : Environment) : List Reference :=
  match kind with
  | "if" => ofTargets [Environment.field entries "then", Environment.field entries "else"]
  | "compose" | "join" => ofList (Environment.field entries "routines")
  | _ => []

/-- Nothing is found under what is looked for. -/
def Dangling (p : Program) (r : Reference) : Prop :=
  p.find? r.target = none

/-- What is reported: references to nothing, and whatever is no text. -/
def reported (p : Program) (r : Reference) : Bool :=
  (p.find? r.target).isNone || r.written.text?.isNone

end Reference

def notFound (name : String) (v : Value) : Finding :=
  ⟨"Routine \"" ++ v.label ++ "\" not found", some name⟩

variable {c : Context} {document entries : Environment} {name : String}

theorem reported_iff (r : Reference) : r.reported (Program.ofEntries document) =
    !isName (Environment.fieldNamed document "routines") r.written := by
  cases hwritten : r.written with
  | str name =>
    rw [Reference.reported, r.target_of_text name hwritten, Program.find?_ofEntries, hwritten]
    simp [isName, Mapping.has, Value.text?]
  | _ => simp [Reference.reported, isName, hwritten, Value.text?]

theorem Unlike.ne_notFound {message : String} (h : Unlike "Routine \"" message) (v : Value) :
    ⟨message, some name⟩ ≠ notFound name v := by
  intro hsame
  obtain ⟨hmessage, -⟩ := Finding.mk.inj hsame
  rw [String.append_assoc] at hmessage
  exact h.ne _ hmessage

theorem unlike_passthrough : ∀ message ∈ passthroughFindings entries, Unlike "Routine \"" message :=
  Unlike.of_when (by decide)

def report (r : Reference) : String :=
  "Routine \"" ++ r.written.label ++ "\" not found"

/-- The messages about the references of a routine, of which the program has no such routines. -/
def reports (routines : Mapping String Value) (references : List Reference) : List String :=
  (references.filter fun r => !isName routines r.written).map report

theorem flatMap_referenceFindings (routines : Mapping String Value) (names : List Value) (f : Value → Reference)
    (hf : ∀ v, (f v).written = v) :
    names.flatMap (referenceFindings routines) = reports routines (names.map f) := by
  induction names with
  | nil => rfl
  | cons v names ih =>
    rw [List.flatMap_cons, ih, reports, reports, List.map_cons, List.filter_cons, hf]
    cases hname : isName routines v <;> simp [referenceFindings, hname, when, report, hf]

theorem listFindings_eq (routines : Mapping String Value) {label : String}
    (hempty : Unlike "Routine \"" s!"{label} routine must have at least one routine")
    (hnone : Unlike "Routine \"" s!"{label} routine must have routines array") :
    ∃ others, (∀ message ∈ others, Unlike "Routine \"" message) ∧ listFindings routines entries label =
      others ++ reports routines (Reference.ofList (Environment.field entries "routines")) := by
  unfold listFindings
  split
  · rename_i names hnames
    rw [hnames, flatMap_referenceFindings routines names .listed fun _ => rfl]
    exact ⟨_, Unlike.of_when hempty, rfl⟩
  · rename_i hnames
    have hlist : Reference.ofList (Environment.field entries "routines") = [] := by
      unfold Reference.ofList
      split
      · rename_i names hlist
        exact absurd hlist (hnames names)
      · rfl
    rw [hlist]
    exact ⟨[_], List.forall_mem_singleton.mpr hnone, rfl⟩

theorem branchFindings_eq (routines : Mapping String Value) :
    ∃ others, (∀ message ∈ others, Unlike "Routine \"" message) ∧ branchFindings routines entries =
      others ++ reports routines
        (Reference.ofTargets [Environment.field entries "then", Environment.field entries "else"]) := by
  unfold branchFindings
  dsimp only
  rw [flatMap_referenceFindings routines _ .direct fun _ => rfl]
  exact ⟨_, Unlike.of_when (by decide), rfl⟩

/-- A routine of lists or branches: its references to nothing are reported last, and nothing else in such words. -/
theorem routineFindings_of_references [CharNames] {kind : String} (hkind : kind ∈ ["compose", "join", "if"])
    (htype : Environment.field entries "type" = .str kind) :
    ∃ others, (∀ message ∈ others, Unlike "Routine \"" message) ∧
      routineFindings c (.map entries) = .ok (others ++ reports c.routines (Reference.ofFields kind entries)) := by
  have hfields : ∃ others, (∀ message ∈ others, Unlike "Routine \"" message) ∧
      kindFindings c kind entries = .ok (others ++ reports c.routines (Reference.ofFields kind entries)) := by
    simp only [List.mem_cons, List.not_mem_nil, or_false] at hkind
    obtain rfl | rfl | rfl := hkind
    · obtain ⟨others, hothers, h⟩ := @listFindings_eq entries c.routines "Compose" (by decide) (by decide)
      exact ⟨others, hothers, congrArg _ h⟩
    · obtain ⟨others, hothers, h⟩ := @listFindings_eq entries c.routines "Join" (by decide) (by decide)
      exact ⟨others, hothers, congrArg _ h⟩
    · obtain ⟨others, hothers, h⟩ := @branchFindings_eq entries c.routines
      exact ⟨others, hothers, congrArg _ h⟩
  obtain ⟨others, hothers, hfields⟩ := hfields
  have hknown : Body.kinds.contains kind = true := by
    simp only [List.mem_cons, List.not_mem_nil, or_false] at hkind
    obtain rfl | rfl | rfl := hkind <;> rfl
  refine ⟨passthroughFindings entries ++ others, List.forall_mem_append.mpr ⟨unlike_passthrough, hothers⟩, ?_⟩
  simp only [routineFindings, htype, Value.text?, hknown, hfields, ↓reduceIte, List.append_assoc]
  rfl

theorem references_ofDocument {kind : String} (hkind : kind ∈ ["compose", "join", "if"])
    (htype : Environment.field entries "type" = .str kind) :
    (Body.ofDocument entries).references = (Reference.ofFields kind entries).map (·.target) := by
  have hgiven := Environment.get?_of_field htype (by simp)
  have hlist (v : Value) : v.names.map Value.str = (Reference.ofList v).map (·.target) := by
    cases v with
    | list names =>
      rw [Value.names, Reference.ofList, List.map_map, List.map_map]
      rfl
    | _ => rfl
  simp only [Body.ofDocument, hgiven, Option.getD_some]
  simp only [List.mem_cons, List.not_mem_nil, or_false] at hkind
  obtain rfl | rfl | rfl := hkind
  · exact hlist _
  · exact hlist _
  · simp only [Body.references, Reference.ofFields, Reference.ofTargets, List.map_map]
    exact (List.map_id _).symm

theorem reported_of_direct {p : Program} {r : Reference} (h : r.target = r.written) :
    r.reported p = true ↔ r.Dangling p := by
  rw [Reference.reported, Reference.Dangling, h]
  cases r.written <;> simp [Program.find?, Value.text?]

theorem target_of_ofTargets {targets : List Value} : ∀ r ∈ Reference.ofTargets targets, r.target = r.written := by
  intro r hr
  obtain ⟨v, -, rfl⟩ := List.mem_map.mp hr
  rfl

theorem dangling_not_executed [CharNames] {σ : Type} {p : Program} {r : Reference} (h : r.Dangling p)
    (service : Option (Service σ))
    (workers : Int) (limit : Nat) (given : Value) (s : State σ) :
    ((Engine.mk p service workers).execute (limit + 1) r.target given).perform s =
      (.error (.routineNotFound r.target), s) := by
  rw [Reference.Dangling] at h
  simp only [Engine.execute, h]
  rfl

/-- The findings about a routine of lists or branches: no others have the form of its reports. -/
theorem exists_reports [CharNames] {routines : Mapping String Value} {kind : String}
    (hdistinct : (Mapping.keys routines).Nodup) (hroutine : (name, .map entries) ∈ routines)
    (hkind : kind ∈ ["compose", "join", "if"]) (htype : Environment.field entries "type" = .str kind) :
    ∃ before after, routines.flatMap (ofRoutine c) =
        before ++ about name (reports c.routines (Reference.ofFields kind entries)) ++ after ∧
      ∀ f ∈ before ++ after, ∀ v, f ≠ notFound name v := by
  obtain ⟨before, after, rfl⟩ := List.append_of_mem hroutine
  obtain ⟨others, hothers, hreports⟩ := @routineFindings_of_references c _ _ _ hkind htype
  have hown : ofRoutine c (name, .map entries) = _ := ofRoutine_of_ok hreports
  rw [Mapping.keys, List.map_append, List.map_cons] at hdistinct
  obtain ⟨-, hafter, hbefore⟩ := List.nodup_append.mp hdistinct
  -- findings about other routines are under other names
  have helsewhere : ∀ entry ∈ before ++ after, ∀ v, notFound name v ∉ ofRoutine c entry := by
    intro entry hentry v hv
    have hname : name = entry.1 := Option.some.inj (routine_of_mem_ofRoutine hv)
    obtain hentry | hentry := List.mem_append.mp hentry
    · exact hbefore _ (List.mem_map_of_mem hentry) name List.mem_cons_self hname.symm
    · apply (List.nodup_cons.mp hafter).1
      change name ∈ after.map (·.1)
      rw [hname]
      exact List.mem_map_of_mem hentry
  refine ⟨before.flatMap (ofRoutine c) ++ about name others, after.flatMap (ofRoutine c), ?_, ?_⟩
  · rw [List.flatMap_append, List.flatMap_cons, hown]
    simp only [about, List.map_append, List.append_assoc]
  · rintro f hf v rfl
    simp only [List.mem_append, List.mem_flatMap] at hf
    obtain (⟨entry, hentry, hf⟩ | hf) | ⟨entry, hentry, hf⟩ := hf
    · exact helsewhere entry (List.mem_append_left _ hentry) v hf
    · obtain ⟨message, hmessage, hsame⟩ := List.mem_map.mp hf
      exact (hothers message hmessage).ne_notFound v hsame
    · exact helsewhere entry (List.mem_append_right _ hentry) v hf

/-- The findings that a routine has references to nothing are one for each reference that the program does not resolve, in
the order of the references, but there is one for each entry of a list that is no text as well: the program looks for its
text, and may find a routine. Where nothing is found, nothing is executed. -/
theorem references_reported [CharNames] (document routines : Environment) (hkeyed : (Value.map document).Keyed)
    (hroutines : Environment.field document "routines" = .map routines) (known : List String) (checkCode : Bool)
    (findings : List Finding) (hfindings : validate (.map document) known checkCode = .ok findings) (name kind : String)
    (entries : Environment) (hroutine : (name, .map entries) ∈ Environment.named routines)
    (hkind : kind ∈ ["compose", "join", "if"]) (htype : Environment.field entries "type" = .str kind) :
    ∃ program r before after, Program.ofDocument (.map document) = .ok program ∧ program.find? (.str name) = some r ∧
      r.body.references = (Reference.ofFields kind entries).map (·.target) ∧
      findings = before ++ ((Reference.ofFields kind entries).filter (·.reported program)).map
        (fun reference => notFound name reference.written) ++ after ∧
      (∀ f ∈ before ++ after, ∀ v, f ≠ notFound name v) ∧
      ∀ reference ∈ Reference.ofFields kind entries,
        (kind = "if" ∨ reference.written.text?.isSome → (reference.reported program ↔ reference.Dangling program)) ∧
        (reference.Dangling program → ∀ {σ : Type} (service : Option (Service σ)) (workers : Int) (limit : Nat)
          (given : Value) (s : State σ),
          ((Engine.mk program service workers).execute (limit + 1) reference.target given).perform s =
            (.error (.routineNotFound reference.target), s)) := by
  have hdistinct := (hkeyed.of_get? (Environment.get?_of_field hroutines (by simp))).distinct_named
  have hnamed : Environment.fieldNamed document "routines" = Environment.named routines := by
    rw [Environment.fieldNamed, hroutines]
    rfl
  obtain ⟨whole, hwhole, -, rfl⟩ := validate_eq_ok.mp hfindings
  rw [← hnamed] at hdistinct hroutine
  obtain ⟨before, after, hbetween, hunlike⟩ :=
    @exists_reports (contextOf document known checkCode) _ _ _ _ _ hdistinct hroutine hkind htype
  refine ⟨Program.ofEntries document, Routine.ofDocument (.map entries), whole ++ before, after, rfl, ?_,
    references_ofDocument hkind htype, ?_, ?_, ?_⟩
  · rw [Program.find?_ofEntries, Mapping.get?_of_mem hdistinct hroutine]
    rfl
  · have hreported : (fun r : Reference => r.reported (Program.ofEntries document)) =
        fun r => !isName (Environment.fieldNamed document "routines") r.written := by
      funext r
      exact reported_iff r
    rw [hbetween, hreported, about, reports, List.map_map, List.append_assoc, List.append_assoc, List.append_assoc]
    rfl
  · rw [List.append_assoc, List.forall_mem_append]
    refine ⟨?_, hunlike⟩
    rintro f hf v rfl
    cases routine_of_wholeFindings hwhole _ hf
  · intro r hr
    refine ⟨?_, fun hdangling σ => dangling_not_executed hdangling⟩
    rintro (rfl | htext)
    · exact reported_of_direct (target_of_ofTargets r hr)
    · obtain ⟨text, htext⟩ := Option.isSome_iff_exists.mp htext
      have hwritten := text?_eq_some htext
      exact reported_of_direct ((r.target_of_text text hwritten).trans hwritten.symm)

/-- A list of a routine, a number that is the name of the same routine, a name without one, and what is no name. -/
def assortedFields : Environment :=
  Environment.ofNamed [("type", .str "compose"), ("routines", .list [.str "3", .int 3, .str "ghost", .list [.str "3"]])]

def assortedRoutines : Environment :=
  Environment.ofNamed [("m", .map assortedFields), ("3", .record [("type", .str "define"), ("outputs", .record [])])]

def assorted : Environment :=
  Environment.ofNamed [("main", .str "m"), ("routines", .map assortedRoutines)]

def assortedFindings : List Finding :=
  [notFound "m" (.int 3), notFound "m" (.str "ghost"), notFound "m" (.list [.str "3"])]

theorem assorted_reported : validate (.map assorted) [] true = .ok assortedFindings ∧
    ∃ program before after, Program.ofDocument (.map assorted) = .ok program ∧
      assortedFindings = before ++ assortedFindings ++ after ∧
      ((Reference.ofFields "compose" assortedFields).filter (·.reported program)).map
        (fun reference => notFound "m" reference.written) = assortedFindings ∧
      ∀ f ∈ before ++ after, ∀ v, f ≠ notFound "m" v := by
  have hkeyed : (Value.map assorted).Keyed := by
    have hrecord := @Value.keyed_record
    simp only [Value.record] at hrecord
    simp [assorted, assortedRoutines, assortedFields, hrecord, Mapping.keys, Value.int, Value.record]
  have hfindings : validate (.map assorted) [] true = .ok assortedFindings := by with_unfolding_all rfl
  obtain ⟨program, r, before, after, hprogram, -, -, hreports, hunlike, -⟩ :=
    references_reported assorted assortedRoutines hkeyed rfl [] true _ hfindings "m" "compose" assortedFields
      List.mem_cons_self List.mem_cons_self rfl
  obtain rfl := Except.ok.inj hprogram
  have hreported : ((Reference.ofFields "compose" assortedFields).filter (·.reported (Program.ofEntries assorted))).map
      (fun reference => notFound "m" reference.written) = assortedFindings := by
    with_unfolding_all rfl
  rw [hreported] at hreports
  exact ⟨hfindings, _, before, after, rfl, hreports, hreported, hunlike⟩

/-- A step that is a number, and a routine of this name. -/
def numberedStep : Value :=
  .record [("main", .str "m"), ("routines", .record [
    ("m", .record [("type", .str "compose"), ("routines", .list [.int 3])]),
    ("3", .record [("type", .str "define"), ("outputs", .record [])])])]

/-- The number is reported as the name of no routine, and yet the routine is found and executed. -/
theorem numbered_step_executed : validate numberedStep [] true = .ok [notFound "m" (.int 3)] ∧
    ∃ program, Program.ofDocument numberedStep = .ok program ∧ ¬ (Reference.listed (.int 3)).Dangling program ∧
      ((Engine.mk program (none : Option (Service Unit)) 1).execute 2 (.str "m") (.map [])).perform
          ⟨(), [], ⟨false, []⟩⟩ =
        (.ok ([], .compose ⟨"m", .map [], []⟩ [.define ⟨"3", .map [], []⟩]), ⟨(), [], ⟨false, []⟩⟩) := by
  refine ⟨by with_unfolding_all rfl, _, rfl, ?_, by cbv⟩
  intro hdangling
  cases hdangling

end Validation

end RoutineFlow
