import RoutineFlow.Proofs.Flattening
import RoutineFlow.Proofs.Parallel
import RoutineFlow.Proofs.Unreachable

/-!
What a join makes of its branches when calls are answered by their requests alone: the last branch that gives a key decides
on its value, so branches that give different keys may be listed in any order.
-/

namespace RoutineFlow

namespace Mapping

variable {κ α : Type} [BEq κ] {m n : Mapping κ α}

def Apart (m n : Mapping κ α) : Prop :=
  ∀ key, has m key = true → has n key = false

theorem Apart.symm (h : Apart m n) : Apart n m := by
  intro key hn
  by_contra hm
  rw [Bool.not_eq_false] at hm
  rw [h key hm] at hn
  cases hn

variable [EquivBEq κ]

theorem has_append (m n : Mapping κ α) (key : κ) : has (m ++ n) key = (has m key || has n key) := by
  simp only [has_eq_any, keys, List.map_append, List.any_append]

theorem has_of_mem {key : κ} (h : key ∈ keys m) : has m key = true := by
  rw [has_eq_any, List.any_eq_true]
  exact ⟨key, h, BEq.rfl⟩

theorem insert_of_not_has {key : κ} (h : has m key = false) (v : α) : insert m key v = m ++ [(key, v)] := by
  induction m with
  | nil => rfl
  | cons entry m ih =>
    obtain ⟨k, w⟩ := entry
    rw [has_cons, Bool.or_eq_false_iff, BEq.comm] at h
    simp [insert, h.1, ih h.2]

theorem apart_of_keys (h : ∀ key ∈ keys m, has n key = false) : Apart m n := by
  intro key hkey
  rw [has_eq_any, List.any_eq_true] at hkey
  obtain ⟨k, hk, hsame⟩ := hkey
  rw [← has_congr hsame, h k hk]

theorem merge_eq_append (hn : Distinct n) (h : Apart m n) : merge m n = m ++ n := by
  induction n generalizing m with
  | nil => exact (List.append_nil m).symm
  | cons entry n ih =>
    obtain ⟨k, v⟩ := entry
    obtain ⟨hk, hrest⟩ := List.pairwise_cons.mp hn
    have hnew : has m k = false := h.symm k (has_of_mem List.mem_cons_self)
    have hapart : Apart (m ++ [(k, v)]) n := by
      intro key hkey
      rw [has_append, Bool.or_eq_true] at hkey
      obtain hkey | hkey := hkey
      · have hkey := h key hkey
        rw [has_cons, Bool.or_eq_false_iff] at hkey
        exact hkey.2
      · rw [has_cons, Bool.or_eq_true] at hkey
        obtain hkey | hkey := hkey
        · exact not_has_of_forall hkey hk
        · cases hkey
    rw [merge_cons, insert_of_not_has hnew, ih hrest hapart, List.append_assoc, List.singleton_append]

end Mapping

namespace Trace

@[elab_as_elim]
theorem induct {P : Trace → Prop} (prompt : ∀ r dev user, P (.prompt r dev user)) (code : ∀ r, P (.code r))
    (define : ∀ r, P (.define r)) (branch : ∀ r taken sub, P sub → P (.branch r taken sub))
    (compose : ∀ r subs, (∀ sub ∈ subs, P sub) → P (.compose r subs))
    (join : ∀ r subs, (∀ sub ∈ subs, P sub) → P (.join r subs)) (t : Trace) : P t :=
  @Trace.rec P (fun subs => ∀ sub ∈ subs, P sub) prompt code define branch compose join (by simp)
    (fun _ _ hfirst hrest => List.forall_mem_cons.mpr ⟨hfirst, hrest⟩) t

end Trace

namespace Engine

open Course

variable {σ : Type} {engine : Engine σ}

theorem distinct_define {initial : Environment} (h : Mapping.Distinct initial) (specs : Mapping String OutputSpec)
    (env : Environment) : Mapping.Distinct (define initial specs env) := by
  refine List.foldlRecOn specs _ h fun outputs houtputs spec _ => ?_
  dsimp only
  split
  · exact Mapping.distinct_insert houtputs _ _
  · exact houtputs

theorem distinct_codeOutputs [CharNames] (name : String) {initial : Environment} (h : Mapping.Distinct initial)
    (code given : Value) : Mapping.Distinct (codeOutputs name initial code given) := by
  unfold codeOutputs
  split
  · exact Mapping.distinct_merge h _
  · exact Mapping.distinct_insert h _ _

theorem distinct_threads {subs : List Trace} {env outputs : Environment} (hthreads : Trace.Threads env subs outputs)
    (henv : Mapping.Distinct env) (hsubs : ∀ sub ∈ subs, ∀ given, sub.record.inputs = .map given →
      Mapping.Distinct given → Mapping.Distinct sub.record.outputs) : Mapping.Distinct outputs := by
  induction subs generalizing env with
  | nil => rwa [hthreads]
  | cons sub subs ih =>
    obtain ⟨hsub, hrest⟩ := List.forall_mem_cons.mp hsubs
    exact ih hthreads.2 (hsub env hthreads.1 henv) hrest

theorem distinct_outputs [CharNames] (trace : Trace) (hnodes : ∀ node ∈ trace.walk, Justified engine node)
    (env : Environment)
    (hinputs : trace.record.inputs = .map env) (henv : Mapping.Distinct env) : Mapping.Distinct trace.record.outputs := by
  induction trace using Trace.induct generalizing env with
  | prompt r dev user =>
    cases hnodes _ List.mem_cons_self with
    | prompt => exact Mapping.distinct_merge (distinct_passthrough _ _) _
  | code r =>
    cases hnodes _ List.mem_cons_self with
    | code => exact distinct_codeOutputs _ (distinct_passthrough _ _) _ _
  | define r =>
    cases hnodes _ List.mem_cons_self with
    | define => exact distinct_define (distinct_passthrough _ _) _ _
  | branch r taken sub ih =>
    cases hnodes _ List.mem_cons_self with
    | branch => exact Mapping.distinct_merge (distinct_passthrough _ _) _
  | compose r subs ih =>
    -- each step starts from the outputs of the one before, so that its own inputs have distinct keys
    have hsubs : ∀ sub ∈ subs, ∀ node ∈ sub.walk, Justified engine node := by
      intro sub hsub node hnode
      apply hnodes
      rw [Trace.walk, Trace.walkAll_eq_flatMap]
      exact List.mem_cons_of_mem _ (List.mem_flatMap.mpr ⟨sub, hsub, hnode⟩)
    cases hnodes _ List.mem_cons_self with
    | compose _ _ threads =>
      obtain rfl := Value.map.inj hinputs
      exact distinct_threads threads henv fun sub hsub given => ih sub hsub (hsubs sub hsub) given
  | join r subs ih =>
    cases hnodes _ List.mem_cons_self with
    | join _ _ _ updated =>
      have hnil : Mapping.Distinct ([] : Environment) := List.Pairwise.nil
      change Mapping.Distinct (Record.outputs _)
      rw [updated]
      exact Mapping.distinct_merge hnil _

section Merging

variable {results results' : List (Environment × Trace)} (hdistinct : ∀ result ∈ results, Mapping.Distinct result.1)

include hdistinct

theorem get?_mergeOnto (start : Environment) (key : Key) : Mapping.get? (mergeOnto start results) key =
    (results.reverse.findSome? fun result => Mapping.get? result.1 key).or (Mapping.get? start key) := by
  induction results generalizing start with
  | nil => rfl
  | cons result results ih =>
    obtain ⟨hresult, hrest⟩ := List.forall_mem_cons.mp hdistinct
    change Mapping.get? (mergeOnto (Mapping.merge start result.1) results) key = _
    rw [ih hrest, Mapping.get?_merge, Mapping.lookup_reverse hresult, List.reverse_cons, List.findSome?_append,
      Option.or_assoc]
    simp

theorem has_mergeOnto (start : Environment) (key : Key) : Mapping.has (mergeOnto start results) key =
    (results.any (fun result => Mapping.has result.1 key) || Mapping.has start key) := by
  induction results generalizing start with
  | nil => rfl
  | cons result results ih =>
    obtain ⟨hresult, hrest⟩ := List.forall_mem_cons.mp hdistinct
    change Mapping.has (mergeOnto (Mapping.merge start result.1) results) key = _
    rw [ih hrest, Mapping.has_merge start hresult, List.any_cons, Bool.or_assoc, Bool.or_left_comm]

theorem mergeOnto_eq_append (hapart : results.Pairwise fun a b => Mapping.Apart a.1 b.1) {start : Environment}
    (hstart : ∀ result ∈ results, Mapping.Apart start result.1) :
    mergeOnto start results = start ++ results.flatMap (·.1) := by
  induction results generalizing start with
  | nil => exact (List.append_nil start).symm
  | cons result results ih =>
    obtain ⟨hresult, hrest⟩ := List.forall_mem_cons.mp hdistinct
    obtain ⟨hfirst, hothers⟩ := List.forall_mem_cons.mp hstart
    obtain ⟨hnext, hapart⟩ := List.pairwise_cons.mp hapart
    have happend := Mapping.merge_eq_append hresult hfirst
    have hboth : ∀ other ∈ results, Mapping.Apart (start ++ result.1) other.1 := by
      intro other hother key hkey
      rw [Mapping.has_append, Bool.or_eq_true] at hkey
      obtain hkey | hkey := hkey
      · exact hothers other hother key hkey
      · exact hnext other hother key hkey
    rw [List.flatMap_cons, ← List.append_assoc, ← ih hrest hapart hboth, ← happend]
    rfl

theorem mergeOnto_perm (hapart : results.Pairwise fun a b => Mapping.Apart a.1 b.1) (hperm : results.Perm results') :
    (mergeOnto [] results).Perm (mergeOnto [] results') := by
  have hapart' : results'.Pairwise fun a b => Mapping.Apart a.1 b.1 :=
    hperm.pairwise hapart fun h => h.symm
  have hdistinct' : ∀ result ∈ results', Mapping.Distinct result.1 :=
    fun result hresult => hdistinct result (hperm.mem_iff.mpr hresult)
  have hnothing (others : List (Environment × Trace)) : ∀ result ∈ others, Mapping.Apart ([] : Environment) result.1 :=
    fun _ _ _ hkey => nomatch hkey
  rw [mergeOnto_eq_append hdistinct hapart (hnothing _), mergeOnto_eq_append hdistinct' hapart' (hnothing _)]
  exact hperm.flatMap_right _

end Merging

section Joins

variable {service : Service σ} {answer : Request → Except ServiceFailure Value}
  (hservice : ∀ given ∈ engine.service, given = service) (hanswer : ∀ s r, (service.answer s r).1 = answer r)

include hservice hanswer

/-- When calls are answered by their requests alone, the outcome is the same from every state. -/
theorem perform_execute [CharNames] (limit : Nat) (name given : Value) (s : State σ) :
    ((engine.execute limit name given).perform s).1 = (engine.course limit name given).value answer := by
  obtain ⟨asked, hsteps, -⟩ := schedules_execute hservice limit name given s
  exact (hsteps.outcome hanswer).1

end Joins

/-- What a join comes to: its outputs, unless their keys have no order. -/
def joinOutcome (name : String) (given : Value) (outputs : Environment) (traces : List Trace) : Outcome :=
  match outputs.sortedKeys with
  | .ok _ => .ok (outputs, .join ⟨name, given, outputs⟩ traces)
  | .error cause => .error (.failed cause)

theorem joinOutcome_eq_ok {name : String} {given : Value} {outputs : Environment} {traces : List Trace}
    {result : Environment × Trace} : joinOutcome name given outputs traces = .ok result ↔
      outputs.Sortable ∧ result = (outputs, .join ⟨name, given, outputs⟩ traces) := by
  unfold joinOutcome Environment.Sortable
  cases outputs.sortedKeys <;> simp [eq_comm]

theorem collect_map_ok {α : Type} (results : List α) :
    collect (results.map (.ok : α → Except RunError α)) = .ok results := by
  induction results with
  | nil => rfl
  | cons first results ih =>
    rw [List.map_cons, collect_ok, ih]
    rfl

theorem value_reported_join {answer : Request → Except ServiceFailure Value} {c : Course} {name : String} {given : Value}
    {outputs : Environment} {traces : List Trace}
    (h : c.value answer = .ok (outputs, .join ⟨name, given, outputs⟩ traces)) :
    (reported c).value answer = joinOutcome name given outputs traces := by
  rw [reported, value_andThen, h, joinOutcome]
  simp only [proceed, check]
  cases outputs.sortedKeys <;> rfl

theorem value_join [CharNames] {answer : Request → Except ServiceFailure Value} {limit : Nat} {name : String}
    {r : Routine}
    {branches : List String} {given : Value} {result : String → Environment × Trace}
    (hfound : engine.program.find? (.str name) = some r) (hbody : r.body = .join branches)
    (hbranches : ∀ b ∈ branches, (engine.course limit (.str b) given).value answer = .ok (result b)) :
    (engine.course (limit + 1) (.str name) given).value answer =
      joinOutcome name given (mergeOnto [] (branches.map result)) (branches.map fun b => (result b).2) := by
  have hresults : collect (outcomesOf answer (engine.course limit) given branches) = .ok (branches.map result) := by
    rw [← collect_map_ok, List.map_map]
    exact congrArg collect (List.map_congr_left hbranches)
  have htraces : (branches.map result).map (·.2) = branches.map fun b => (result b).2 := List.map_map
  simp only [course, hfound]
  apply value_reported_join
  simp only [bodyCourse, hbody, value_branches, hresults]
  rw [← htraces]
  rfl

theorem execute_same [CharNames] {program : Program} {name : Value} (hsame : ∀ target,
      Relation.ReflTransGen engine.program.Refers name target → engine.program.find? target = program.find? target)
    (limit : Nat) (given : Value) :
    (engine.withProgram program).execute limit name given = engine.execute limit name given := by
  -- as if the name were the main one
  let start := engine.withProgram { engine.program with main := name }
  have hreachable : start.program.Reachable name := Relation.ReflTransGen.refl
  have hother := @execute_withProgram σ start program _ hsame limit name hreachable given
  have hown := @execute_withProgram σ start engine.program _ (fun _ _ => rfl) limit name hreachable given
  exact hother.trans hown.symm

/-- When calls are answered by their requests alone and the branches of a join succeed, the last branch that gives a key
decides on its value, and the join succeeds if the keys of its outputs have an order. Branches that give different keys may
be permuted: where they find the same routines, the permuted join has the same outputs and the same traces, in the order of
its branches, or both fail to order the keys. -/
theorem joins_commute [CharNames] (engine : Engine σ) (service : Service σ)
    (hservice : ∀ given ∈ engine.service, given = service) (answer : Request → Except ServiceFailure Value)
    (hanswer : ∀ s r, (service.answer s r).1 = answer r) (limit : Nat) (name : String) (r : Routine)
    (branches : List String) (hfound : engine.program.find? (.str name) = some r) (hbody : r.body = .join branches)
    (env : Environment) (hdistinct : Mapping.Distinct env) (result : String → Environment × Trace)
    (hsuccess : ∀ b ∈ branches, ∃ s s', (engine.execute limit (.str b) (.map env)).perform s = (.ok (result b), s')) :
    ∃ outputs : Environment,
      (∀ key, Mapping.get? outputs key = branches.reverse.findSome? fun b => Mapping.get? (result b).1 key) ∧
      (∀ key, Mapping.has outputs key = branches.any fun b => Mapping.has (result b).1 key) ∧
      (∀ s, ((engine.execute (limit + 1) (.str name) (.map env)).perform s).1 =
        joinOutcome name (.map env) outputs (branches.map fun b => (result b).2)) ∧
      ((∀ key ∈ Mapping.keys outputs, key.text?.isSome) → outputs.Sortable) ∧
      (branches.Pairwise (fun b c => Mapping.Apart (result b).1 (result c).1) →
        ∀ (branches' : List String) (program : Program) (name' : String) (r' : Routine), branches.Perm branches' →
          program.find? (.str name') = some r' → r'.body = .join branches' →
          (∀ b ∈ branches, ∀ target, Relation.ReflTransGen engine.program.Refers (.str b) target →
            engine.program.find? target = program.find? target) →
          ∃ outputs' : Environment, outputs.Perm outputs' ∧ (outputs.Sortable ↔ outputs'.Sortable) ∧
            ∀ s, (((engine.withProgram program).execute (limit + 1) (.str name') (.map env)).perform s).1 =
              joinOutcome name' (.map env) outputs' (branches'.map fun b => (result b).2)) := by
  have hvalues : ∀ b ∈ branches, (engine.course limit (.str b) (.map env)).value answer = .ok (result b) := by
    intro b hb
    obtain ⟨s, s', h⟩ := hsuccess b hb
    rw [← perform_execute hservice hanswer limit (.str b) (.map env) s, h]
  have hresults : ∀ one ∈ branches.map result, Mapping.Distinct one.1 := by
    intro one hone
    obtain ⟨b, hb, rfl⟩ := List.mem_map.mp hone
    obtain ⟨s, s', h⟩ := hsuccess b hb
    have hderives := execute_derives h
    rw [← hderives.outputs]
    exact distinct_outputs _ hderives.nodes env hderives.inputs hdistinct
  refine ⟨mergeOnto [] (branches.map result), fun key => ?_, fun key => ?_, fun s => ?_, fun htexts => ?_, ?_⟩
  · rw [get?_mergeOnto hresults, ← List.map_reverse, List.findSome?_map]
    exact Option.or_none
  · rw [has_mergeOnto hresults, List.any_map]
    exact Bool.or_false _
  · rw [perform_execute hservice hanswer, value_join hfound hbody hvalues]
  · cases hkeys : Environment.sortedKeys (mergeOnto [] (branches.map result)) with
    | ok keys => exact ⟨keys, hkeys⟩
    | error cause =>
      obtain ⟨key, hkey, hnone⟩ := Environment.exists_key_of_unsorted hkeys
      simpa [hnone] using htexts key hkey
  · intro hapart branches' program name' r' hperm hfound' hbody' hsame
    have hresults' := hperm.map result
    have hpermuted := mergeOnto_perm hresults (List.pairwise_map.mpr hapart) hresults'
    refine ⟨_, hpermuted, Environment.sortedKeys_ok_of_perm hpermuted, fun s => ?_⟩
    have hservice' : ∀ given ∈ (engine.withProgram program).service, given = service := hservice
    rw [perform_execute hservice' hanswer]
    apply value_join hfound' hbody'
    intro b hb
    have hb := hperm.mem_iff.mpr hb
    obtain ⟨s, s', h⟩ := hsuccess b hb
    rw [← perform_execute hservice' hanswer limit (.str b) (.map env) s, execute_same (hsame b hb), h]

def pairing (branches : List String) : Program where
  routines := [
    ("main", ⟨.null, [], .join branches⟩),
    ("ask", ⟨.null, [], .prompt (.str "Be brief.") (.str "On ${topic}") [("line", .str "string")]⟩),
    ("keep", ⟨.null, [], .define [("kept", .reference (.str "topic"))]⟩)]
  main := .str "main"
  doc := .null

def pairingEngine : Engine Nat := ⟨pairing ["ask", "keep"], some repeating, 2⟩

def pairingAsked : Environment := [("line", .str "On tides")]

def pairingKept : Environment := [("kept", .str "tides")]

def pairingResult (name : String) : Environment × Trace :=
  if name = "ask" then (pairingAsked, .prompt ⟨"ask", .map sampleInputs, pairingAsked⟩ (.str "Be brief.") "On tides")
  else (pairingKept, .define ⟨"keep", .map sampleInputs, pairingKept⟩)

theorem reachable_pairing {branches : List String} {name target : Value} (hname : name = .str "ask" ∨ name = .str "keep")
    (h : Relation.ReflTransGen (pairing branches).Refers name target) : target = name := by
  induction h with
  | refl => rfl
  | tail _ hrefers ih =>
    obtain ⟨r, hfound, htarget⟩ := hrefers
    subst ih
    obtain rfl | rfl := hname <;> cases hfound <;> cases htarget

theorem pairing_commutes : ∃ outputs : Environment, (pairingAsked ++ pairingKept).Perm outputs ∧
    ∀ s, (((pairingEngine.withProgram (pairing ["keep", "ask"])).execute 2 (.str "main") (.map sampleInputs)).perform s).1 =
      .ok (outputs, .join ⟨"main", .map sampleInputs, outputs⟩ [(pairingResult "keep").2, (pairingResult "ask").2]) := by
  have hservice : ∀ given ∈ pairingEngine.service, given = repeating := by
    intro given hgiven
    exact (Option.some.inj hgiven).symm
  have hsuccess : ∀ b ∈ ["ask", "keep"], ∃ s s',
      (pairingEngine.execute 1 (.str b) (.map sampleInputs)).perform s = (.ok (pairingResult b), s') := by
    have hask : (pairingEngine.execute 1 (.str "ask") (.map sampleInputs)).perform ⟨0, [], ⟨false, []⟩⟩ =
        (.ok (pairingResult "ask"), ⟨1, [⟨.str "Be brief.", "On tides", [("line", .str "string")]⟩], ⟨false, []⟩⟩) := by
      cbv
    have hkeep : (pairingEngine.execute 1 (.str "keep") (.map sampleInputs)).perform ⟨0, [], ⟨false, []⟩⟩ =
        (.ok (pairingResult "keep"), ⟨0, [], ⟨false, []⟩⟩) := by
      cbv
    exact List.forall_mem_cons.mpr ⟨⟨_, _, hask⟩, List.forall_mem_singleton.mpr ⟨_, _, hkeep⟩⟩
  have hrun : ((pairingEngine.execute 2 (.str "main") (.map sampleInputs)).perform ⟨0, [], ⟨false, []⟩⟩).1 =
      .ok (pairingAsked ++ pairingKept, .join ⟨"main", .map sampleInputs, pairingAsked ++ pairingKept⟩
        [(pairingResult "ask").2, (pairingResult "keep").2]) := by
    cbv
  have hapart : ["ask", "keep"].Pairwise fun b c => Mapping.Apart (pairingResult b).1 (pairingResult c).1 := by
    have hboth : Mapping.Apart pairingAsked pairingKept := Mapping.apart_of_keys (by decide)
    exact .cons (List.forall_mem_singleton.mpr hboth) (List.pairwise_singleton _ _)
  have hsame : ∀ b ∈ ["ask", "keep"], ∀ target, Relation.ReflTransGen pairingEngine.program.Refers (.str b) target →
      pairingEngine.program.find? target = (pairing ["keep", "ask"]).find? target := by
    intro b hb target htarget
    have hname : Value.str b = .str "ask" ∨ Value.str b = .str "keep" := by simpa using hb
    rw [reachable_pairing hname htarget]
    obtain hname | hname := hname <;> rw [hname] <;> rfl
  obtain ⟨outputs, -, -, hjoin, -, hcommutes⟩ := joins_commute pairingEngine repeating hservice repeated
    (fun _ _ => rfl) 1 "main" ⟨.null, [], .join ["ask", "keep"]⟩ ["ask", "keep"] rfl rfl sampleInputs
    (List.pairwise_singleton _ _) pairingResult hsuccess
  obtain ⟨outputs', hperm, hsortable, hpermuted⟩ := hcommutes hapart ["keep", "ask"] (pairing ["keep", "ask"]) "main"
    ⟨.null, [], .join ["keep", "ask"]⟩ (.swap _ _ _) rfl rfl hsame
  rw [hjoin, joinOutcome_eq_ok] at hrun
  obtain ⟨hsorted, hresult⟩ := hrun
  obtain ⟨rfl, -⟩ := Prod.mk.inj hresult
  refine ⟨outputs', hperm, fun s => ?_⟩
  rw [hpermuted, joinOutcome_eq_ok]
  exact ⟨hsortable.mp hsorted, rfl⟩

def crossed (branches : List String) : Engine Unit where
  program := {
    routines := [
      ("main", ⟨.null, [], .join branches⟩),
      ("keep", ⟨.null, [], .compose []⟩),
      ("add", ⟨.null, [], .define [("1", .literal (.str "string") (some (.str "y")) false)]⟩)]
    main := .str "main"
    doc := .null }
  service := none
  workers := 1

def crossedAdded : Environment := [("1", .str "y")]

/-- A join that one of its branches leads back to. -/
def circling (branches : List String) : Engine Unit where
  program := {
    routines := [
      ("main", ⟨.null, [], .join branches⟩),
      ("again", ⟨.null, [], .branch (.str "more") (.str "back") (.str "end")⟩),
      ("back", ⟨.null, [], .compose ["stop", "main", "tell"]⟩),
      ("stop", ⟨.null, [], .define [("more", .literal (.str "boolean") (some (.bool false)) false)]⟩),
      ("end", ⟨.null, [], .define [("ended", .literal (.str "boolean") (some (.bool true)) false)]⟩),
      ("tell", ⟨.null, [], .define [("told", .reference (.str "ended"))]⟩),
      ("mark", ⟨.null, [], .define [("marked", .literal (.str "boolean") (some (.bool true)) false)]⟩)]
    main := .str "main"
    doc := .null }
  service := none
  workers := 1

def walkedNames (t : Trace) : List (List String) :=
  t.children.map fun sub => sub.walk.map fun node => node.record.routine

/-- Branches may succeed with keys that are different, but cannot be ordered with one another. And where a branch leads back
to the join, a permuted join runs other branches. -/
theorem permuted_joins_differ :
    (∃ kept added, ((crossed ["keep", "add"]).execute 1 (.str "keep") (.map numbered)).perform quietStart =
        (.ok (numbered, kept), quietStart) ∧
      ((crossed ["keep", "add"]).execute 1 (.str "add") (.map numbered)).perform quietStart =
        (.ok (crossedAdded, added), quietStart) ∧
      Mapping.Apart numbered crossedAdded) ∧
    (((crossed ["keep", "add"]).execute 2 (.str "main") (.map numbered)).perform quietStart).1 =
      .error (.failed (.unordered "<" .text .integer)) ∧
    (((crossed ["add", "keep"]).execute 2 (.str "main") (.map numbered)).perform quietStart).1 =
      .error (.failed (.unordered "<" .integer .text)) ∧
    (((circling ["again", "mark"]).execute 6 (.str "main") (.map roundsInputs)).perform quietStart).1.map
        (fun result => walkedNames result.2) =
      .ok [["again", "back", "stop", "main", "again", "end", "mark", "tell"], ["mark"]] ∧
    (((circling ["mark", "again"]).execute 6 (.str "main") (.map roundsInputs)).perform quietStart).1.map
        (fun result => walkedNames result.2) =
      .ok [["mark"], ["again", "back", "stop", "main", "mark", "again", "end", "tell"]] := by
  refine ⟨⟨.compose ⟨"keep", .map numbered, numbered⟩ [], .define ⟨"add", .map numbered, crossedAdded⟩, ?_, ?_, ?_⟩,
    ?_, ?_, ?_, ?_⟩
  · cbv
  · cbv
  · exact Mapping.apart_of_keys (by decide)
  all_goals cbv

end Engine

end RoutineFlow
