import RoutineFlow.Json.Reader
import RoutineFlow.Proofs.Document

/-!
Documents have texts for keys, each once in a mapping, at every depth: so they are read, and so look-ups tell all
about them.
-/

namespace RoutineFlow

namespace Mapping

variable {α : Type} {m : Mapping String α} {name : String} {v : α}

theorem keys_mapValues {β : Type} (f : α → β) (m : Mapping String α) : keys (mapValues f m) = keys m := by
  rw [keys, mapValues, List.map_map]
  rfl

theorem mem_of_get? (h : get? m name = some v) : (name, v) ∈ m := by
  obtain ⟨before, after, hm, -⟩ := List.lookup_eq_some_iff.mp h
  rw [hm]
  exact List.mem_append_right _ List.mem_cons_self

theorem get?_of_mem {entry : String × α} (hdistinct : (keys m).Nodup) (h : entry ∈ m) :
    get? m entry.1 = some entry.2 := by
  induction m with
  | nil => cases h
  | cons first m ih =>
    obtain ⟨hfirst, hrest⟩ := List.nodup_cons.mp hdistinct
    rw [get?, List.lookup_cons]
    obtain rfl | h := List.mem_cons.mp h
    · rw [beq_self_eq_true]
    · have hne : entry.1 ≠ first.1 := by
        intro heq
        apply hfirst
        change first.1 ∈ keys m
        rw [← heq]
        exact List.mem_map_of_mem h
      rw [beq_false_of_ne hne]
      exact ih hrest h

theorem get?_eq_none (h : name ∉ keys m) : get? m name = none := by
  apply get?_of_not_has
  rw [has_eq_any, List.any_eq_false]
  intro key hkey
  simp only [beq_iff_eq]
  rintro rfl
  exact h hkey

theorem get?_eq_ite {names : List String} {f : String → Option α} (hnames : keys m = names)
    (h : ∀ entry ∈ m, f entry.1 = some entry.2) : get? m name = if name ∈ names then f name else none := by
  subst hnames
  split
  · rename_i hname
    have hhas : has m name := by
      rw [has_eq_any, List.any_eq_true]
      exact ⟨name, hname, BEq.rfl⟩
    obtain ⟨v, hv⟩ := Option.isSome_iff_exists.mp hhas
    rw [hv, h _ (mem_of_get? hv)]
  · rename_i hname
    exact get?_eq_none hname

end Mapping

namespace Environment

theorem get?_of_field {entries : Environment} {name : String} {v : Value} (h : field entries name = v)
    (hv : v ≠ .null) : Mapping.get? entries name = some v := by
  unfold field at h
  cases hget : Mapping.get? entries name with
  | none => exact absurd (by simpa [hget] using h.symm) hv
  | some w => simpa [hget] using h

theorem get?_ofNamed_of_not_text {key : Key} (h : key.text? = none) (fields : Mapping String Value) :
    Mapping.get? (ofNamed fields) key = none := by
  apply Mapping.get?_of_not_has
  rw [Mapping.has_eq_any, List.any_eq_false]
  intro other hother
  obtain ⟨⟨name, v⟩, hmem, rfl⟩ := List.mem_map.mp hother
  obtain ⟨⟨name', w⟩, -, hname⟩ := List.mem_map.mp hmem
  obtain ⟨rfl, rfl⟩ := Prod.mk.inj hname
  rw [Key.beq_iff]
  cases key with
  | text s => cases h
  | num n => cases n with
    | float x =>
      simp only [Key.identity]
      split <;> simp
    | _ => simp [Key.identity]
  | _ => simp [Key.identity]

theorem rel_ofNamed {R : Value → Value → Prop} {m n : Mapping String Value} :
    (∀ key, Option.Rel R (Mapping.get? (ofNamed m) key) (Mapping.get? (ofNamed n) key)) ↔
      ∀ name, Option.Rel R (Mapping.get? m name) (Mapping.get? n name) := by
  constructor
  · intro h name
    have hname := h (.text name)
    rwa [get?_ofNamed, get?_ofNamed] at hname
  · intro h key
    cases htext : key.text? with
    | none =>
      rw [get?_ofNamed_of_not_text htext, get?_ofNamed_of_not_text htext]
      exact .none
    | some name =>
      obtain rfl : key = .text name := by
        cases key <;> cases htext
        rfl
      rw [get?_ofNamed, get?_ofNamed]
      exact h name

end Environment

namespace Value

/-- Every mapping within the value has texts for keys, each once. -/
inductive Keyed : Value → Prop
  | null : Keyed .null
  | bool (b : Bool) : Keyed (.bool b)
  | num (n : Number) : Keyed (.num n)
  | str (s : String) : Keyed (.str s)
  | list {items : List Value} (hitems : ∀ v ∈ items, Keyed v) : Keyed (.list items)
  | map {fields : Mapping String Value} (hdistinct : (Mapping.keys fields).Nodup)
      (hvalues : ∀ entry ∈ fields, Keyed entry.2) : Keyed (.map (Environment.ofNamed fields))

attribute [simp] Keyed.null Keyed.bool Keyed.num Keyed.str

@[simp] theorem keyed_list {items : List Value} : (Value.list items).Keyed ↔ ∀ v ∈ items, v.Keyed := by
  constructor
  · intro h
    cases h with
    | list hitems => exact hitems
  · exact .list

@[simp] theorem keyed_record {fields : Mapping String Value} :
    (Value.record fields).Keyed ↔ (Mapping.keys fields).Nodup ∧ ∀ entry ∈ fields, entry.2.Keyed := by
  constructor
  · intro h
    rw [record] at h
    generalize hentries : Environment.ofNamed fields = entries at h
    cases h with
    | @map other hdistinct hvalues =>
      have hsame := congrArg Environment.named hentries
      rw [Environment.named_ofNamed, Environment.named_ofNamed] at hsame
      rw [hsame]
      exact ⟨hdistinct, hvalues⟩
  · rintro ⟨hdistinct, hvalues⟩
    exact .map hdistinct hvalues

theorem Keyed.record_named {entries : Environment} (h : Keyed (.map entries)) :
    Value.record (Environment.named entries) = .map entries := by
  cases h with
  | map hdistinct hvalues => rw [Environment.named_ofNamed, Value.record]

theorem Keyed.of_get? {entries : Environment} {name : String} {v : Value} (h : Keyed (.map entries))
    (hget : Mapping.get? entries name = some v) : v.Keyed := by
  cases h with
  | map hdistinct hvalues =>
    rw [Environment.get?_ofNamed] at hget
    exact hvalues _ (Mapping.mem_of_get? hget)

theorem Keyed.of_mem_named {entries : Environment} {entry : String × Value} (h : Keyed (.map entries))
    (hentry : entry ∈ Environment.named entries) : entry.2.Keyed := by
  cases h with
  | map hdistinct hvalues =>
    rw [Environment.named_ofNamed] at hentry
    exact hvalues entry hentry

theorem Keyed.get?_named {entries : Environment} (hkeyed : Keyed (.map entries)) (name : String) :
    Mapping.get? (Environment.named entries) name = Mapping.get? entries name := by
  cases hkeyed with
  | map hdistinct hvalues => rw [Environment.named_ofNamed, Environment.get?_ofNamed]

theorem Keyed.distinct_named {entries : Environment} (hkeyed : Keyed (.map entries)) :
    (Mapping.keys (Environment.named entries)).Nodup := by
  cases hkeyed with
  | map hdistinct hvalues => rwa [Environment.named_ofNamed]

end Value

namespace Json

open Environment (ofNamed)

theorem insert_ofNamed (m : Mapping String Value) (key : String) (v : Value) :
    Mapping.insert (ofNamed m) (.text key) v = ofNamed (Mapping.insert m key v) := by
  induction m with
  | nil => rfl
  | cons entry m ih =>
    obtain ⟨name, w⟩ := entry
    have hcons : ofNamed ((name, w) :: m) = (.text name, w) :: ofNamed m := rfl
    rw [hcons]
    simp only [Mapping.insert, Key.beq_text, ih]
    split <;> rfl

theorem merge_ofNamed (m n : Mapping String Value) :
    Mapping.merge (ofNamed m) (ofNamed n) = ofNamed (Mapping.merge m n) := by
  induction n generalizing m with
  | nil => rfl
  | cons entry n ih =>
    obtain ⟨name, v⟩ := entry
    have hcons : ofNamed ((name, v) :: n) = (.text name, v) :: ofNamed n := rfl
    rw [hcons, Mapping.merge_cons, Mapping.merge_cons, insert_ofNamed, ih]

theorem ofEntries_ofNamed {fields : Mapping String Value} (h : (Mapping.keys fields).Nodup) :
    Mapping.ofEntries (ofNamed fields) = ofNamed fields := by
  have hmerge : Mapping.ofEntries (ofNamed fields) = ofNamed (Mapping.ofEntries fields) :=
    merge_ofNamed [] fields
  have hdistinct : Mapping.Distinct fields := by
    simpa [Mapping.Distinct, List.Nodup] using h
  rw [hmerge, Mapping.ofEntries_eq hdistinct]

theorem values_merge {P : Value → Prop} {m n : Mapping String Value}
    (hm : ∀ entry ∈ m, P entry.2) (hn : ∀ entry ∈ n, P entry.2) :
    ∀ entry ∈ Mapping.merge m n, P entry.2 := by
  intro entry hentry
  rcases Mapping.mem_of_mem_merge hentry with hentry | hentry
  · exact hm entry hentry
  · exact hn entry hentry

theorem keyed_ofEntries {entries : Mapping String Value} (h : ∀ entry ∈ entries, entry.2.Keyed) :
    (Value.map (Mapping.ofEntries (ofNamed entries))).Keyed := by
  have hmerge := merge_ofNamed [] entries
  have hnil : Mapping.Distinct ([] : Mapping String Value) := List.Pairwise.nil
  have hdistinct := Mapping.distinct_merge hnil entries
  rw [Mapping.ofEntries]
  change (Value.map (Mapping.merge (ofNamed []) (ofNamed entries))).Keyed
  rw [hmerge]
  apply Value.Keyed.map
  · simpa [Mapping.Distinct, List.Nodup] using hdistinct
  · exact values_merge (by simp) h

theorem keyed_of_finishNumber {negative : Bool} {whole cs rest : List Char} {v : Value}
    (h : finishNumber negative whole cs = .ok (v, rest)) : v.Keyed := by
  simp only [finishNumber] at h
  split at h
  · split at h
    · cases h
      exact .num _
    · cases h
  · cases h
    exact .num _

theorem keyed_of_readNumber {cs rest : List Char} {v : Value} (h : readNumber cs = .ok (v, rest)) :
    v.Keyed := by
  simp only [readNumber] at h
  split at h
  · exact keyed_of_finishNumber h
  · split at h
    · exact keyed_of_finishNumber h
    · cases h
  · cases h

theorem keyed_of_readWord {cs rest : List Char} {v : Value} (h : readWord? cs = some (v, rest)) :
    v.Keyed := by
  unfold readWord? at h
  split at h <;> cases h
  · exact .null
  · exact .bool _
  · exact .bool _
  · exact .num _
  · exact .num _
  · exact .num _

theorem map_eq_ok {α β : Type} {r : Reading α} {f : α × List Char → β} {b : β} (h : r.map f = .ok b) :
    ∃ a rest, r = .ok (a, rest) ∧ f (a, rest) = b := by
  cases r with
  | error stop => cases h
  | ok read => exact ⟨read.1, read.2, rfl, Except.ok.inj h⟩

/-- What is read is keyed: values, items and entries one by one, with less fuel for what is within. -/
theorem keyed_of_readValue (fuel : Nat) :
    (∀ cs v rest, readValue fuel cs = .ok (v, rest) → v.Keyed) ∧
    (∀ cs items rest, readItems fuel cs = .ok (items, rest) → ∀ v ∈ items, v.Keyed) ∧
    ∀ cs entries rest, readEntries fuel cs = .ok (entries, rest) →
      ∃ fields, entries = ofNamed fields ∧ ∀ entry ∈ fields, entry.2.Keyed := by
  induction fuel with
  | zero =>
    refine ⟨?_, ?_, ?_⟩
    · intro cs v rest h
      simp [readValue, fault] at h
    · intro cs items rest h
      simp [readItems, fault] at h
    · intro cs entries rest h
      simp [readEntries, fault] at h
  | succ fuel ih =>
    obtain ⟨ihvalue, ihitems, ihentries⟩ := ih
    refine ⟨?_, ?_, ?_⟩
    · intro cs v rest h
      simp only [readValue] at h
      split at h
      · obtain ⟨text, _, -, h⟩ := map_eq_ok h
        cases h
        exact .str _
      · split at h
        · cases h
          exact @keyed_ofEntries [] (by simp)
        · obtain ⟨entries, _, hentries, h⟩ := map_eq_ok h
          cases h
          obtain ⟨fields, rfl, hfields⟩ := ihentries _ _ _ hentries
          exact keyed_ofEntries hfields
      · split at h
        · cases h
          exact .list (by simp)
        · obtain ⟨items, _, hitems, h⟩ := map_eq_ok h
          cases h
          exact .list (ihitems _ _ _ hitems)
      · split at h
        · rename_i read hread
          cases h
          exact keyed_of_readWord hread
        · exact keyed_of_readNumber h
    · intro cs items rest h
      simp only [readItems] at h
      split at h
      · cases h
      · rename_i v _ hvalue
        have hv := ihvalue _ _ _ hvalue
        split at h
        · cases h
          simpa using hv
        · obtain ⟨others, _, hothers, h⟩ := map_eq_ok h
          cases h
          rw [List.forall_mem_cons]
          exact ⟨hv, ihitems _ _ _ hothers⟩
        · cases h
    · intro cs entries rest h
      simp only [readEntries] at h
      split at h
      · cases h
      · rename_i key _ _
        split at h
        · cases h
        · rename_i v _ hvalue
          have hv := ihvalue _ _ _ hvalue
          split at h
          · cases h
            exact ⟨[(key, v)], rfl, by simpa using hv⟩
          · obtain ⟨others, _, hothers, h⟩ := map_eq_ok h
            cases h
            obtain ⟨fields, rfl, hfields⟩ := ihentries _ _ _ hothers
            refine ⟨(key, v) :: fields, rfl, ?_⟩
            rw [List.forall_mem_cons]
            exact ⟨hv, hfields⟩
          · cases h

theorem keyed_of_read {text : String} {v : Value} (h : read text = .ok v) : v.Keyed := by
  simp only [read] at h
  split at h
  · rename_i document hread
    cases h
    unfold readDocument at hread
    split at hread
    · cases hread
    · split at hread
      · cases hread
      · rename_i hvalue
        split at hread
        · cases hread
          exact (keyed_of_readValue _).1 _ _ _ hvalue
        · cases hread
  · cases h
  · cases h

end Json

end RoutineFlow
