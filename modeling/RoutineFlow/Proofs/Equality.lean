import RoutineFlow.Expr.Code
import RoutineFlow.Proofs.Amounts
import RoutineFlow.Proofs.Finiteness
import RoutineFlow.Proofs.Rereading

/-!
When values are equal. Strict equality tells booleans from numbers when it compares them itself, but within lists and
mappings booleans still count as zero and one.
-/

namespace RoutineFlow

section Option

variable {α : Type} {R : α → α → Prop} {a : α} {o o' : Option α}

theorem isSome_of_rel (h : Option.Rel R o o') : o.isSome = o'.isSome := by
  cases h <;> rfl

theorem exists_of_rel (h : Option.Rel R (some a) o) : ∃ b, o = some b ∧ R a b := by
  cases h with
  | some h => exact ⟨_, rfl, h⟩

theorem rel_mono {S : α → α → Prop} (hmono : ∀ a, o = some a → ∀ b, R a b → S a b) (h : Option.Rel R o o') :
    Option.Rel S o o' := by
  cases h with
  | some h => exact .some (hmono _ rfl _ h)
  | none => exact .none

end Option

namespace Mapping

variable {α : Type} {m n : Mapping String α}

theorem mem_keys_iff {name : String} : name ∈ keys m ↔ (get? m name).isSome = true := by
  rw [← has, has_eq_any, List.any_eq_true]
  simp

/-- Mappings have related values under the same keys when they have as many entries and those of one find a related
value in the other. -/
theorem rel_iff {R : α → α → Prop} (hm : (keys m).Nodup) (hn : (keys n).Nodup) :
    (∀ name, Option.Rel R (get? m name) (get? n name)) ↔
      m.length = n.length ∧ ∀ entry ∈ m, ∃ w, get? n entry.1 = some w ∧ R entry.2 w := by
  constructor
  · intro h
    have hkeys (name : String) : name ∈ keys m ↔ name ∈ keys n := by
      rw [mem_keys_iff, mem_keys_iff, isSome_of_rel (h name)]
    have hperm := (List.perm_ext_iff_of_nodup hm hn).mpr hkeys
    refine ⟨by simpa [keys] using hperm.length_eq, fun entry hentry => ?_⟩
    have hrel := h entry.1
    rw [get?_of_mem hm hentry] at hrel
    exact exists_of_rel hrel
  · rintro ⟨hlength, h⟩ name
    have hkeys : keys m ⊆ keys n := by
      intro name hname
      obtain ⟨entry, hentry, rfl⟩ := List.mem_map.mp hname
      obtain ⟨w, hw, -⟩ := h entry hentry
      rw [mem_keys_iff, hw]
      rfl
    have hperm : (keys m).Perm (keys n) := by
      apply (hm.subperm hkeys).perm_of_length_le
      simp [keys, hlength]
    cases hv : get? m name with
    | some v =>
      obtain ⟨w, hw, hrel⟩ := h _ (mem_of_get? hv)
      rw [hw]
      exact .some hrel
    | none =>
      have hnone : name ∉ keys n := by
        rw [← hperm.mem_iff, mem_keys_iff, hv]
        simp
      rw [get?_eq_none hnone]
      exact .none

end Mapping

namespace Value

/-- The amount that a value is compared by; booleans have one if they are counted. -/
def amount? (counted : Bool) : Value → Option Amount
  | .bool b => if counted then (Number.int (if b then 1 else 0)).amount? else none
  | .num n => n.amount?
  | _ => none

/-- Two values say the same, in whatever order mappings hold their keys. -/
inductive Same (counted : Bool) : Value → Value → Prop
  | null : Same counted .null .null
  | bool (b : Bool) : Same counted (.bool b) (.bool b)
  | amount {v w : Value} {a : Amount} (hv : v.amount? counted = some a) (hw : w.amount? counted = some a) :
      Same counted v w
  | str (s : String) : Same counted (.str s) (.str s)
  | list {xs ys : List Value} (h : List.Forall₂ (Same counted) xs ys) : Same counted (.list xs) (.list ys)
  | map {m n : Environment} (h : ∀ key, Option.Rel (Same counted) (Mapping.get? m key) (Mapping.get? n key)) :
      Same counted (.map m) (.map n)

/-- No number within the value is none. -/
def Numeric (v : Value) : Prop :=
  v.Over fun n => n.isNaN = false

variable {v w : Value}

theorem coincide_of_numeric (h : v.Numeric) : coincide v w = false := by
  unfold coincide
  split
  · rename_i m n
    rw [Numeric, over_num] at h
    cases m with
    | int i => rfl
    | float x => cases n <;> simp [Number.coincides, h]
    | unknown mark => cases h
  · rfl

theorem equalItems_iff {xs ys : List Value} :
    equalItems xs ys = true ↔ List.Forall₂ (fun x y => coincide x y = true ∨ equal x y = true) xs ys := by
  induction xs generalizing ys with
  | nil => cases ys <;> simp [equalItems]
  | cons x xs ih => cases ys <;> simp [equalItems, ih]

theorem equalEntries_iff {m n : Environment} :
    equalEntries m n = true ↔
      ∀ entry ∈ m, ∃ y, Mapping.get? n entry.1 = some y ∧ (coincide entry.2 y = true ∨ equal entry.2 y = true) := by
  induction m with
  | nil => simp [equalEntries]
  | cons entry m ih =>
    obtain ⟨key, x⟩ := entry
    rw [equalEntries, Bool.and_eq_true, ih, List.forall_mem_cons]
    apply and_congr_left'
    cases Mapping.get? n key <;> simp

theorem amount?_true (v : Value) : v.amount? true = v.number?.bind Number.amount? := by
  cases v <;> rfl

theorem scalarEqual_iff (hlists : ∀ xs ys, v = .list xs → w ≠ .list ys) (hmaps : ∀ m n, v = .map m → w ≠ .map n) :
    scalarEqual v w = true ↔ Same true v w := by
  unfold scalarEqual
  split
  · rename_i m n hm hn
    rw [beq_iff_eq, Number.compare?_eq_iff]
    constructor
    · rintro ⟨a, hma, hna⟩
      apply Same.amount (a := a)
      · rw [amount?_true, hm]
        exact hma
      · rw [amount?_true, hn]
        exact hna
    · intro h
      cases h with
      | bool b =>
        obtain rfl := Option.some.inj (hm.symm.trans hn)
        cases hm
        exact ⟨_, rfl, rfl⟩
      | amount hv hw =>
        rw [amount?_true, hm] at hv
        rw [amount?_true, hn] at hw
        exact ⟨_, hv, hw⟩
      | _ => cases hm
  · rename_i hnone
    constructor
    · intro h
      split at h
      · exact .null
      · obtain rfl := eq_of_beq h
        exact .str _
      · cases h
    · intro h
      cases h with
      | null => rfl
      | bool b => exact absurd rfl (hnone _ _ rfl)
      | amount hv hw =>
        rw [amount?_true] at hv hw
        obtain ⟨m, hm, -⟩ := Option.bind_eq_some_iff.mp hv
        obtain ⟨n, hn, -⟩ := Option.bind_eq_some_iff.mp hw
        exact absurd hn (hnone _ _ hm)
      | str s => exact beq_self_eq_true s
      | list h => exact absurd rfl (hlists _ _ rfl)
      | map h => exact absurd rfl (hmaps _ _ rfl)

theorem equal_eq_scalarEqual (hlists : ∀ xs ys, v = .list xs → w ≠ .list ys)
    (hmaps : ∀ m n, v = .map m → w ≠ .map n) : equal v w = scalarEqual v w := by
  unfold equal
  split
  · exact absurd rfl (hlists _ _ rfl)
  · exact absurd rfl (hmaps _ _ rfl)
  · rfl

theorem same_list_iff {counted : Bool} {xs ys : List Value} :
    Same counted (.list xs) (.list ys) ↔ List.Forall₂ (Same counted) xs ys := by
  constructor
  · intro h
    cases h with
    | amount hv hw => cases hv
    | list h => exact h
  · exact .list

theorem same_map_iff {counted : Bool} {m n : Environment} :
    Same counted (.map m) (.map n) ↔
      ∀ key, Option.Rel (Same counted) (Mapping.get? m key) (Mapping.get? n key) := by
  constructor
  · intro h
    cases h with
    | amount hv hw => cases hv
    | map h => exact h
  · exact .map

theorem equal_list_iff {xs ys : List Value}
    (h : ∀ x ∈ xs, ∀ y ∈ ys, coincide x y = true ∨ equal x y = true ↔ Same true x y) :
    equal (.list xs) (.list ys) = true ↔ Same true (.list xs) (.list ys) := by
  rw [equal, equalItems_iff, same_list_iff, List.forall₂_iff_get, List.forall₂_iff_get]
  exact and_congr_right fun hlength => forall₃_congr fun i hx hy => h _ (List.get_mem ..) _ (List.get_mem ..)

theorem equal_record_iff {fields fields' : Mapping String Value} (hdistinct : (Mapping.keys fields).Nodup)
    (hdistinct' : (Mapping.keys fields').Nodup)
    (h : ∀ x ∈ fields, ∀ y ∈ fields', coincide x.2 y.2 = true ∨ equal x.2 y.2 = true ↔ Same true x.2 y.2) :
    equal (.record fields) (.record fields') = true ↔ Same true (.record fields) (.record fields') := by
  have hentries : equalEntries (Environment.ofNamed fields) (Environment.ofNamed fields') = true ↔
      ∀ x ∈ fields, ∃ w, Mapping.get? fields' x.1 = some w ∧ Same true x.2 w := by
    rw [equalEntries_iff, Environment.ofNamed, List.forall_mem_map]
    refine forall₂_congr fun x hx => exists_congr fun w => ?_
    rw [Environment.get?_ofNamed]
    exact and_congr_right fun hw => h x hx _ (Mapping.mem_of_get? hw)
  rw [record, record, equal, same_map_iff, Environment.rel_ofNamed, Mapping.rel_iff hdistinct hdistinct',
    Bool.and_eq_true, beq_iff_eq, hentries, Environment.ofNamed, Environment.ofNamed, List.length_map, List.length_map]

/-- Equal are the values that say the same when booleans count as numbers. -/
theorem equal_iff (hv : v.Keyed) (hw : w.Keyed) (hv' : v.Numeric) (hw' : w.Numeric) :
    equal v w = true ↔ Same true v w := by
  induction v using Value.induct generalizing w with
  | list xs ih =>
    cases w with
    | list ys =>
      apply equal_list_iff
      intro x hx y hy
      simp only [Numeric, over_list, keyed_list] at hv hw hv' hw'
      rw [coincide_of_numeric (hv' x hx), ← ih x hx (hv x hx) (hw y hy) (hv' x hx) (hw' y hy)]
      simp
    | _ => rw [equal_eq_scalarEqual (by simp) (by simp), scalarEqual_iff (by simp) (by simp)]
  | map m ih =>
    cases w with
    | map n =>
      cases hv with
      | @map fields hdistinct hvalues =>
      cases hw with
      | @map fields' hdistinct' hvalues' =>
      rw [← record] at hv' hw'
      simp only [Numeric, over_record] at hv' hw'
      apply equal_record_iff hdistinct hdistinct'
      intro x hx y hy
      have hequal := ih _ (List.mem_map_of_mem hx) (hvalues x hx) (hvalues' y hy) (hv' x hx) (hw' y hy)
      rw [coincide_of_numeric (hv' x hx), ← hequal]
      simp
    | _ => rw [equal_eq_scalarEqual (by simp) (by simp), scalarEqual_iff (by simp) (by simp)]
  | _ => rw [equal_eq_scalarEqual (by simp) (by simp), scalarEqual_iff (by simp) (by simp)]

theorem strictEqual_iff : strictEqual v w = true ↔ equal v w = true ∧ (v.kind = .boolean ↔ w.kind = .boolean) := by
  have hnumber (n : Number) : n.kind ≠ .boolean := by cases n <;> nofun
  cases v with
  | bool a =>
    cases w with
    | bool b => cases a <;> cases b <;> simp [strictEqual, kind] <;> rfl
    | _ => simp [strictEqual, kind, hnumber]
  | _ => cases w <;> simp [strictEqual, kind, hnumber]

theorem amount?_counted {a : Amount} (h : v.amount? false = some a) :
    v.amount? true = some a ∧ v.kind ≠ .boolean := by
  cases v with
  | num n => exact ⟨h, by cases n <;> nofun⟩
  | _ => cases h

theorem Same.kind_iff (h : Same false v w) : v.kind = .boolean ↔ w.kind = .boolean := by
  cases h with
  | amount hv hw => exact iff_of_false (amount?_counted hv).2 (amount?_counted hw).2
  | _ => simp [kind]

theorem Same.counted (h : Same false v w) : Same true v w := by
  induction v using Value.induct generalizing w with
  | list xs ih =>
    cases h with
    | amount hv hw => cases hv
    | list h =>
      rw [List.forall₂_iff_get] at h
      obtain ⟨hlength, h⟩ := h
      exact .list (List.forall₂_iff_get.mpr ⟨hlength, fun i hx hy => ih _ (List.get_mem ..) (h i hx hy)⟩)
  | map m ih =>
    cases h with
    | amount hv hw => cases hv
    | map h =>
      have hentries : Mapping.Each (fun _ => True) (fun v => ∀ {w}, Same false v w → Same true v w) m :=
        fun entry hentry => ⟨trivial, ih entry hentry⟩
      exact .map fun key => rel_mono (fun x hx _ hsame => hentries.of_get? hx hsame) (h key)
  | _ =>
    cases h with
    | amount hv hw => exact .amount (amount?_counted hv).1 (amount?_counted hw).1
    | _ => first | exact .null | exact .bool _ | exact .str _

end Value

namespace Expr

open Value

variable {bindings : Environment} {left right : Expr} {v w : Value}

/-- Strict equality compares values as `==` does, except that neither of them may be a boolean alone. -/
theorem strict_equality (hleft : eval bindings left = .ok v) (hright : eval bindings right = .ok w)
    (hv : v.Keyed) (hw : w.Keyed) (hv' : v.Numeric) (hw' : w.Numeric) :
    ∃ b, eval bindings (.binary .strictEqual left right) = .ok (.bool b) ∧
      eval bindings (.binary .strictNotEqual left right) = .ok (.bool !b) ∧
      (b = true ↔ Same true v w ∧ (v.kind = .boolean ↔ w.kind = .boolean)) ∧ (Same false v w → b = true) := by
  have hstrict : strictEqual v w = true ↔ Same true v w ∧ (v.kind = .boolean ↔ w.kind = .boolean) := by
    rw [strictEqual_iff, equal_iff hv hw hv' hw']
  refine ⟨strictEqual v w, ?_, ?_, hstrict, ?_⟩
  · rw [eval, hleft, hright]
    rfl
  · rw [eval, hleft, hright]
    rfl
  · intro h
    exact hstrict.mpr ⟨h.counted, h.kind_iff⟩

def ordered : Value := .record [("x", .int 1), ("y", .list [.bool true])]

def reordered : Value := .record [("y", .list [.bool true]), ("x", .int 1)]

theorem order_of_keys_ignored :
    let bindings : Environment := [("a", ordered), ("b", reordered)]
    eval bindings (.name "a") = .ok ordered ∧ eval bindings (.name "b") = .ok reordered ∧ ordered.Keyed ∧
      reordered.Keyed ∧ ordered.Numeric ∧ reordered.Numeric ∧
      ∃ b, eval bindings (.binary .strictEqual (.name "a") (.name "b")) = .ok (.bool b) ∧
        eval bindings (.binary .strictNotEqual (.name "a") (.name "b")) = .ok (.bool !b) ∧
        (b = true ↔ Same true ordered reordered ∧ (ordered.kind = .boolean ↔ reordered.kind = .boolean)) ∧
        (Same false ordered reordered → b = true) := by
  have hv : ordered.Keyed := by simp [ordered, Mapping.keys, int]
  have hw : reordered.Keyed := by simp [reordered, Mapping.keys, int]
  have hv' : ordered.Numeric := by simp [ordered, Numeric, int, Number.isNaN]
  have hw' : reordered.Numeric := by simp [reordered, Numeric, int, Number.isNaN]
  exact ⟨rfl, rfl, hv, hw, hv', hw', strict_equality rfl rfl hv hw hv' hw'⟩

theorem nested_boolean_equals_one :
    evaluate "[true] === [1]" .null = .ok (.bool true) ∧ ¬ Same false (.list [.bool true]) (.list [.int 1]) := by
  constructor
  · have hparse : parse "[true] === [1]" =
        .ok (.binary .strictEqual (.list [.boolean true]) (.list [.numeral (.int 1)])) := by cbv
    rw [evaluate, hparse]
    rfl
  · rw [same_list_iff, List.forall₂_cons]
    rintro ⟨h, -⟩
    cases h with
    | amount hv hw => cases hv

end Expr

end RoutineFlow
