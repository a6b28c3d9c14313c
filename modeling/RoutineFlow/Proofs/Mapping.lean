import Mathlib
import RoutineFlow.Key
import RoutineFlow.Mapping

namespace RoutineFlow

namespace Key

theorem beq_iff (a b : Key) : a == b ↔ a.identity = b.identity := by
  change (a.identity == b.identity) = true ↔ _
  exact beq_iff_eq

instance : EquivBEq Key where
  rfl := by simp [beq_iff]
  symm := by
    intro a b h
    rw [beq_iff] at *
    exact h.symm
  trans := by
    intro a b c hab hbc
    rw [beq_iff] at *
    exact hab.trans hbc

end Key

namespace Mapping

variable {κ α : Type} [BEq κ]

def Distinct (m : Mapping κ α) : Prop :=
  (keys m).Pairwise fun a b => (a == b) = false

theorem has_cons (k j : κ) (v : α) (m : Mapping κ α) :
    has ((k, v) :: m) j = (j == k || has m j) := by
  simp only [has, get?, List.lookup_cons]
  cases j == k <;> simp

theorem merge_cons (m n : Mapping κ α) (k : κ) (v : α) :
    merge m ((k, v) :: n) = merge (insert m k v) n := rfl

theorem merge_append (m n o : Mapping κ α) : merge m (n ++ o) = merge (merge m n) o := by
  simp only [merge, List.foldl_append]

theorem get?_of_not_has {m : Mapping κ α} {k : κ} (h : has m k = false) : get? m k = none := by
  simpa [has] using h

theorem get?_mapValues {β : Type} (f : α → β) (m : Mapping κ α) (k : κ) :
    get? (mapValues f m) k = (get? m k).map f := by
  induction m with
  | nil => rfl
  | cons entry m ih =>
    obtain ⟨j, v⟩ := entry
    simp only [get?, mapValues, List.map_cons, List.lookup_cons] at ih ⊢
    cases k == j with
    | true => rfl
    | false => exact ih

theorem mapValues_insert {β : Type} (f : α → β) (m : Mapping κ α) (k : κ) (v : α) :
    mapValues f (insert m k v) = insert (mapValues f m) k (f v) := by
  induction m with
  | nil => rfl
  | cons first m ih =>
    simp only [mapValues] at ih
    simp only [insert, mapValues, List.map_cons]
    split
    · rfl
    · rw [List.map_cons, ih]

theorem mapValues_merge {β : Type} (f : α → β) (m n : Mapping κ α) :
    mapValues f (merge m n) = merge (mapValues f m) (mapValues f n) := by
  induction n generalizing m with
  | nil => rfl
  | cons entry n ih =>
    obtain ⟨k, v⟩ := entry
    have hcons : mapValues f ((k, v) :: n) = (k, f v) :: mapValues f n := rfl
    rw [hcons, merge_cons, merge_cons, ih, mapValues_insert]

theorem mem_of_mem_insert [LawfulBEq κ] {m : Mapping κ α} {entry : κ × α} {k : κ} {v : α}
    (h : entry ∈ insert m k v) : entry ∈ m ∨ entry = (k, v) := by
  induction m with
  | nil => exact .inr (List.mem_singleton.mp h)
  | cons first m ih =>
    obtain ⟨j, w⟩ := first
    rw [insert] at h
    split at h
    · rename_i hj
      rw [eq_of_beq hj] at h
      rcases List.mem_cons.mp h with h | h
      · exact .inr h
      · exact .inl (List.mem_cons_of_mem _ h)
    · rcases List.mem_cons.mp h with h | h
      · exact .inl (List.mem_cons.mpr (.inl h))
      · rcases ih h with h | h
        · exact .inl (List.mem_cons_of_mem _ h)
        · exact .inr h

theorem mem_of_mem_merge [LawfulBEq κ] {m n : Mapping κ α} {entry : κ × α}
    (h : entry ∈ merge m n) : entry ∈ m ∨ entry ∈ n := by
  induction n generalizing m with
  | nil => exact .inl h
  | cons other n ih =>
    rcases ih h with h | h
    · rcases mem_of_mem_insert h with h | h
      · exact .inl h
      · exact .inr (List.mem_cons.mpr (.inl h))
    · exact .inr (List.mem_cons_of_mem _ h)

variable [EquivBEq κ]

theorem has_eq_any (m : Mapping κ α) (k : κ) : has m k = (keys m).any (· == k) := by
  induction m with
  | nil => rfl
  | cons entry m ih =>
    rw [has_cons, ih, BEq.comm]
    rfl

theorem has_congr {k j : κ} (h : k == j) (m : Mapping κ α) : has m k = has m j := by
  rw [has_eq_any, has_eq_any]
  congr 1
  funext i
  exact BEq.congr_right h

theorem get?_insert (m : Mapping κ α) (k j : κ) (v : α) :
    get? (insert m k v) j = if j == k then some v else get? m j := by
  induction m with
  | nil =>
    simp only [insert, get?, List.lookup_cons, List.lookup_nil]
    cases j == k <;> simp
  | cons entry m ih =>
    obtain ⟨i, w⟩ := entry
    by_cases hi : i == k
    · have hji : (j == i) = (j == k) := BEq.congr_right hi
      simp only [insert, hi, ↓reduceIte, get?, List.lookup_cons, hji]
      cases j == k <;> simp
    · simp only [get?] at ih
      simp only [insert, hi, get?, List.lookup_cons, Bool.false_eq_true, ↓reduceIte]
      by_cases hj : j == i
      · have hjk : (j == k) = false := by
          rw [BEq.congr_left hj]
          simpa using hi
        simp [hj, hjk]
      · simp [hj, ih]

theorem keys_insert (m : Mapping κ α) (k : κ) (v : α) :
    keys (insert m k v) = if has m k then keys m else keys m ++ [k] := by
  induction m with
  | nil => rfl
  | cons entry m ih =>
    obtain ⟨i, w⟩ := entry
    rw [has_cons]
    by_cases hi : i == k
    · simp [insert, hi, BEq.symm hi, keys]
    · have hki : (k == i) = false := by
        rw [BEq.comm]
        simpa using hi
      simp only [keys] at ih
      simp only [insert, hi, hki, Bool.false_eq_true, ↓reduceIte, keys, List.map_cons, Bool.false_or, ih]
      split <;> simp

theorem has_insert (m : Mapping κ α) (k j : κ) (v : α) :
    has (insert m k v) j = (j == k || has m j) := by
  simp only [has, get?_insert]
  cases j == k <;> simp

theorem distinct_insert {m : Mapping κ α} (h : Distinct m) (k : κ) (v : α) :
    Distinct (insert m k v) := by
  rw [Distinct, keys_insert]
  by_cases hk : has m k
  · simp only [hk, ↓reduceIte]
    exact h
  · simp only [hk, Bool.false_eq_true, ↓reduceIte]
    rw [has_eq_any] at hk
    apply List.pairwise_append.mpr
    refine ⟨h, List.pairwise_singleton _ _, ?_⟩
    simpa using hk

theorem distinct_merge {m : Mapping κ α} (h : Distinct m) (n : Mapping κ α) :
    Distinct (merge m n) := by
  induction n generalizing m with
  | nil => exact h
  | cons entry n ih => exact ih (distinct_insert h entry.1 entry.2)

/-- The second mapping wins, and its last entry where it gives a key more than once. -/
theorem get?_merge (m n : Mapping κ α) (k : κ) :
    get? (merge m n) k = (n.reverse.lookup k).or (get? m k) := by
  induction n generalizing m with
  | nil => simp [merge]
  | cons entry n ih =>
    obtain ⟨j, v⟩ := entry
    rw [merge_cons, ih, get?_insert, List.reverse_cons, List.lookup_append, Option.or_assoc]
    simp only [List.lookup_cons, List.lookup_nil]
    cases k == j <;> simp

/-- Known keys keep their places and their spellings; new ones follow in the order of their first entries. -/
theorem keys_merge (m n : Mapping κ α) :
    keys (merge m n) = keys m ++ ((keys n).filter fun k => !has m k).eraseDups := by
  induction n generalizing m with
  | nil => simp [merge, keys]
  | cons entry n ih =>
    obtain ⟨j, v⟩ := entry
    have hcons : keys ((j, v) :: n) = j :: keys n := rfl
    rw [merge_cons, ih, keys_insert, hcons]
    by_cases hj : has m j
    · have hsame : (fun k => !has (insert m j v) k) = fun k => !has m k := by
        funext k
        by_cases hkj : k == j
        · simp [has_insert, has_congr hkj, hj]
        · simp [has_insert, hkj]
      simp [hj, hsame]
    · have hnew : (fun k => !has (insert m j v) k) = fun k => !k == j && !has m k := by
        funext k
        rw [has_insert, Bool.not_or]
      simp only [hj, hnew, Bool.false_eq_true, ↓reduceIte, Bool.not_false, List.filter_cons_of_pos,
        List.eraseDups_cons, List.filter_filter, List.append_assoc, List.singleton_append]

theorem not_has_of_forall {m : Mapping κ α} {j k : κ} (hjk : j == k)
    (h : ∀ i ∈ keys m, (k == i) = false) : has m j = false := by
  rw [has_congr hjk, has_eq_any, List.any_eq_false]
  intro i hi
  rw [BEq.comm, h i hi]
  exact Bool.false_ne_true

theorem keys_ofEntries (entries : List (κ × α)) : keys (ofEntries entries) = (keys entries).eraseDups := by
  have hall : ((keys entries).filter fun k => !has ([] : Mapping κ α) k) = keys entries :=
    List.filter_eq_self.mpr fun _ _ => rfl
  rw [ofEntries, keys_merge, hall]
  rfl

theorem get?_ofEntries (entries : List (κ × α)) (k : κ) :
    get? (ofEntries entries) k = entries.reverse.lookup k := by
  rw [ofEntries, get?_merge]
  exact Option.or_none

theorem ext {m n : Mapping κ α} (hm : Distinct m) (hkeys : keys m = keys n)
    (hget : ∀ k, get? m k = get? n k) : m = n := by
  induction m generalizing n with
  | nil =>
    cases n with
    | nil => rfl
    | cons entry n => simp [keys] at hkeys
  | cons entry m ih =>
    cases n with
    | nil => simp [keys] at hkeys
    | cons other n =>
      obtain ⟨k, v⟩ := entry
      obtain ⟨k', w⟩ := other
      simp only [keys, List.map_cons, List.cons.injEq] at hkeys
      obtain ⟨rfl, htail⟩ := hkeys
      obtain ⟨hk, hrest⟩ := List.pairwise_cons.mp hm
      have hv : v = w := by simpa [get?, List.lookup_cons] using hget k
      have hmn : m = n := by
        apply ih hrest htail
        intro j
        by_cases hj : j == k
        · have hk' : ∀ i ∈ keys n, (k == i) = false := by
            rw [keys, ← htail]
            exact hk
          rw [get?_of_not_has (not_has_of_forall hj hk), get?_of_not_has (not_has_of_forall hj hk')]
        · simpa [get?, List.lookup_cons, hj] using hget j
      rw [hv, hmn]

theorem lookup_reverse {m : Mapping κ α} (h : Distinct m) (k : κ) :
    m.reverse.lookup k = get? m k := by
  induction m with
  | nil => rfl
  | cons entry m ih =>
    obtain ⟨j, v⟩ := entry
    obtain ⟨hj, hrest⟩ := List.pairwise_cons.mp h
    rw [List.reverse_cons, List.lookup_append, ih hrest]
    by_cases hkj : k == j
    · rw [get?_of_not_has (not_has_of_forall hkj hj)]
      simp [get?, List.lookup_cons, hkj]
    · simp [get?, List.lookup_cons, hkj]

theorem eraseDups_of_pairwise {ks : List κ} (h : ks.Pairwise fun a b => (a == b) = false) :
    ks.eraseDups = ks := by
  induction ks with
  | nil => rfl
  | cons k ks ih =>
    obtain ⟨hk, hrest⟩ := List.pairwise_cons.mp h
    have hkeep : (ks.filter fun j => !j == k) = ks := by
      apply List.filter_eq_self.mpr
      intro j hj
      rw [BEq.comm, hk j hj]
      rfl
    rw [List.eraseDups_cons, hkeep, ih hrest]

theorem ofEntries_eq {m : Mapping κ α} (h : Distinct m) : ofEntries m = m := by
  symm
  apply ext h
  · rw [keys_ofEntries, eraseDups_of_pairwise h]
  · intro k
    rw [get?_ofEntries, lookup_reverse h]

theorem merge_merge {m : Mapping κ α} (h : Distinct m) (n : Mapping κ α) :
    merge m (merge m n) = merge m n := by
  have hmn := distinct_merge h n
  apply ext (distinct_merge h _)
  · obtain ⟨added, hadded⟩ : ∃ added, keys (merge m n) = keys m ++ added := ⟨_, keys_merge m n⟩
    rw [Distinct, hadded] at hmn
    obtain ⟨-, hpair, hcross⟩ := List.pairwise_append.mp hmn
    have hknown : ((keys m).filter fun k => !has m k) = [] := by
      simp only [List.filter_eq_nil_iff, has_eq_any, Bool.not_eq_true', Bool.not_eq_false,
        List.any_eq_true]
      exact fun k hk => ⟨k, hk, BEq.rfl⟩
    have hnew : (added.filter fun k => !has m k) = added := by
      simp only [List.filter_eq_self, has_eq_any, Bool.not_eq_true', List.any_eq_false,
        Bool.not_eq_true]
      exact fun k hk j hj => hcross j hj k hk
    rw [keys_merge, hadded, List.filter_append, hknown, hnew, List.nil_append,
      eraseDups_of_pairwise hpair]
  · intro k
    rw [get?_merge, lookup_reverse hmn, get?_merge, Option.or_assoc, Option.or_self]

theorem has_merge (m : Mapping κ α) {n : Mapping κ α} (hn : Distinct n) (k : κ) :
    has (merge m n) k = (has n k || has m k) := by
  rw [has, get?_merge, lookup_reverse hn, Option.isSome_or]
  rfl

theorem keys_merge_of_distinct (m : Mapping κ α) {n : Mapping κ α} (hn : Distinct n) :
    keys (merge m n) = keys m ++ (keys n).filter fun k => !has m k := by
  rw [keys_merge, eraseDups_of_pairwise (hn.filter _)]

theorem merge_insert {m n : Mapping κ α} (hm : Distinct m) (hn : Distinct n) (k : κ) (v : α) :
    merge m (insert n k v) = insert (merge m n) k v := by
  have hinsert := distinct_insert hn k v
  apply ext (distinct_merge hm _)
  · rw [keys_merge_of_distinct m hinsert, keys_insert, keys_insert, has_merge m hn, keys_merge_of_distinct m hn]
    cases has n k with
    | true => rfl
    | false => cases hk : has m k <;> simp [hk]
  · intro j
    rw [get?_merge, lookup_reverse hinsert, get?_insert, get?_insert, get?_merge, lookup_reverse hn]
    cases j == k <;> rfl

theorem merge_assoc {m n : Mapping κ α} (hm : Distinct m) (hn : Distinct n) (o : Mapping κ α) :
    merge m (merge n o) = merge (merge m n) o := by
  induction o generalizing n with
  | nil => rfl
  | cons entry o ih =>
    obtain ⟨k, v⟩ := entry
    rw [merge_cons, merge_cons, ih (distinct_insert hn k v), merge_insert hm hn]

end Mapping

end RoutineFlow
