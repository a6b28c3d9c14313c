import Mathlib
import RoutineFlow.Proofs.Results
import RoutineFlow.Value.Order

/-!
Sorting fails only where a comparison does. Keys have an order if there are no two of them, or if all are texts, or all are
numbers.
-/

namespace RoutineFlow

namespace Sorting

section Yields

variable {ε α β : Type} {P : α → Prop} {Q : β → Prop}

def Yields (P : α → Prop) (r : Except ε α) : Prop :=
  ∃ a, r = .ok a ∧ P a

theorem Yields.bind {r : Except ε α} {f : α → Except ε β} (hr : Yields P r)
    (hf : ∀ a, P a → Yields Q (f a)) : Yields Q (r >>= f) := by
  obtain ⟨a, rfl, ha⟩ := hr
  exact hf a ha

theorem Yields.pure {a : α} (ha : P a) : Yields P (pure a : Except ε α) :=
  ⟨a, rfl, ha⟩

end Yields

variable {ε α : Type} {less : α → α → Except ε Bool} {P : α → Prop}
  (hless : ∀ a b, P a → P b → Yields (fun _ => True) (less a b))

include hless

theorem runFrom_yields (descending : Bool) {last : α} {xs : List α} (hlast : P last) (hxs : ∀ x ∈ xs, P x) :
    Yields (fun parts => (∀ x ∈ parts.1, P x) ∧ ∀ x ∈ parts.2, P x) (runFrom less descending last xs) := by
  induction xs generalizing last with
  | nil => exact .pure ⟨hxs, hxs⟩
  | cons x xs ih =>
    obtain ⟨hx, hrest⟩ := List.forall_mem_cons.mp hxs
    apply (hless x last hx hlast).bind
    intro r _
    split
    · apply (ih hx hrest).bind
      rintro ⟨run, rest⟩ ⟨hrun, hrest⟩
      exact .pure ⟨List.forall_mem_cons.mpr ⟨hx, hrun⟩, hrest⟩
    · exact .pure ⟨List.forall_mem_nil _, hxs⟩

theorem frontRun_yields {xs : List α} (hxs : ∀ x ∈ xs, P x) :
    Yields (fun parts => (∀ x ∈ parts.1, P x) ∧ ∀ x ∈ parts.2, P x) (frontRun less xs) := by
  unfold frontRun
  split
  · obtain ⟨hfirst, hxs⟩ := List.forall_mem_cons.mp hxs
    obtain ⟨hsecond, hothers⟩ := List.forall_mem_cons.mp hxs
    apply (hless _ _ hsecond hfirst).bind
    intro descending _
    apply (runFrom_yields hless descending hsecond hothers).bind
    rintro ⟨run, rest⟩ ⟨hrun, hrest⟩
    have hwhole := List.forall_mem_cons.mpr ⟨hfirst, List.forall_mem_cons.mpr ⟨hsecond, hrun⟩⟩
    refine .pure ⟨?_, hrest⟩
    cases descending
    · exact hwhole
    · intro x hx
      exact hwhole x (List.mem_reverse.mp hx)
  · exact .pure ⟨hxs, List.forall_mem_nil _⟩

theorem insertByHalving_yields {x : α} {sorted : List α} (hx : P x) (hsorted : ∀ y ∈ sorted, P y) :
    Yields (fun ys => ∀ y ∈ ys, P y) (insertByHalving less x sorted) := by
  induction hlength : sorted.length using Nat.strong_induction_on generalizing sorted with
  | h length ih =>
    subst hlength
    have htake : ∀ n, ∀ y ∈ sorted.take n, P y := fun n y hy => hsorted y (List.mem_of_mem_take hy)
    have hdrop : ∀ n, ∀ y ∈ sorted.drop n, P y := fun n y hy => hsorted y (List.mem_of_mem_drop hy)
    rw [insertByHalving]
    split
    · rename_i hhalf
      apply (hless x _ hx (hsorted _ (List.getElem_mem hhalf))).bind
      intro r _
      split
      · apply (ih _ (by simp only [List.length_take]; omega) (htake _) rfl).bind
        intro ys hys
        exact .pure (List.forall_mem_append.mpr ⟨hys, hdrop _⟩)
      · apply (ih _ (by simp only [List.length_drop]; omega) (hdrop _) rfl).bind
        intro ys hys
        exact .pure (List.forall_mem_append.mpr ⟨htake _, hys⟩)
    · exact .pure (List.forall_mem_singleton.mpr hx)

theorem sort_yields {xs : List α} (hxs : ∀ x ∈ xs, P x) :
    Yields (fun ys => ∀ y ∈ ys, P y) (sort less xs) := by
  apply (frontRun_yields hless hxs).bind
  rintro ⟨run, rest⟩ ⟨hrun, hrest⟩
  induction rest generalizing run with
  | nil => exact .pure hrun
  | cons x rest ih =>
    obtain ⟨hx, hrest⟩ := List.forall_mem_cons.mp hrest
    apply (insertByHalving_yields hless hx hrun).bind
    intro sorted hsorted
    exact ih sorted hsorted hrest

end Sorting

namespace Sorting

section Sorts

/-! Elements compare if they are of one sort. Then a list of two or more can be sorted just if all its elements are. -/

variable {ε α κ : Type} {less : α → α → Except ε Bool} {sort? : α → Option κ} {k : κ}
  (hless : ∀ a b, (∃ r, less a b = .ok r) ↔ ∃ k, sort? a = some k ∧ sort? b = some k)

include hless

theorem sort?_of_less {a b : α} {r : Bool} (h : less a b = .ok r) (hb : sort? b = some k) : sort? a = some k := by
  obtain ⟨k', ha, hb'⟩ := (hless a b).mp ⟨r, h⟩
  rw [ha, ← hb', hb]

theorem runFrom_sorts {descending : Bool} {last : α} {xs run rest : List α}
    (h : runFrom less descending last xs = .ok (run, rest)) (hlast : sort? last = some k) :
    xs = run ++ rest ∧ ∀ x ∈ run, sort? x = some k := by
  induction xs generalizing last run with
  | nil =>
    cases h
    exact ⟨rfl, List.forall_mem_nil _⟩
  | cons x xs ih =>
    obtain ⟨r, hr, h⟩ := Results.bind_eq_ok.mp h
    split at h
    · obtain ⟨⟨run', rest'⟩, hrun, h⟩ := Results.bind_eq_ok.mp h
      cases h
      have hx := sort?_of_less hless hr hlast
      obtain ⟨rfl, hsorts⟩ := ih hrun hx
      exact ⟨rfl, List.forall_mem_cons.mpr ⟨hx, hsorts⟩⟩
    · cases h
      exact ⟨rfl, List.forall_mem_nil _⟩

theorem insertByHalving_sorts {x : α} {sorted ys : List α} (h : insertByHalving less x sorted = .ok ys)
    (hne : sorted ≠ []) (hsorted : ∀ y ∈ sorted, sort? y = some k) :
    sort? x = some k ∧ ys ≠ [] ∧ ∀ y ∈ ys, sort? y = some k := by
  have hyields (hx : sort? x = some k) : ∀ y ∈ ys, sort? y = some k := by
    have hcompare : ∀ a b, sort? a = some k → sort? b = some k → Yields (fun _ => True) (less a b) := by
      intro a b ha hb
      obtain ⟨r, hr⟩ := (hless a b).mpr ⟨k, ha, hb⟩
      exact ⟨r, hr, trivial⟩
    obtain ⟨ys', hys', hall⟩ := insertByHalving_yields hcompare hx hsorted
    rw [h] at hys'
    rwa [Except.ok.inj hys']
  have hhalf : sorted.length / 2 < sorted.length := Nat.div_lt_self (List.length_pos_iff.mpr hne) (by decide)
  rw [insertByHalving, dif_pos hhalf] at h
  obtain ⟨r, hr, h⟩ := Results.bind_eq_ok.mp h
  have hx := sort?_of_less hless hr (hsorted _ (List.getElem_mem hhalf))
  refine ⟨hx, ?_, hyields hx⟩
  -- the element that was compared is in one of the parts
  split at h <;> obtain ⟨part, -, h⟩ := Results.bind_eq_ok.mp h <;> cases h
  · simp [List.drop_eq_nil_iff, hhalf]
  · simp [List.take_eq_nil_iff, hne]

theorem foldlM_insert_sorts {rest sorted ys : List α}
    (h : rest.foldlM (fun sorted x => insertByHalving less x sorted) sorted = .ok ys) (hne : sorted ≠ [])
    (hsorted : ∀ y ∈ sorted, sort? y = some k) : ∀ x ∈ rest, sort? x = some k := by
  induction rest generalizing sorted with
  | nil => exact List.forall_mem_nil _
  | cons x rest ih =>
    obtain ⟨sorted', hinsert, h⟩ := Results.bind_eq_ok.mp h
    obtain ⟨hx, hne', hsorted'⟩ := insertByHalving_sorts hless hinsert hne hsorted
    exact List.forall_mem_cons.mpr ⟨hx, ih h hne' hsorted'⟩

/-- What can be sorted has no two elements, or all are of one sort. -/
theorem sort_ok_iff {xs : List α} :
    (∃ ys, sort less xs = .ok ys) ↔ xs.length ≤ 1 ∨ ∃ k, ∀ x ∈ xs, sort? x = some k := by
  constructor
  · rintro ⟨ys, h⟩
    obtain ⟨⟨run, rest⟩, hfront, hinserts⟩ := Results.bind_eq_ok.mp h
    unfold frontRun at hfront
    split at hfront
    · rename_i first second others
      right
      obtain ⟨descending, hcompared, hfront⟩ := Results.bind_eq_ok.mp hfront
      obtain ⟨⟨run', rest'⟩, hrun, hturned⟩ := Results.bind_eq_ok.mp hfront
      obtain ⟨rfl, rfl⟩ := Prod.mk.inj (Except.ok.inj hturned)
      obtain ⟨k, hsecond, hfirst⟩ := (hless _ _).mp ⟨_, hcompared⟩
      obtain ⟨rfl, hsorts⟩ := runFrom_sorts hless hrun hsecond
      have hwhole : ∀ x ∈ first :: second :: run', sort? x = some k := by
        simpa using ⟨hfirst, hsecond, hsorts⟩
      have hrest : ∀ x ∈ rest', sort? x = some k := by
        apply foldlM_insert_sorts hless hinserts
        · cases descending <;> simp
        · cases descending
          · exact hwhole
          · exact fun y hy => hwhole y (List.mem_reverse.mp hy)
      refine ⟨k, fun x hx => ?_⟩
      obtain hx | hx : x ∈ first :: second :: run' ∨ x ∈ rest' := by simpa [or_assoc] using hx
      · exact hwhole x hx
      · exact hrest x hx
    · rename_i hshort
      left
      match xs, hshort with
      | [], _ => simp
      | [_], _ => simp
      | first :: second :: others, hshort => exact absurd rfl (hshort first second others)
  · rintro (hshort | ⟨k, hsorts⟩)
    · match xs, hshort with
      | [], _ => exact ⟨[], rfl⟩
      | [x], _ => exact ⟨[x], rfl⟩
    · have hcompare : ∀ a b, sort? a = some k → sort? b = some k → Yields (fun _ => True) (less a b) := by
        intro a b ha hb
        obtain ⟨r, hr⟩ := (hless a b).mpr ⟨k, ha, hb⟩
        exact ⟨r, hr, trivial⟩
      obtain ⟨ys, hys, -⟩ := sort_yields hcompare hsorts
      exact ⟨ys, hys⟩

end Sorts

end Sorting

/-- Whether a key has its place among the texts, or else among the numbers; null has none. -/
def Key.amongTexts? : Key → Option Bool
  | .null => none
  | .bool _ | .num _ => some false
  | .text _ => some true

theorem Key.ordered_iff (a b : Key) :
    (∃ r, Value.ordered .lt (.ofKey a) (.ofKey b) = .ok r) ↔
      ∃ texts, a.amongTexts? = some texts ∧ b.amongTexts? = some texts := by
  cases a <;> cases b <;> simp [Value.ordered, Value.ofKey, Value.number?, Key.amongTexts?]

namespace Environment

variable {env env' : Environment}

theorem sortedKeys_ok_iff : (∃ keys, env.sortedKeys = .ok keys) ↔
    (Mapping.keys env).length ≤ 1 ∨ ∃ texts, ∀ key ∈ Mapping.keys env, key.amongTexts? = some texts :=
  Sorting.sort_ok_iff Key.ordered_iff

theorem sortedKeys_ok_of_perm (h : env.Perm env') :
    (∃ keys, env.sortedKeys = .ok keys) ↔ ∃ keys, env'.sortedKeys = .ok keys := by
  have hkeys : (Mapping.keys env).Perm (Mapping.keys env') := h.map _
  simp only [sortedKeys_ok_iff, hkeys.length_eq, hkeys.mem_iff]

theorem exists_key_of_unsorted {cause : Cause} (h : env.sortedKeys = .error cause) :
    ∃ key ∈ Mapping.keys env, key.text? = none := by
  by_contra htexts
  obtain ⟨keys, hkeys⟩ : ∃ keys, env.sortedKeys = .ok keys := by
    refine sortedKeys_ok_iff.mpr (.inr ⟨true, fun key hkey => ?_⟩)
    cases key with
    | text s => rfl
    | _ => exact absurd ⟨_, hkey, rfl⟩ htexts
  rw [h] at hkeys
  cases hkeys

end Environment

end RoutineFlow
