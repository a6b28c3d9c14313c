import Mathlib.Data.Option.Basic

namespace RoutineFlow.Results

variable {ε ε' α β : Type} {r : Except ε α} {f : α → Except ε β} {g : ε → ε'} {a : α} {b : β} {e : ε} {e' : ε'}

theorem bind_eq_ok : r >>= f = .ok b ↔ ∃ a, r = .ok a ∧ f a = .ok b := by
  cases r <;> simp [bind, Except.bind]

theorem bind_eq_error : r >>= f = .error e ↔ r = .error e ∨ ∃ a, r = .ok a ∧ f a = .error e := by
  cases r <;> simp [bind, Except.bind]

theorem bind_pure_eq_error {f : α → β} : (do return f (← r)) = .error e ↔ r = .error e := by
  cases r <;> simp [bind, Except.bind, pure, Except.pure]

theorem map_eq_error {f : α → β} : r.map f = .error e ↔ r = .error e := by
  cases r <;> simp [Except.map]

theorem mapError_eq_ok : r.mapError g = .ok a ↔ r = .ok a := by
  cases r <;> simp [Except.mapError]

theorem mapError_eq_error : r.mapError g = .error e' ↔ ∃ e, r = .error e ∧ g e = e' := by
  cases r <;> simp [Except.mapError]

theorem mapM_congr {g : α → Except ε β} {items : List α} (h : ∀ a ∈ items, f a = g a) :
    items.mapM f = items.mapM g := by
  induction items with
  | nil => rfl
  | cons first items ih =>
    obtain ⟨hfirst, hrest⟩ := List.forall_mem_cons.mp h
    rw [List.mapM_cons, List.mapM_cons, hfirst, ih hrest]

theorem mapM_ok_iff {items : List α} : (∃ bs, items.mapM f = .ok bs) ↔ ∀ a ∈ items, ∃ b, f a = .ok b := by
  induction items with
  | nil => exact iff_of_true ⟨[], rfl⟩ (by simp)
  | cons first items ih =>
    rw [List.forall_mem_cons, ← ih, List.mapM_cons]
    simp only [bind_eq_ok]
    constructor
    · rintro ⟨-, b, hfirst, bs, hrest, -⟩
      exact ⟨⟨b, hfirst⟩, bs, hrest⟩
    · rintro ⟨⟨b, hfirst⟩, bs, hrest⟩
      exact ⟨_, b, hfirst, bs, hrest, rfl⟩

theorem mapM_eq_error {items : List α} : items.mapM f = .error e ↔
    ∃ before a after bs, items = before ++ a :: after ∧ before.mapM f = .ok bs ∧ f a = .error e := by
  constructor
  · intro h
    induction items with
    | nil => cases h
    | cons first items ih =>
      rw [List.mapM_cons] at h
      obtain hfirst | ⟨b, hfirst, h⟩ := bind_eq_error.mp h
      · exact ⟨[], first, items, [], rfl, rfl, hfirst⟩
      · obtain hrest | ⟨bs, -, h⟩ := bind_eq_error.mp h
        · obtain ⟨before, a, after, bs, rfl, hbefore, ha⟩ := ih hrest
          exact ⟨first :: before, a, after, b :: bs, rfl, by rw [List.mapM_cons, hfirst, hbefore]; rfl, ha⟩
        · cases h
  · rintro ⟨before, a, after, bs, rfl, hbefore, ha⟩
    rw [List.mapM_append, hbefore, List.mapM_cons, ha]
    rfl

end RoutineFlow.Results
