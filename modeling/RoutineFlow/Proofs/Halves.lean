import RoutineFlow.Expr.Literal

/-!
An escape may spell half of a pair on its own, which is replaced when it is read. In a whole text no escape does, and each
stands for the character with the number that it spells.
-/

namespace RoutineFlow

theorem Text.hexValue?_lt {c : Char} {n : Nat} (h : hexValue? c = some n) : n < 16 := by
  unfold hexValue? at h
  split at h
  · rename_i hdigit
    have hmost := (Char.isDigit_iff_toNat.mp hdigit).2
    cases h
    simp only [Char.reduceToNat] at hmost ⊢
    omega
  · split at h
    · rename_i hletter
      have hmost : c.toNat ≤ 'f'.toNat := hletter.2
      cases h
      simp only [Char.reduceToNat] at hmost ⊢
      omega
    · split at h
      · rename_i hletter
        have hmost : c.toNat ≤ 'F'.toNat := hletter.2
        cases h
        simp only [Char.reduceToNat] at hmost ⊢
        omega
      · cases h

namespace Json

theorem unitChar_toNat {n : Nat} (hrange : n ≤ 0x10FFFF) (hwhole : isHalf n = false) : (unitChar n).toNat = n := by
  have hvalid : n.isValidChar := by
    simp only [isHalf, isHighHalf, isLowHalf, Bool.or_eq_false_iff, Bool.and_eq_false_iff, decide_eq_false_iff_not]
      at hwhole
    simp only [Nat.isValidChar]
    omega
  rw [unitChar, hwhole, if_neg Bool.false_ne_true, Char.ofNat, dif_pos hvalid]
  rfl

theorem hexQuad_lt {a b c d : Char} {n : Nat} (h : hexQuad a b c d = some n) : n < 0x10000 := by
  simp only [hexQuad, Option.bind_eq_bind, Option.bind_eq_some_iff, Option.pure_def, Option.some.injEq] at h
  obtain ⟨first, hfirst, second, hsecond, third, hthird, fourth, hfourth, rfl⟩ := h
  have := Text.hexValue?_lt hfirst
  have := Text.hexValue?_lt hsecond
  have := Text.hexValue?_lt hthird
  have := Text.hexValue?_lt hfourth
  omega

theorem readLowHalf_eq_some {high low : Nat} {cs : List Char} (h : readLowHalf high cs = .ok (some low)) :
    isHighHalf high = true ∧ isLowHalf low = true := by
  unfold readLowHalf at h
  split at h
  · split at h
    · rename_i hhigh
      split at h
      · cases h
      · split at h
        · rename_i hlow
          cases h
          exact ⟨(Bool.and_eq_true_iff.mp hhigh).1, hlow⟩
        · cases h
    · cases h
  · cases h

theorem readUnit_le {cs : List Char} {n size : Nat} (h : readUnit cs = .ok (n, size)) : n ≤ 0x10FFFF := by
  unfold readUnit at h
  split at h
  · rename_i rest
    split at h
    · cases h
    · rename_i unit hunit
      split at h
      · cases h
      · have hlt := hexQuad_lt hunit
        cases hlow : readLowHalf unit rest with
        | error stop => simp [hlow, Except.map] at h
        | ok found => cases found with
          | none =>
            simp only [hlow, Except.map, Except.ok.injEq, Prod.mk.injEq] at h
            omega
          | some low =>
            obtain ⟨hhigh, hlowHalf⟩ := readLowHalf_eq_some hlow
            simp only [isHighHalf, isLowHalf, Bool.and_eq_true, decide_eq_true_eq] at hhigh hlowHalf
            simp only [hlow, Except.map, Except.ok.injEq, Prod.mk.injEq] at h
            have hpair : pairNumber unit low = n := h.1
            unfold pairNumber at hpair
            omega
  · cases h

/-- Whether a backslash before the text spells half of a pair on its own. -/
def spellsHalf : List Char → Bool
  | 'u' :: cs => match readUnit cs with
    | .ok (n, _) => isHalf n
    | .error _ => false
  | _ => false

/-- Whether no escape in a text spells half of a pair. Of an escape, `skip` characters are still to be passed; one that is
wrong ends the reading. -/
def isWhole : Nat → List Char → Bool
  | _, [] => true
  | skip + 1, _ :: cs => isWhole skip cs
  | 0, '\\' :: cs => match readEscape [] cs with
    | .ok (_, size) => !spellsHalf cs && isWhole size cs
    | .error _ => true
  | 0, _ :: cs => isWhole 0 cs

theorem readEscape_toNat {start cs : List Char} {n size : Nat} (h : readUnit cs = .ok (n, size))
    (hwhole : spellsHalf ('u' :: cs) = false) :
    ∃ c, readEscape start ('u' :: cs) = .ok (c, size + 1) ∧ c.toNat = n := by
  have hhalf : isHalf n = false := by simpa only [spellsHalf, h] using hwhole
  refine ⟨unitChar n, ?_, unitChar_toNat (readUnit_le h) hhalf⟩
  rw [readEscape, h]
  rfl

end Json

namespace Expr.Literal

/-- Whether a backslash before the text spells half of a pair. -/
def spellsHalf : List Char → Bool
  | 'u' :: cs => Json.isHalf (hexNumber (cs.take 4))
  | 'U' :: cs => Json.isHalf (hexNumber (cs.take 8))
  | _ => false

/-- Whether no escape in code spells half of a pair. Of an escape, `skip` characters are still to be passed; one that is
wrong ends the reading. -/
def isWhole [CharNames] : Nat → List Char → Bool
  | _, [] => true
  | skip + 1, _ :: cs => isWhole skip cs
  | 0, '\\' :: cs => match escape cs with
    | .ok (_, size) => !spellsHalf cs && isWhole size cs
    | .error _ => true
  | 0, _ :: cs => isWhole 0 cs

theorem hexEscape_toNat {count : Nat} {what : Escape} {cs read : List Char} {size : Nat}
    (h : hexEscape count what cs = .ok (read, size)) (hwhole : Json.isHalf (hexNumber (cs.take count)) = false) :
    ∃ c, read = [c] ∧ c.toNat = hexNumber (cs.take count) := by
  unfold hexEscape at h
  dsimp only at h
  split at h
  · cases h
  · rename_i hcount
    have hdigits : (cs.take count).takeWhile (fun c => (Text.hexValue? c).isSome) = cs.take count := by
      refine (List.takeWhile_prefix _).eq_of_length_le ?_
      have := List.length_take_le count cs
      omega
    rw [hdigits] at h
    split at h
    · cases h
    · rename_i hrange
      cases h
      exact ⟨_, rfl, Json.unitChar_toNat (by omega) hwhole⟩

end Expr.Literal

end RoutineFlow
