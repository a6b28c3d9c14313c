import Mathlib
import RoutineFlow.Number.Basic

namespace RoutineFlow.Binary

open Float.Model (Format)
open Float.Model.UnpackedFloat

variable {s : Sign} {e : BitVec 11} {m : BitVec 52}

theorem toNat_packComponents : (packComponents Format.binary64 s e m).toNat =
    s.toBitVec.toNat * 2 ^ 63 + e.toNat * 2 ^ 52 + m.toNat := by
  have he := e.isLt
  have hm := m.isLt
  have hse : (s.toBitVec ++ e).toNat = s.toBitVec.toNat * 2 ^ 11 + e.toNat := by
    rw [BitVec.toNat_append, ← Nat.shiftLeft_add_eq_or_of_lt he, Nat.shiftLeft_eq]
  have hall : (packComponents Format.binary64 s e m).toNat =
      (s.toBitVec ++ e).toNat * 2 ^ 52 + m.toNat := by
    unfold packComponents
    rw [BitVec.toNat_append, ← Nat.shiftLeft_add_eq_or_of_lt hm, Nat.shiftLeft_eq]
  rw [hall, hse]
  ring

theorem unpack_zero : unpack Format.binary64 (packComponents Format.binary64 s 0#11 0#52) = .zero s := by
  simp [unpack]

theorem unpack_subnormal (hm : m ≠ 0#52) (h : 0 < m.toNat) :
    unpack Format.binary64 (packComponents Format.binary64 s 0#11 m) =
      .finite s m.toNat (-1074) h := by
  simp [unpack, hm, Format.exponentBias]

theorem unpack_normal (he : e ≠ 0#11) (he' : e ≠ 2047#11) (h : 0 < (1#1 ++ m).toNat) :
    unpack Format.binary64 (packComponents Format.binary64 s e m) =
      .finite s (1#1 ++ m).toNat ((e.toNat : Int) - 1075) h := by
  simp [unpack, he, he', Format.exponentBias]

theorem pack_subnormal (h : 0 < m.toNat) :
    pack Format.binary64 (.finite s m.toNat (-1074) h) = packComponents Format.binary64 s 0#11 m := by
  have hlog : m.toNat.log2 < 52 := by
    rw [Nat.log2_lt (by omega)]
    exact m.isLt
  have hne : ¬ m.toNat.log2 + 1 = 53 := by omega
  simp [pack, Format.exponentBias, Format.mantissaBits, hne]

theorem toNat_append_one : (1#1 ++ m).toNat = 2 ^ 52 + m.toNat := by
  have hm := m.isLt
  rw [BitVec.toNat_append, ← Nat.shiftLeft_add_eq_or_of_lt hm, Nat.shiftLeft_eq]
  simp

theorem pack_normal (he' : e ≠ 2047#11) (h : 0 < (1#1 ++ m).toNat) :
    pack Format.binary64 (.finite s (1#1 ++ m).toNat ((e.toNat : Int) - 1075) h) =
      packComponents Format.binary64 s e m := by
  have hm := m.isLt
  have hlog : (1#1 ++ m).toNat.log2 = 52 := by
    rw [toNat_append_one, Nat.log2_eq_iff (by omega)]
    omega
  have hexp : e.toNat < 2047 := by
    have hlt := e.isLt
    have hne : e.toNat ≠ 2047 := by
      intro heq
      apply he'
      apply BitVec.eq_of_toNat_eq
      simpa using heq
    omega
  have hbias : ((e.toNat : Int) - 1075 + 1023 + 52).toNat = e.toNat := by omega
  have hmant : BitVec.ofNat 52 (1#1 ++ m).toNat = m := by
    apply BitVec.eq_of_toNat_eq
    rw [BitVec.toNat_ofNat, toNat_append_one]
    omega
  have hsmall : ¬ 2048 ≤ e.toNat + 1 := by omega
  simp only [pack, Format.exponentBias, Format.mantissaBits, hlog, hmant]
  simp only [Nat.reduceSub, Nat.reducePow, Nat.cast_ofNat, hbias, hsmall, ↓reduceIte, BitVec.ofNat_toNat, BitVec.setWidth_eq]

theorem pack_unpack (he : e ≠ 2047#11) :
    pack Format.binary64 (unpack Format.binary64 (packComponents Format.binary64 s e m)) =
      packComponents Format.binary64 s e m := by
  by_cases hzero : e = 0#11
  · subst hzero
    by_cases hm : m = 0#52
    · subst hm
      rw [unpack_zero]
      rfl
    · have hpos : 0 < m.toNat := by
        apply Nat.pos_of_ne_zero
        intro hnone
        exact hm (BitVec.eq_of_toNat_eq hnone)
      rw [unpack_subnormal hm hpos, pack_subnormal]
  · have hpos : 0 < (1#1 ++ m).toNat := by
      rw [toNat_append_one]
      omega
    rw [unpack_normal hzero he hpos, pack_normal he]

theorem pack_neg_unpack (he : e ≠ 2047#11) :
    pack Format.binary64 (unpack Format.binary64 (packComponents Format.binary64 s e m)).neg =
      packComponents Format.binary64 (-s) e m := by
  by_cases hzero : e = 0#11
  · subst hzero
    by_cases hm : m = 0#52
    · subst hm
      rw [unpack_zero]
      rfl
    · have hpos : 0 < m.toNat := by
        apply Nat.pos_of_ne_zero
        intro hnone
        exact hm (BitVec.eq_of_toNat_eq hnone)
      rw [unpack_subnormal hm hpos]
      exact pack_subnormal hpos
  · have hpos : 0 < (1#1 ++ m).toNat := by
      rw [toNat_append_one]
      omega
    rw [unpack_normal hzero he hpos]
    exact pack_normal he hpos

theorem model_pack_congr {f g : Float.Model.UnpackedFloat}
    (h : pack Format.binary64 f = pack Format.binary64 g) : Float.Model.pack f = Float.Model.pack g := by
  rw [Float.Model.mk.injEq]
  exact congrArg UInt64.ofBitVec h

/-- The double of a sign, an exponent and a fraction. -/
def double (s : Sign) (e : BitVec 11) (m : BitVec 52) : Float :=
  .ofBits ⟨packComponents Format.binary64 s e m⟩

theorem toBits_double (he : e ≠ 2047#11) :
    (double s e m).toBits = ⟨packComponents Format.binary64 s e m⟩ := by
  have hpack : pack Format.binary64 (unpack Format.binary64 (packComponents Format.binary64 s e m)) =
      packComponents Format.binary64 s e m := pack_unpack he
  exact congrArg UInt64.ofBitVec hpack

theorem neg_double (he : e ≠ 2047#11) : -double s e m = double (-s) e m := by
  have hmodel : (double s e m).toModel.unpack =
      unpack Format.binary64 (packComponents Format.binary64 s e m) := by
    have hbits : (double s e m).toModel.toBits = ⟨packComponents Format.binary64 s e m⟩ :=
      toBits_double he
    rw [Float.Model.unpack, hbits]
  have hneg : -double s e m = .ofModel (.pack (double s e m).toModel.unpack.neg) := rfl
  have hdouble : double (-s) e m =
      .ofModel (.pack (unpack Format.binary64 (packComponents Format.binary64 (-s) e m))) := rfl
  rw [hneg, hdouble, hmodel]
  congr 1
  apply model_pack_congr
  rw [pack_neg_unpack he, pack_unpack he]

def signOf (negative : Bool) : Sign :=
  if negative then .negative else .positive

theorem nearest_eq {num den : Nat} (negative : Bool) (h : magnitude num den < 2047 * 2 ^ 52) :
    nearest negative num den = double (signOf negative) (BitVec.ofNat 11 (magnitude num den / 2 ^ 52))
      (BitVec.ofNat 52 (magnitude num den)) := by
  unfold nearest double
  generalize magnitude num den = n at h ⊢
  apply congrArg Float.ofBits
  apply UInt64.eq_of_toBitVec_eq
  apply BitVec.eq_of_toNat_eq
  have hexponent : n / 2 ^ 52 < 2 ^ 11 := by omega
  have hsplit := Nat.div_add_mod n (2 ^ 52)
  rw [toNat_packComponents, BitVec.toNat_ofNat, BitVec.toNat_ofNat, Nat.mod_eq_of_lt hexponent]
  change ((if negative then 2 ^ 63 else 0) + n) % 2 ^ 64 = _
  cases negative with
  | true =>
    have hsign : (signOf true).toBitVec.toNat = 1 := rfl
    rw [hsign]
    simp only [↓reduceIte]
    omega
  | false =>
    have hsign : (signOf false).toBitVec.toNat = 0 := rfl
    rw [hsign]
    simp only [Bool.false_eq_true, ↓reduceIte]
    omega

theorem exponent_ne {n : Nat} (h : n < 2047 * 2 ^ 52) : BitVec.ofNat 11 (n / 2 ^ 52) ≠ 2047#11 := by
  intro heq
  have hnat := congrArg BitVec.toNat heq
  rw [BitVec.toNat_ofNat, BitVec.toNat_ofNat] at hnat
  omega

theorem neg_nearest {num den : Nat} (h : magnitude num den < 2047 * 2 ^ 52) :
    -nearest false num den = nearest true num den := by
  rw [nearest_eq false h, nearest_eq true h, neg_double (exponent_ne h)]
  rfl

theorem ofBits_finite {bits : Nat} (h : bits / 2 ^ 52 % 2 ^ 11 ≠ 2047) :
    ∃ negative mantissa exponent, ofBits bits = .finite negative mantissa exponent := by
  have hexponent : ¬ bits / Nat.pow 2 52 % Nat.pow 2 11 = 2047 := h
  unfold ofBits
  simp only [hexponent, ↓reduceIte]
  split
  · exact ⟨_, _, _, rfl⟩
  · exact ⟨_, _, _, rfl⟩

theorem isFinite_nearest {num den : Nat} (negative : Bool) (h : magnitude num den < 2047 * 2 ^ 52) :
    Number.isFinite (nearest negative num den) = true := by
  rw [nearest_eq negative h]
  generalize magnitude num den = n at h ⊢
  have hbits := toBits_double (s := signOf negative) (m := BitVec.ofNat 52 n) (exponent_ne h)
  have hnat : (double (signOf negative) (BitVec.ofNat 11 (n / 2 ^ 52)) (BitVec.ofNat 52 n)).toBits.toNat =
      (signOf negative).toBitVec.toNat * 2 ^ 63 + n / 2 ^ 52 % 2 ^ 11 * 2 ^ 52 + n % 2 ^ 52 := by
    rw [hbits]
    exact toNat_packComponents
  have hexponent : ((signOf negative).toBitVec.toNat * 2 ^ 63 + n / 2 ^ 52 % 2 ^ 11 * 2 ^ 52 +
      n % 2 ^ 52) / 2 ^ 52 % 2 ^ 11 ≠ 2047 := by
    omega
  obtain ⟨_, _, _, hfinite⟩ := ofBits_finite hexponent
  unfold Number.isFinite ofFloat
  rw [hnat, hfinite]

theorem magnitude_le (num den : Nat) : magnitude num den ≤ 2047 * 2 ^ 52 := by
  unfold magnitude
  split
  · omega
  · exact Nat.min_le_right _ _

theorem magnitude_lt {num den : Nat} {negative : Bool}
    (h : Number.isFinite (nearest negative num den) = true) : magnitude num den < 2047 * 2 ^ 52 := by
  apply Nat.lt_of_le_of_ne (magnitude_le num den)
  intro heq
  unfold nearest at h
  rw [heq] at h
  cases negative <;> revert h <;> decide

theorem nearestDecimal_eq (digits : Nat) (exponent : Int) :
    ∃ num den, ∀ negative, nearestDecimal negative digits exponent = nearest negative num den := by
  unfold nearestDecimal
  by_cases hdigits : digits = 0
  · exact ⟨0, 1, fun negative => by simp [hdigits]⟩
  simp only [hdigits, ↓reduceIte]
  split
  · exact ⟨_, _, fun negative => rfl⟩
  split
  · exact ⟨_, _, fun negative => rfl⟩
  · exact ⟨_, _, fun negative => rfl⟩

theorem neg_nearestDecimal {digits : Nat} {exponent : Int}
    (h : Number.isFinite (nearestDecimal true digits exponent) = true) :
    Number.isFinite (nearestDecimal false digits exponent) = true ∧
      -nearestDecimal false digits exponent = nearestDecimal true digits exponent := by
  obtain ⟨num, den, hnearest⟩ := nearestDecimal_eq digits exponent
  rw [hnearest] at h ⊢
  have hlt := magnitude_lt h
  rw [hnearest]
  exact ⟨isFinite_nearest false hlt, neg_nearest hlt⟩

end RoutineFlow.Binary
