import RoutineFlow.Proofs.Double

/-!
Numbers are compared by what they amount to, integers and doubles alike.
-/

namespace RoutineFlow

/-- What a number stands for, whatever its kind. -/
inductive Amount where
  | finite (value : ℚ)
  | infinite (negative : Bool)

namespace Binary

open Float.Model (Format UnpackedFloat)
open Float.Model.UnpackedFloat

def isNegative : Sign → Bool
  | .negative => true
  | .positive => false

def ofUnpacked : UnpackedFloat → Binary
  | .notANumber => .notNumber
  | .infinity s => .infinite (isNegative s)
  | .zero s => .finite (isNegative s) 0 (-1074)
  | .finite s mantissa exponent _ => .finite (isNegative s) mantissa exponent

theorem isNegative_ofBitVec (b : BitVec 1) : isNegative (Sign.ofBitVec b) = (b.toNat == 1) := by
  revert b
  decide

theorem toNat_unpackSign (bits : BitVec 64) :
    (@unpackSign Format.binary64 bits).toNat = bits.toNat / 2 ^ 63 % 2 := by
  simp [unpackSign, BitVec.extractLsb_toNat, Nat.shiftRight_eq_div_pow]

theorem toNat_unpackExponent (bits : BitVec 64) :
    (@unpackExponent Format.binary64 bits).toNat = bits.toNat / 2 ^ 52 % 2 ^ 11 := by
  simp [unpackExponent, BitVec.extractLsb_toNat, Nat.shiftRight_eq_div_pow]

theorem toNat_unpackMantissa (bits : BitVec 64) :
    (@unpackMantissa Format.binary64 bits).toNat = bits.toNat % 2 ^ 52 := by
  simp [unpackMantissa, BitVec.extractLsb_toNat]

theorem ofBits_eq (bits : BitVec 64) : ofBits bits.toNat = ofUnpacked (unpack Format.binary64 bits) := by
  have hpow (k : Nat) : Nat.pow 2 k = 2 ^ k := rfl
  have hinfinite : @unpackExponent Format.binary64 bits = -1#11 ↔ bits.toNat / 2 ^ 52 % 2 ^ 11 = 2047 := by
    rw [← BitVec.toNat_inj, toNat_unpackExponent]
    rfl
  have hzero : @unpackExponent Format.binary64 bits = 0#11 ↔ bits.toNat / 2 ^ 52 % 2 ^ 11 = 0 := by
    rw [← BitVec.toNat_inj, toNat_unpackExponent]
    rfl
  have hnone : @unpackMantissa Format.binary64 bits = 0#52 ↔ bits.toNat % 2 ^ 52 = 0 := by
    rw [← BitVec.toNat_inj, toNat_unpackMantissa]
    rfl
  have hnormal : (1#1 ++ @unpackMantissa Format.binary64 bits).toNat = bits.toNat % 2 ^ 52 + 2 ^ 52 := by
    have happend := toNat_append_one (m := @unpackMantissa Format.binary64 bits)
    have hmantissa := toNat_unpackMantissa bits
    omega
  unfold ofBits unpack
  simp only [hpow]
  by_cases hspecial : bits.toNat / 2 ^ 52 % 2 ^ 11 = 2047
  · rw [if_pos hspecial, if_pos (hinfinite.mpr hspecial)]
    by_cases hfraction : bits.toNat % 2 ^ 52 = 0
    · rw [if_pos hfraction, if_pos (hnone.mpr hfraction), ofUnpacked, isNegative_ofBitVec, toNat_unpackSign]
    · rw [if_neg hfraction, if_neg (hnone.not.mpr hfraction), ofUnpacked]
  rw [if_neg hspecial, if_neg (hinfinite.not.mpr hspecial)]
  by_cases hsmall : bits.toNat / 2 ^ 52 % 2 ^ 11 = 0
  · rw [if_pos hsmall, if_pos (hzero.mpr hsmall)]
    by_cases hfraction : bits.toNat % 2 ^ 52 = 0
    · rw [dif_pos (hnone.mpr hfraction), ofUnpacked, isNegative_ofBitVec, toNat_unpackSign, hfraction]
    · rw [dif_neg (hnone.not.mpr hfraction), ofUnpacked, isNegative_ofBitVec, toNat_unpackSign, toNat_unpackMantissa,
        toNat_unpackExponent, hsmall]
      rfl
  · rw [if_neg hsmall, if_neg (hzero.not.mpr hsmall), ofUnpacked, isNegative_ofBitVec, toNat_unpackSign,
      toNat_unpackExponent, hnormal]
    rfl

theorem ofFloat_eq (x : Float) : ofFloat x = ofUnpacked x.toModel.unpack :=
  ofBits_eq x.toBits.toBitVec

/-- The mantissa and exponent of a finite double are the only ones for its value. -/
structure Canonical (mantissa : Nat) (exponent : Int) : Prop where
  mantissa_lt : mantissa < 2 ^ 53
  le_exponent : -1074 ≤ exponent
  normal : exponent = -1074 ∨ 2 ^ 52 ≤ mantissa

theorem canonical_of_finite {x : Float} {negative : Bool} {mantissa : Nat} {exponent : Int}
    (h : ofFloat x = .finite negative mantissa exponent) : Canonical mantissa exponent := by
  unfold ofFloat ofBits at h
  generalize x.toBits.toNat = bits at h
  have hpow (k : Nat) : Nat.pow 2 k = 2 ^ k := rfl
  simp only [hpow] at h
  have hfraction : bits % 2 ^ 52 < 2 ^ 52 := Nat.mod_lt _ (by decide)
  split at h
  · split at h <;> cases h
  · split at h
    · cases h
      exact ⟨by omega, by omega, .inl rfl⟩
    · cases h
      exact ⟨by omega, by omega, .inr (by omega)⟩

/-- A magnitude of a double. -/
def value (mantissa : Nat) (exponent : Int) : ℚ :=
  mantissa * 2 ^ exponent

theorem value_lt {m n : Nat} {e f : Int} (hm : Canonical m e) (hn : Canonical n f) (h : e < f) :
    value m e < value n f := by
  have hnormal : 2 ^ 52 ≤ n := by
    have hle := hm.le_exponent
    obtain hleast | hnormal := hn.normal
    · omega
    · exact hnormal
  have hmantissa : (m : ℚ) < 2 ^ 53 := by exact_mod_cast hm.mantissa_lt
  have hnormal' : (2 : ℚ) ^ 52 ≤ n := by exact_mod_cast hnormal
  calc value m e
      < 2 ^ 53 * 2 ^ e := mul_lt_mul_of_pos_right hmantissa (by positivity)
    _ = 2 ^ 52 * 2 ^ (e + 1) := by rw [zpow_add_one₀ (by norm_num)]; ring
    _ ≤ n * 2 ^ f := mul_le_mul hnormal' (zpow_le_zpow_right₀ (by norm_num) (by omega)) (by positivity) (by positivity)

theorem value_injective {m n : Nat} {e f : Int} (hm : Canonical m e) (hn : Canonical n f)
    (h : value m e = value n f) : m = n ∧ e = f := by
  obtain hlt | rfl | hlt := lt_trichotomy e f
  · exact absurd h (value_lt hm hn hlt).ne
  · have hpos : (2 : ℚ) ^ e ≠ 0 := by positivity
    have hcast : (m : ℚ) = n := mul_right_cancel₀ hpos h
    exact ⟨by exact_mod_cast hcast, rfl⟩
  · exact absurd h (value_lt hn hm hlt).ne'

def amount? : Binary → Option Amount
  | .notNumber => none
  | .infinite negative => some (.infinite negative)
  | .finite negative mantissa exponent =>
    some (.finite (if negative then -value mantissa exponent else value mantissa exponent))

theorem value_pos {m : Nat} {e : Int} (h : 0 < m) : 0 < value m e := by
  have hcast : (0 : ℚ) < m := by exact_mod_cast h
  unfold value
  positivity

theorem value_zero (e : Int) : value 0 e = 0 := by
  simp [value]

theorem compare_eq_iff {u v : UnpackedFloat}
    (hu : ∀ {s m e} (h : 0 < m), u = .finite s m e h → Canonical m e)
    (hv : ∀ {s m e} (h : 0 < m), v = .finite s m e h → Canonical m e) :
    u.compare v = some .eq ↔ ∃ a, (ofUnpacked u).amount? = some a ∧ (ofUnpacked v).amount? = some a := by
  cases u with
  | notANumber => simp [UnpackedFloat.compare, ofUnpacked, amount?]
  | infinity s =>
    cases v with
    | infinity t => cases s <;> cases t <;> simp [UnpackedFloat.compare, ofUnpacked, amount?, isNegative] <;> decide
    | _ => cases s <;> simp [UnpackedFloat.compare, ofUnpacked, amount?]
  | zero s =>
    cases v with
    | notANumber => simp [UnpackedFloat.compare, ofUnpacked, amount?]
    | infinity t => cases t <;> simp [UnpackedFloat.compare, ofUnpacked, amount?]
    | zero t => simp [UnpackedFloat.compare, ofUnpacked, amount?, value_zero]
    | finite t n f hn =>
      have hpos := value_pos (e := f) hn
      cases t <;> simp [UnpackedFloat.compare, ofUnpacked, amount?, value_zero, isNegative, hpos.ne']
  | finite s m e hm =>
    have hpos := value_pos (e := e) hm
    cases v with
    | notANumber => simp [UnpackedFloat.compare, ofUnpacked, amount?]
    | infinity t => cases t <;> simp [UnpackedFloat.compare, ofUnpacked, amount?]
    | zero t => cases s <;> simp [UnpackedFloat.compare, ofUnpacked, amount?, value_zero, isNegative, hpos.ne, hpos.ne']
    | finite t n f hn =>
      have hpos' := value_pos (e := f) hn
      have hunique : value n f = value m e ↔ e = f ∧ m = n := by
        constructor
        · intro heq
          exact (value_injective (hu hm rfl) (hv hn rfl) heq.symm).symm
        · rintro ⟨rfl, rfl⟩
          rfl
      have hbelow : -value n f ≠ value m e := by linarith
      have habove : value n f ≠ -value m e := by linarith
      cases s <;> cases t <;>
        simp [UnpackedFloat.compare, ofUnpacked, amount?, isNegative, hunique, hbelow, habove, Ordering.then_eq_eq]

theorem canonical_of_unpack {x : Float} {s : Sign} {m : Nat} {e : Int} (h : 0 < m)
    (hx : x.toModel.unpack = .finite s m e h) : Canonical m e := by
  apply canonical_of_finite
  rw [ofFloat_eq, hx, ofUnpacked]

theorem compare_float_iff (x y : Float) :
    Number.compare? (.float x) (.float y) = some .eq ↔
      ∃ a, (ofFloat x).amount? = some a ∧ (ofFloat y).amount? = some a := by
  have hlt : x < y ↔ x.toModel.unpack.compare y.toModel.unpack = some .lt := by
    change decide (x.toModel < y.toModel) = true ↔ _
    rw [decide_eq_true_eq]
    change (x.toModel.unpack.compare y.toModel.unpack == some .lt) = true ↔ _
    exact beq_iff_eq
  have heq : x == y ↔ x.toModel.unpack.compare y.toModel.unpack = some .eq := by
    change (x.toModel.unpack.compare y.toModel.unpack == some .eq) = true ↔ _
    exact beq_iff_eq
  rw [ofFloat_eq, ofFloat_eq, ← compare_eq_iff canonical_of_unpack canonical_of_unpack, Number.compare?, ← heq]
  by_cases hxy : x < y
  · have hne : ¬ (x == y) = true := by
      rw [heq, hlt.mp hxy]
      simp
    simp [hxy, hne]
  · by_cases hbeq : (x == y) = true
    · simp [hxy, hbeq]
    · simp [hxy, hbeq]

theorem value_mul_denominator (m : Nat) (e : Int) :
    value m e * Power.denominator 2 e = (m * Power.numerator 2 e : Nat) := by
  have hquotient : (2 : ℚ) ^ e * 2 ^ (-e).toNat = 2 ^ e.toNat := by
    rw [← zpow_natCast, ← zpow_natCast, ← zpow_add₀ (by norm_num)]
    congr 1
    omega
  have hnumerator : (Power.numerator 2 e : ℚ) = 2 ^ e.toNat := by simp [Power.numerator]
  have hdenominator : (Power.denominator 2 e : ℚ) = 2 ^ (-e).toNat := by simp [Power.denominator]
  rw [value, Nat.cast_mul, hnumerator, hdenominator, mul_assoc, hquotient]

end Binary

namespace Number

def amount? : Number → Option Amount
  | .int i => some (.finite i)
  | .float x => (Binary.ofFloat x).amount?
  | .unknown _ => none

theorem compareIntFloat_iff (i : Int) (x : Float) :
    compareIntFloat i x = some .eq ↔ ∃ a, (Number.int i).amount? = some a ∧ (Number.float x).amount? = some a := by
  simp only [compareIntFloat, amount?]
  cases Binary.ofFloat x with
  | notNumber => simp [Binary.amount?]
  | infinite negative => cases negative <;> simp [Binary.amount?]
  | finite negative mantissa exponent =>
    have hvalue := Binary.value_mul_denominator mantissa exponent
    have hpos : (0 : ℚ) < Power.denominator 2 exponent := by
      simp [Power.denominator]
    have hexact : compareExact i negative mantissa exponent = .eq ↔
        (if negative then -Binary.value mantissa exponent else Binary.value mantissa exponent) = i := by
      rw [compareExact, compare_eq_iff_eq, ← mul_left_inj' hpos.ne', ← Int.cast_inj (α := ℚ)]
      cases negative with
      | false => simp [Numeral.signed, hvalue, eq_comm]
      | true => simp [Numeral.signed, hvalue, eq_comm]
    simp [Binary.amount?, hexact]

theorem compare?_eq_iff (m n : Number) :
    m.compare? n = some .eq ↔ ∃ a, m.amount? = some a ∧ n.amount? = some a := by
  cases m with
  | int i =>
    cases n with
    | int j => simp [compare?, amount?, eq_comm (a := j)]
    | float y => exact compareIntFloat_iff i y
    | unknown mark => simp [compare?, amount?]
  | float x =>
    cases n with
    | int j =>
      have hswap : (compareIntFloat j x).map Ordering.swap = some .eq ↔ compareIntFloat j x = some .eq := by
        rcases compareIntFloat j x with _ | _ | _ | _ <;> simp
      rw [compare?, hswap, compareIntFloat_iff]
      exact exists_congr fun a => and_comm
    | float y => exact Binary.compare_float_iff x y
    | unknown mark => simp [compare?, amount?]
  | unknown mark => simp [compare?, amount?]

end Number

end RoutineFlow
