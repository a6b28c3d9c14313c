import RoutineFlow.Expr.Builtin
import RoutineFlow.Proofs.Refusals
import RoutineFlow.Proofs.Emission

/-!
When conversions of values fail, and by which causes. Texts are refused for integers of too many digits alone. Only
`int` and `round` leave the range of integers and doubles.
-/

namespace RoutineFlow

open Results

theorem Numeral.natAbs_signed (negative : Bool) (n : Nat) : (signed negative n).natAbs = n := by
  cases negative <;> simp [signed]

namespace Number

/-- All but integers of too many digits. -/
def Writable : Number → Prop
  | .int i => i.natAbs < Nat.pow 10 digitLimit
  | _ => True

def Infinite : Number → Prop
  | .float x => ∃ negative, Binary.ofFloat x = .infinite negative
  | _ => False

theorem intText_ok_iff (i : Int) : (∃ cs, intText i = .ok cs) ↔ (int i).Writable := by
  unfold intText Writable
  split
  · rename_i hlong
    simpa using hlong
  · rename_i hshort
    simpa using hshort

theorem failsIn_intText (i : Int) : FailsIn (· = .unwritableInteger) (intText i) := by
  unfold intText
  split
  · exact .error rfl
  · exact .ok _

theorem finite_bounds {x : Float} {negative : Bool} {mantissa : Nat} {exponent : Int}
    (h : Binary.ofFloat x = .finite negative mantissa exponent) : mantissa < 2 ^ 53 ∧ exponent ≤ 971 := by
  unfold Binary.ofFloat Binary.ofBits at h
  generalize x.toBits.toNat = bits at h
  have hpow (k : Nat) : Nat.pow 2 k = 2 ^ k := rfl
  simp only [hpow] at h
  have hfraction : bits % 2 ^ 52 < 2 ^ 52 := Nat.mod_lt _ (by decide)
  have hexponent : bits / 2 ^ 52 % 2 ^ 11 < 2 ^ 11 := Nat.mod_lt _ (by decide)
  split at h
  · split at h <;> cases h
  · split at h <;> cases h <;> omega

theorem two_pow_le_ten_pow {m n : Nat} (h : m ≤ n) : 2 ^ m ≤ Nat.pow 10 n :=
  Nat.le_trans (Nat.pow_le_pow_right (by decide) h) (Nat.pow_le_pow_left (by decide) n)

theorem writable_integral {x : Float} {i : Int} (h : integral? x = some i) : (int i).Writable := by
  unfold integral? at h
  split at h
  · rename_i negative mantissa exponent hx
    obtain ⟨hmantissa, hexponent⟩ := finite_bounds hx
    split at h
    · cases h
      have hplaces : 53 + exponent.toNat ≤ digitLimit := by
        unfold digitLimit
        omega
      calc (wholePart negative mantissa exponent).natAbs
          = mantissa * Power.numerator 2 exponent / Power.denominator 2 exponent := Numeral.natAbs_signed _ _
        _ ≤ mantissa * Power.numerator 2 exponent := Nat.div_le_self _ _
        _ < 2 ^ 53 * 2 ^ exponent.toNat := Nat.mul_lt_mul_of_pos_right hmantissa (Nat.two_pow_pos _)
        _ = 2 ^ (53 + exponent.toNat) := (Nat.pow_add ..).symm
        _ ≤ Nat.pow 10 digitLimit := two_pow_le_ten_pow hplaces
    · cases h
  · cases h

end Number

namespace Json

theorem writeNumber_compact_ok_iff (n : Number) : (∃ cs, writeNumber .compact n = .ok cs) ↔ n.Writable := by
  cases n with
  | int i => simpa only [writeNumber] using Number.intText_ok_iff i
  | float x =>
    simp only [writeNumber, Number.Writable]
    split <;> simp [writeSpecial, Layout.compact]
  | unknown mark => simp [writeNumber, writeSpecial, Layout.compact, Number.Writable]

theorem failsIn_writeNumber_compact (n : Number) : FailsIn (· = .unwritableInteger) (writeNumber .compact n) := by
  cases n with
  | int i => simpa only [writeNumber] using Number.failsIn_intText i
  | float x =>
    simp only [writeNumber]
    split <;> exact .ok _
  | unknown mark => exact .ok _

end Json

namespace Value

variable {v : Value} {cause : Cause}

theorem textItems_eq_mapM (items : List Value) : textItems items = items.mapM textChars := by
  induction items with
  | nil => rfl
  | cons v items ih => rw [textItems, ih, List.mapM_cons]

theorem textChars_ok_iff (v : Value) : (∃ cs, textChars v = .ok cs) ↔ v.Over Number.Writable := by
  induction v using Value.induct with
  | null => simp [textChars]
  | bool b => simp [textChars]
  | num n =>
    rw [textChars, over_num]
    cases n with
    | int i => simpa only [numberText] using Number.intText_ok_iff i
    | float x =>
      simp only [numberText]
      split
      · rename_i i hwhole
        exact iff_of_true ((Number.intText_ok_iff i).mpr (Number.writable_integral hwhole)) trivial
      · exact iff_of_true ⟨_, rfl⟩ trivial
    | unknown mark => exact iff_of_true ⟨_, rfl⟩ trivial
  | str s => simp [textChars]
  | list items ih =>
    rw [textChars, over_list, ← forall₂_congr ih, ← mapM_ok_iff, textItems_eq_mapM]
    cases items.mapM textChars <;> simp [Except.map]
  | map entries _ =>
    rw [textChars]
    exact Json.write_ok_iff Json.writeNumber_compact_ok_iff _ 0

theorem failsIn_textChars (v : Value) : FailsIn (· = .unwritableInteger) (textChars v) := by
  induction v using Value.induct with
  | null => exact .ok _
  | bool b => exact .ok _
  | num n =>
    rw [textChars]
    cases n with
    | int i => simpa only [numberText] using Number.failsIn_intText i
    | float x =>
      simp only [numberText]
      split
      · exact Number.failsIn_intText _
      · exact .ok _
    | unknown mark => exact .ok _
  | str s => exact .ok _
  | list items ih =>
    rw [textChars, textItems_eq_mapM]
    exact (FailsIn.mapM ih).map
  | map entries _ =>
    rw [textChars]
    exact Json.failsIn_write (fun n _ => Json.failsIn_writeNumber_compact n) 0 (over_of_forall (fun _ => trivial) _)

theorem toText_eq_error : v.toText = .error cause ↔ ¬ v.Over Number.Writable ∧ cause = .unwritableInteger := by
  rw [← textChars_ok_iff, toText]
  have hfails := failsIn_textChars v
  cases htext : textChars v with
  | ok cs => simp [Except.map]
  | error other =>
    obtain rfl : other = .unwritableInteger := hfails other htext
    simpa [Except.map] using eq_comm

end Value

/-- Causes that are reported as faults of an expression. -/
def Cause.Reported (cause : Cause) : Prop :=
  cause.kindOf ≠ .overflow

namespace Number

variable {n places : Number} {cause : Cause}

theorem truncate_eq_error (h : n.truncate = .error cause) :
    cause.Reported ∨ n.Infinite ∧ cause = .integerOfInfinity := by
  unfold truncate at h
  split at h
  · cases h
  · split at h <;> cases h
    · exact .inl nofun
    · exact .inr ⟨⟨_, ‹_›⟩, rfl⟩
  · cases h
    exact .inl nofun

theorem truncate_of_infinite (h : n.Infinite) : n.truncate = .error .integerOfInfinity := by
  cases n with
  | float x =>
    obtain ⟨negative, hx⟩ := h
    rw [truncate, hx]
  | _ => cases h

theorem roundWhole_eq_error (h : roundWhole n = .error cause) :
    cause.Reported ∨ n.Infinite ∧ cause = .integerOfInfinity := by
  unfold roundWhole at h
  split at h
  · cases h
  · split at h <;> cases h
    · exact .inl nofun
    · exact .inr ⟨⟨_, ‹_›⟩, rfl⟩
  · cases h
    exact .inl nofun

theorem roundWhole_of_infinite (h : n.Infinite) : roundWhole n = .error .integerOfInfinity := by
  cases n with
  | float x =>
    obtain ⟨negative, hx⟩ := h
    rw [roundWhole, hx]
  | _ => cases h

theorem failsIn_roundFloat (x : Float) (digits : Int) : FailsIn (· = .roundedTooLarge) (roundFloat x digits) := by
  unfold roundFloat
  dsimp only
  split
  · split
    · exact .ok _
    · split
      · exact .ok _
      · split
        · exact .ok _
        · exact .error rfl
  · exact .ok _

/-- The number cannot be rounded to so many places: one of the two is infinite, or the result is beyond the doubles. -/
inductive Unroundable (n places : Number) : Cause → Prop
  | places (h : places.Infinite) : Unroundable n places .integerOfInfinity
  | whole (hplaces : places.truncate = .ok 0) (h : n.Infinite) : Unroundable n places .integerOfInfinity
  | large {x : Float} {digits : Int} (hplaces : places.truncate = .ok digits) (hdigits : digits ≠ 0)
      (hn : n = .float x) (h : roundFloat x digits = .error .roundedTooLarge) : Unroundable n places .roundedTooLarge

/-- Rounding, with the places given by a number. -/
def roundBy (n places : Number) : Except Cause Number := do
  n.round (← places.truncate)

theorem roundBy_eq_error (h : roundBy n places = .error cause) : cause.Reported ∨ Unroundable n places cause := by
  obtain hplaces | ⟨digits, hplaces, h⟩ := bind_eq_error.mp h
  · obtain hreported | ⟨hinfinite, rfl⟩ := truncate_eq_error hplaces
    · exact .inl hreported
    · exact .inr (.places hinfinite)
  · unfold round at h
    split at h
    · rename_i hzero
      subst hzero
      cases hwhole : roundWhole n with
      | ok i => simp [hwhole, Except.map] at h
      | error other =>
        obtain rfl : other = cause := by simpa [hwhole, Except.map] using h
        obtain hreported | ⟨hinfinite, rfl⟩ := roundWhole_eq_error hwhole
        · exact .inl hreported
        · exact .inr (.whole hplaces hinfinite)
    · rename_i hdigits
      split at h
      · cases h
      · rename_i x _
        cases hround : roundFloat x digits with
        | ok y => simp [hround, Except.map] at h
        | error other =>
          obtain rfl : other = cause := by simpa [hround, Except.map] using h
          obtain rfl := failsIn_roundFloat x digits _ hround
          exact .inr (.large hplaces hdigits rfl hround)
      · cases h

theorem Unroundable.roundBy (h : Unroundable n places cause) : roundBy n places = .error cause := by
  cases h with
  | places h => rw [Number.roundBy, truncate_of_infinite h]; rfl
  | whole hplaces h =>
    rw [Number.roundBy, hplaces]
    simp [bind, Except.bind, round, roundWhole_of_infinite h, Except.map]
  | large hplaces hdigits hn h =>
    subst hn
    rw [Number.roundBy, hplaces]
    simp [bind, Except.bind, round, hdigits, h, Except.map]

theorem Unroundable.not_reported (h : Unroundable n places cause) : ¬ cause.Reported := by
  cases h <;> exact fun hreported => hreported rfl

theorem failsIn_ofText (s : String) : FailsIn Cause.Reported (ofText s) := by
  unfold ofText
  dsimp only
  split
  · exact .ok _
  · split
    · exact .error nofun
    · split
      · exact .ok _
      · exact .error nofun

end Number

namespace Value

theorem failsIn_toNumber (v : Value) : FailsIn Cause.Reported v.toNumber := by
  unfold toNumber
  split
  · exact .ok _
  · exact .ok _
  · exact Number.failsIn_ofText _
  · exact .error nofun

mutual

theorem failsIn_ordered (c : Comparison) (v w : Value) : FailsIn Cause.Reported (ordered c v w) := by
  unfold ordered
  split
  · exact failsIn_orderedItems c _ _
  · split
    · exact .ok _
    · split
      · exact .ok _
      · exact .error nofun
termination_by sizeOf v

theorem failsIn_orderedItems (c : Comparison) (xs ys : List Value) :
    FailsIn Cause.Reported (orderedItems c xs ys) := by
  unfold orderedItems
  split
  · exact .ok _
  · exact .ok _
  · split
    · exact failsIn_orderedItems c _ _
    · exact failsIn_ordered c _ _
termination_by sizeOf xs

end

end Value

end RoutineFlow
