import RoutineFlow.Proofs.Amounts
import RoutineFlow.Proofs.Conversions
import RoutineFlow.Proofs.Splitting
import RoutineFlow.Proofs.Trimming

/-!
A number that is turned into text is the same number when it is read again. What is whole comes back as an integer.
-/

namespace RoutineFlow

namespace Numeral

open Text (isBlank Trimmed trim)

variable {digits : List Char} {w : Written}

theorem signed_mul (negative : Bool) (a b : Nat) : signed negative (a * b) = signed negative a * b := by
  cases negative <;> simp [signed]

theorem isBlank_of_isDigit {c : Char} (h : c.isDigit = true) : isBlank c = false := by
  have hrange := toNat_of_isDigit h
  simp only [isBlank, Bool.or_eq_false_iff, Bool.and_eq_false_iff, decide_eq_false_iff_not, beq_eq_false_iff_ne]
  omega

theorem Written.isBlank_of_mem {c : Char} (h : c ∈ w.text) : isBlank c = false := by
  rcases w.mem_text h with h | rfl | rfl | rfl | rfl
  · exact isBlank_of_isDigit h
  · rfl
  · rfl
  · rfl
  · rfl

theorem Written.trimmed (w : Written) : Trimmed w.text :=
  Text.trimmed_of_forall fun _ hc => Written.isBlank_of_mem hc

theorem Written.trimmed_minus (w : Written) : Trimmed ('-' :: w.text) := by
  apply Text.trimmed_of_forall
  rw [List.forall_mem_cons]
  exact ⟨rfl, fun _ hc => Written.isBlank_of_mem hc⟩

/-- Digits alone, as a numeral. -/
def Written.ofDigits (h : IsDigits digits) : Written :=
  ⟨digits, [], [], h, .none, .none⟩

theorem Written.text_ofDigits (h : IsDigits digits) : (Written.ofDigits h).text = digits := by
  simp [Written.ofDigits, Written.text]

theorem normalize_text (w : Written) : normalize w.text = some w.text :=
  normalize_eq fun _ hc => w.plain_of_mem hc

theorem normalize_minus (w : Written) : normalize ('-' :: w.text) = some ('-' :: w.text) := by
  apply normalize_eq
  rw [List.forall_mem_cons]
  exact ⟨by decide, fun _ hc => w.plain_of_mem hc⟩

theorem Written.isEmpty_text (w : Written) : w.text.isEmpty = false := by
  obtain ⟨c, hc, -⟩ := w.head_isDigit
  cases htext : w.text with
  | nil => simp [htext] at hc
  | cons d cs => rfl

theorem integerParts?_text (w : Written) :
    integerParts? w.text = if w.text.all Char.isDigit then some (false, w.text) else none := by
  rw [integerParts?, normalize_text]
  simp only [w.sign_text, w.isEmpty_text]
  cases w.text.all Char.isDigit <;> rfl

theorem integerParts?_minus (w : Written) :
    integerParts? ('-' :: w.text) = if w.text.all Char.isDigit then some (true, w.text) else none := by
  rw [integerParts?, normalize_minus]
  simp only [sign, w.isEmpty_text]
  cases w.text.all Char.isDigit <;> rfl

theorem Written.IsDouble.not_all (h : w.IsDouble) : w.text.all Char.isDigit = false := by
  rw [List.all_eq_false]
  obtain ⟨whole, fraction, exponent, hwhole, hfraction, hexponent⟩ := w
  rcases h with h | h
  · cases hfraction with
    | none => exact absurd rfl h
    | point hdigits => exact ⟨'.', by simp [Written.text], by decide⟩
  · cases hexponent with
    | none => exact absurd rfl h
    | scale hmark hdigits => exact ⟨'e', by simp [Written.text], by decide⟩

end Numeral

namespace Number

open Numeral
open Text (Blank Trimmed trim)

variable {i : Int} {x : Float} {before after : String} {core : List Char}

/-- Some integer is equal to the number. -/
def Whole (n : Number) : Prop :=
  ∃ i, compare? (.int i) n = some .eq

theorem compareExact_eq_iff (i : Int) (negative : Bool) (mantissa : Nat) (exponent : Int) :
    compareExact i negative mantissa exponent = .eq ↔
      mantissa * Power.numerator 2 exponent % Power.denominator 2 exponent = 0 ∧
        i = wholePart negative mantissa exponent := by
  have hpos : 0 < Power.denominator 2 exponent := Nat.pow_pos (by decide)
  unfold compareExact wholePart
  generalize mantissa * Power.numerator 2 exponent = num
  generalize Power.denominator 2 exponent = den at hpos
  have hden : (den : Int) ≠ 0 := by omega
  rw [compare_eq_iff_eq]
  constructor
  · intro h
    have hnum : num = i.natAbs * den := by
      have habs := congrArg Int.natAbs h
      rw [natAbs_signed, Int.natAbs_mul, Int.natAbs_natCast] at habs
      exact habs.symm
    subst hnum
    rw [signed_mul] at h
    rw [Nat.mul_mod_left, Nat.mul_div_cancel _ hpos]
    exact ⟨rfl, mul_right_cancel₀ hden h⟩
  · rintro ⟨hmod, rfl⟩
    rw [← signed_mul, Nat.div_mul_cancel (Nat.dvd_of_mod_eq_zero hmod)]

theorem integral?_eq_some_iff : integral? x = some i ↔ compare? (.int i) (.float x) = some .eq := by
  rw [compare?, integral?, compareIntFloat]
  cases Binary.ofFloat x with
  | notNumber => simp
  | infinite negative => cases negative <;> simp
  | finite negative mantissa exponent =>
    simp only [Option.some.injEq, compareExact_eq_iff]
    split
    · rename_i hmod
      simp [hmod, eq_comm]
    · rename_i hmod
      simp [hmod]

theorem whole_iff : (float x).Whole ↔ ∃ i, integral? x = some i :=
  exists_congr fun _ => integral?_eq_some_iff.symm

theorem compare?_self (h : isFinite x = true) : compare? (.float x) (.float x) = some .eq := by
  rw [compare?_eq_iff, amount?]
  unfold isFinite at h
  split at h
  · rename_i hx
    rw [hx]
    exact ⟨_, rfl, rfl⟩
  · cases h

theorem trim_around (hbefore : Blank before.toList) (hafter : Blank after.toList) (hcore : Trimmed core) :
    trim (before ++ String.ofList core ++ after).toList = core := by
  rw [String.toList_append, String.toList_append, String.toList_ofList]
  exact Text.trim_append hbefore hafter hcore

theorem ofText_eq_int {text : String} {negative : Bool} {n : Nat} (hn : n < Nat.pow 10 digitLimit)
    (h : integerParts? (trim text.toList) = some (negative, Text.decimalDigits n)) :
    ofText text = .ok (.int (signed negative n)) := by
  have hshort : ¬ (Text.decimalDigits n).length > digitLimit := by
    have hlength := length_decimalDigits (by decide) hn
    omega
  have hread : ofDigits negative (Text.decimalDigits n) = .ok (.int (signed negative n)) := by
    rw [ofDigits, integerOfDigits, if_neg hshort, valueOf_decimalDigits]
    rfl
  simp only [ofText, h, hread]
  rfl

theorem ofText_eq_float {text : String} (hfinite : isFinite x = true) (hinteger : integerParts? (trim text.toList) = none)
    (hdouble : double? (trim text.toList) = some x) : ofText text = .ok (.float x) := by
  simp only [ofText, hinteger, hdouble, hfinite, ↓reduceIte]

theorem ofText_intText {cs : List Char} (hbefore : Blank before.toList) (hafter : Blank after.toList)
    (h : intText i = .ok cs) : ofText (before ++ String.ofList cs ++ after) = .ok (.int i) := by
  have hi : i.natAbs < Nat.pow 10 digitLimit := (intText_ok_iff i).mp ⟨cs, h⟩
  have hdigits := isDigits_decimalDigits i.natAbs
  have hall : (Text.decimalDigits i.natAbs).all Char.isDigit = true := List.all_eq_true.mpr hdigits.2
  rw [intText, if_neg (Nat.not_le_of_lt hi)] at h
  obtain rfl := Except.ok.inj h
  by_cases hneg : i < 0
  · rw [if_pos hneg]
    have hparts := integerParts?_minus (.ofDigits hdigits)
    have htrimmed := (Written.ofDigits hdigits).trimmed_minus
    rw [Written.text_ofDigits, if_pos hall] at hparts
    rw [Written.text_ofDigits] at htrimmed
    rw [ofText_eq_int hi (by rw [trim_around hbefore hafter htrimmed, hparts]), signed, if_pos rfl]
    congr
    omega
  · rw [if_neg hneg]
    have hparts := integerParts?_text (.ofDigits hdigits)
    have htrimmed := (Written.ofDigits hdigits).trimmed
    rw [Written.text_ofDigits, if_pos hall] at hparts
    rw [Written.text_ofDigits] at htrimmed
    rw [ofText_eq_int hi (by rw [trim_around hbefore hafter htrimmed, hparts]), signed, if_neg (by decide)]
    congr
    omega

theorem ofText_binaryText (hbefore : Blank before.toList) (hafter : Blank after.toList) (hfinite : isFinite x = true)
    (hprint : double? (Binary.text x) = some x) :
    ofText (before ++ String.ofList (Binary.text x) ++ after) = .ok (.float x) := by
  obtain ⟨w, hdouble, htext⟩ := Binary.text_written hfinite
  have hall := hdouble.not_all
  have hkept : Trimmed (Binary.text x) ∧ integerParts? (Binary.text x) = none := by
    rcases htext with htext | htext
    · rw [htext, integerParts?_text, hall]
      exact ⟨w.trimmed, rfl⟩
    · rw [htext, integerParts?_minus, hall]
      exact ⟨w.trimmed_minus, rfl⟩
  have htrim := trim_around hbefore hafter hkept.1
  apply ofText_eq_float hfinite
  · rw [htrim]
    exact hkept.2
  · rw [htrim]
    exact hprint

end Number

namespace Builtin

open Number
open Text (Blank)

variable {n : Number} {i : Int} {x : Float} {cs : List Char} {before after : String}

theorem call_str (h : Value.numberText n = .ok cs) : call .str [.num n] = .ok (.str (String.ofList cs)) := by
  rw [call_eq_run (by rintro s ⟨⟩; rfl), run, Value.toText, Value.textChars, h]
  rfl

theorem call_number {text : String} (h : Number.ofText text = .ok n) : call .number [.str text] = .ok (.num n) := by
  rw [call_eq_run (by rintro s ⟨⟩; rfl), run, Value.toNumber, h]
  rfl

section Survival

variable (hbefore : Blank before.toList) (hafter : Blank after.toList)
include hbefore hafter

theorem int_survives (hexact : (Number.int i).Exact) :
    ∃ text, call .str [.num (.int i)] = .ok (.str text) ∧
      call .number [.str (before ++ text ++ after)] = .ok (.num (.int i)) := by
  obtain ⟨cs, hcs⟩ := (intText_ok_iff i).mpr hexact
  exact ⟨String.ofList cs, call_str hcs, call_number (ofText_intText hbefore hafter hcs)⟩

/-- A whole double is printed as an integer, however large it is. -/
theorem whole_becomes_int (hwhole : integral? x = some i) :
    ∃ text, call .str [.num (.float x)] = .ok (.str text) ∧
      call .number [.str (before ++ text ++ after)] = .ok (.num (.int i)) := by
  obtain ⟨cs, hcs⟩ := (intText_ok_iff i).mpr (writable_integral hwhole)
  have htext : Value.numberText (.float x) = .ok cs := by simp only [Value.numberText, hwhole, hcs]
  exact ⟨String.ofList cs, call_str htext, call_number (ofText_intText hbefore hafter hcs)⟩

theorem double_survives (hfinite : isFinite x = true) (hnone : integral? x = none)
    (hprint : Numeral.double? (Binary.text x) = some x) :
    ∃ text, call .str [.num (.float x)] = .ok (.str text) ∧
      call .number [.str (before ++ text ++ after)] = .ok (.num (.float x)) := by
  have htext : Value.numberText (.float x) = .ok (Binary.text x) := by simp only [Value.numberText, hnone]
  exact ⟨String.ofList (Binary.text x), call_str htext, call_number (ofText_binaryText hbefore hafter hfinite hprint)⟩

end Survival

/-- A number survives being turned into text and read again, with blanks around the text or without: whole numbers come
back as equal integers, other doubles as they were. -/
theorem numbers_survive_text (hexact : n.Exact)
    (hprint : ∀ x, n = .float x → ¬ n.Whole → Numeral.double? (Binary.text x) = some x)
    (hbefore : Blank before.toList) (hafter : Blank after.toList) :
    ∃ (text : String) (m : Number), call .str [.num n] = .ok (.str text) ∧
      call .number [.str (before ++ text ++ after)] = .ok (.num m) ∧
      m.compare? n = some .eq ∧ (n.Whole → ∃ i, m = .int i) ∧ (¬ n.Whole → m = n) := by
  cases n with
  | int i =>
    obtain ⟨text, hstr, hnumber⟩ := int_survives hbefore hafter hexact
    have hself : compare? (.int i) (.int i) = some .eq := by simp [compare?]
    exact ⟨text, .int i, hstr, hnumber, hself, fun _ => ⟨i, rfl⟩, fun _ => rfl⟩
  | float x =>
    cases hwhole : integral? x with
    | some i =>
      obtain ⟨text, hstr, hnumber⟩ := whole_becomes_int hbefore hafter hwhole
      have hequal := integral?_eq_some_iff.mp hwhole
      exact ⟨text, .int i, hstr, hnumber, hequal, fun _ => ⟨i, rfl⟩, fun hnot => absurd ⟨i, hequal⟩ hnot⟩
    | none =>
      have hnot : ¬ (Number.float x).Whole := by
        rw [whole_iff, hwhole]
        simp
      obtain ⟨text, hstr, hnumber⟩ := double_survives hbefore hafter hexact hwhole (hprint x rfl hnot)
      exact ⟨text, .float x, hstr, hnumber, compare?_self hexact, fun h => absurd h hnot, fun _ => rfl⟩
  | unknown mark => cases hexact

/-- A tenth below zero stays a double, and a double too large for positional digits comes back as an integer. -/
theorem tenth_survives :
    ((Number.float (-0.1)).Exact ∧ ¬ (Number.float (-0.1)).Whole ∧
      Numeral.double? (Binary.text (-0.1)) = some (-0.1) ∧ Blank "\t".toList ∧ Blank "\u3000".toList ∧
      ∃ text, call .str [.num (.float (-0.1))] = .ok (.str text) ∧
        call .number [.str ("\t" ++ text ++ "\u3000")] = .ok (.num (.float (-0.1)))) ∧
    (Number.float 1e22).Exact ∧ (Number.float 1e22).Whole ∧
      ∃ text, call .str [.num (.float 1e22)] = .ok (.str text) ∧
        call .number [.str ("\t" ++ text ++ "\u3000")] = .ok (.num (.int (10 ^ 22))) := by
  have htenth : (Number.float (-0.1)).Exact := by decide
  have hlarge : (Number.float 1e22).Exact := by decide
  have hprint : Numeral.double? (Binary.text (-0.1)) = some (-0.1) := by decide
  have hnone : integral? (-0.1) = none := by decide
  have hsome : integral? 1e22 = some (10 ^ 22) := by decide
  have hnot : ¬ (Number.float (-0.1)).Whole := by
    rw [whole_iff, hnone]
    simp
  have hwhole : (Number.float 1e22).Whole := whole_iff.mpr ⟨_, hsome⟩
  have hbefore : Blank "\t".toList := by simp [Blank, Text.isBlank]
  have hafter : Blank "\u3000".toList := by simp [Blank, Text.isBlank]
  have hprinted : ∀ x, Number.float (-0.1) = .float x → ¬ (Number.float (-0.1)).Whole →
      Numeral.double? (Binary.text x) = some x := by
    rintro x heq -
    cases heq
    exact hprint
  obtain ⟨text, m, hstr, hnumber, -, -, hsame⟩ := numbers_survive_text htenth hprinted hbefore hafter
  obtain ⟨digits, k, hdigits, hread, hequal, hinteger, -⟩ :=
    numbers_survive_text hlarge (fun _ _ h => absurd hwhole h) hbefore hafter
  obtain ⟨i, rfl⟩ := hinteger hwhole
  obtain rfl : 10 ^ 22 = i := Option.some.inj (hsome.symm.trans (integral?_eq_some_iff.mpr hequal))
  rw [hsame hnot] at hnumber
  exact ⟨⟨htenth, hnot, hprint, hbefore, hafter, text, hstr, hnumber⟩, hlarge, hwhole, digits, hdigits, hread⟩

end Builtin

end RoutineFlow
