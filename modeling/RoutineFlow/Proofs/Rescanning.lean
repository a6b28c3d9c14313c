import Mathlib
import RoutineFlow.Json.Reader
import RoutineFlow.Proofs.Numerals
import RoutineFlow.Proofs.Quoting

/-!
Texts and numbers of documents are read back as they were written, in front of whatever may follow them.
-/

namespace RoutineFlow

namespace Json

theorem readText_letter (start : List Char) {c d : Char} (hd : d ∈ ['"', '\\', 'n', 'r', 't', 'b', 'f'])
    (h : Expr.Literal.simple? d = some c) (rest : List Char) :
    readText start 0 ('\\' :: d :: rest) = prepend c (readText start 0 rest) := by
  simp only [List.mem_cons, List.not_mem_nil, or_false] at hd
  rcases hd with rfl | rfl | rfl | rfl | rfl | rfl | rfl <;> cases h <;> rfl

theorem hexQuad_control {n : Nat} (h : n < 0x20) :
    ∃ a b c d, Text.hexDigits 4 n = [a, b, c, d] ∧ hexQuad a b c d = some n := by
  refine ⟨Text.hexDigit (n / 16 / 16 / 16 % 16), Text.hexDigit (n / 16 / 16 % 16), Text.hexDigit (n / 16 % 16),
    Text.hexDigit (n % 16), rfl, ?_⟩
  revert n
  decide

theorem readText_unit (start : List Char) {c : Char} (h : c.toNat < 0x20) {rest : List Char} (hrest : rest ≠ []) :
    readText start 0 ('\\' :: 'u' :: (Text.hexDigits 4 c.toNat ++ rest)) = prepend c (readText start 0 rest) := by
  obtain ⟨d₁, d₂, d₃, d₄, hdigits, hquad⟩ := hexQuad_control h
  have hhigh : isHighHalf c.toNat = false := by
    rw [isHighHalf, Bool.and_eq_false_iff]
    left
    rw [decide_eq_false_iff_not]
    omega
  have hlowHalf : isLowHalf c.toNat = false := by
    rw [isLowHalf, Bool.and_eq_false_iff]
    left
    rw [decide_eq_false_iff_not]
    omega
  have hlow : readLowHalf c.toNat rest = .ok none := by
    unfold readLowHalf
    split
    · simp [hhigh]
    · rfl
  have hunit : readUnit (d₁ :: d₂ :: d₃ :: d₄ :: rest) = .ok (c.toNat, 4) := by
    simp only [readUnit, hquad, hlow, List.isEmpty_eq_false_iff.mpr hrest, Bool.false_eq_true, ↓reduceIte]
    rfl
  have hescape : readEscape start ('u' :: d₁ :: d₂ :: d₃ :: d₄ :: rest) = .ok (c, 5) := by
    rw [readEscape, hunit]
    simp [Except.map, unitChar, isHalf, hhigh, hlowHalf]
  rw [hdigits]
  change readText start 0 ('\\' :: 'u' :: d₁ :: d₂ :: d₃ :: d₄ :: rest) = _
  rw [readText, hescape]
  rfl

theorem readText_escapeChar (start : List Char) (c : Char) {rest : List Char} (hrest : rest ≠ []) :
    readText start 0 (escapeChar false c ++ rest) = prepend c (readText start 0 rest) := by
  have hshown := Expr.shown_escapeChar c
  generalize escapeChar false c = piece at hshown ⊢
  cases hshown with
  | plain hc hquote hslash =>
    have hcontrol : ¬ c.toNat < 0x20 := by omega
    simp [readText, hcontrol]
  | letter hd hsimple => exact readText_letter start hd hsimple rest
  | unit hc => exact readText_unit start hc hrest

theorem readText_written (start cs rest : List Char) :
    readText start 0 (cs.flatMap (escapeChar false) ++ '"' :: rest) = .ok (cs, rest) := by
  induction cs with
  | nil => rfl
  | cons c cs ih =>
    rw [List.flatMap_cons, List.append_assoc, readText_escapeChar start c (by simp), ih]
    rfl

end Json

section Digits

open Numeral

/-- Only zero is written with a zero in front. -/
theorem Text.head?_decimalDigits {n : Nat} (h : (Text.decimalDigits n).head? = some '0') : n = 0 := by
  induction n using Nat.strong_induction_on with
  | h n ih =>
    unfold Text.decimalDigits at h ih
    by_cases hn : n < 10
    · rw [Nat.toDigits_of_lt_base hn] at h
      interval_cases n
      · rfl
      all_goals cases h
    · have hle : 10 ≤ n := by omega
      rw [Nat.toDigits_of_base_le (by decide) hle, List.head?_append_of_ne_nil _ Nat.toDigits_ne_nil] at h
      have hzero := ih (n / 10) (by omega) h
      omega

theorem Decimal.head?_text (d : Decimal) (h : d.text.head? = some '0') : ∃ cs, d.text = '0' :: '.' :: cs := by
  have hdigits := isDigits_decimalDigits d.digits
  have hhead : d.digits ≠ 0 → (Text.decimalDigits d.digits).head? ≠ some '0' :=
    fun hne hzero => hne (Text.head?_decimalDigits hzero)
  revert h
  unfold Decimal.text
  generalize Text.decimalDigits d.digits = digits at hdigits hhead
  simp only
  obtain ⟨c, cs, rfl⟩ := List.exists_cons_of_ne_nil hdigits.1
  split
  · exact fun _ => ⟨_, rfl⟩
  rename_i hne
  have hc : c ≠ '0' := by simpa using hhead hne
  split
  · split
    · exact fun _ => ⟨_, rfl⟩
    split
    · intro h
      simp [hc] at h
    · intro h
      obtain ⟨point, hpoint⟩ : ∃ point, ((c :: cs).length + d.exponent).toNat = point + 1 :=
        ⟨_, (Nat.succ_pred_eq_of_pos (by omega)).symm⟩
      rw [hpoint] at h
      simp [hc] at h
  · intro h
    cases cs with
    | nil => simp [hc] at h
    | cons c' cs => simp [hc] at h

namespace Numeral.Written

variable (w : Written)

theorem digitRun_text_append {rest : List Char} (hrest : ∀ c ∈ rest.head?, c.isDigit = false) :
    digitRun (w.text ++ rest) = (w.whole, w.fraction ++ (w.exponent ++ rest)) := by
  have hhead : ∀ c ∈ (w.fraction ++ (w.exponent ++ rest)).head?, c.isDigit = false := by
    obtain ⟨whole, fraction, exponent, hwhole, hfraction, hexponent⟩ := w
    intro c hc
    cases hfraction with
    | none =>
      cases hexponent with
      | none => exact hrest c hc
      | scale hmark hdigits =>
        cases hc
        rfl
    | point hdigits =>
      cases hc
      rfl
  rw [text, List.append_assoc, List.append_assoc, digitRun_append w.isWhole.2 hhead]

/-- No zero stands in front of the digits. -/
def Plain : Prop :=
  w.whole.head? = some '0' → w.whole = ['0']

theorem plain_of_text {d : Decimal} (h : d.text = w.text) : w.Plain := by
  intro hzero
  obtain ⟨c, cs, hwhole⟩ := List.exists_cons_of_ne_nil w.isWhole.1
  have hhead : d.text.head? = some '0' := by
    rw [hwhole] at hzero
    rw [h, text, hwhole]
    exact hzero
  obtain ⟨rest, hrest⟩ := d.head?_text hhead
  have hrun : digitRun (w.text ++ []) = _ := w.digitRun_text_append (by simp)
  rw [List.append_nil, ← h, hrest] at hrun
  exact (Prod.mk.inj hrun).1.symm

end Numeral.Written

end Digits

theorem Binary.text_eq {x : Float} (h : Number.isFinite x = true) :
    ∃ (negative : Bool) (d : Decimal), text x = (if negative then ['-'] else []) ++ d.text := by
  unfold Number.isFinite at h
  unfold text
  split at h
  · rename_i negative mantissa exponent hfloat
    refine ⟨negative, Decimal.shortest mantissa exponent, ?_⟩
    rw [hfloat]
    cases negative <;> rfl
  · cases h

namespace Json

open Numeral

/-- What stands behind a number cannot belong to it. -/
def Ended (rest : List Char) : Prop :=
  ∀ c ∈ rest.head?, c.isDigit = false ∧ c ≠ '.' ∧ c ≠ 'e' ∧ c ≠ 'E'

section Numbers

variable {rest : List Char} (hrest : Ended rest)

include hrest

theorem readExponent_append {exponent : List Char} (h : IsExponent exponent) :
    readExponent (exponent ++ rest) = (exponent, rest) := by
  cases h with
  | none =>
    cases rest with
    | nil => rfl
    | cons c rest =>
      obtain ⟨-, -, he, hE⟩ := hrest c rfl
      simp [readExponent, he, hE]
  | @scale mark digits hmark hdigits =>
    have hrun := digitRun_append hdigits.2 fun c hc => (hrest c hc).1
    obtain ⟨c, cs, rfl⟩ := List.exists_cons_of_ne_nil hdigits.1
    rw [List.cons_append] at hrun
    rcases hmark with rfl | rfl <;> simp [readExponent, hrun]

theorem readFraction_append {fraction exponent : List Char} (h : IsFraction fraction) (h' : IsExponent exponent) :
    readFraction (fraction ++ (exponent ++ rest)) = (fraction, exponent ++ rest) := by
  have hhead : ∀ c ∈ (exponent ++ rest).head?, c.isDigit = false ∧ c ≠ '.' := by
    intro c hc
    cases h' with
    | none => exact ⟨(hrest c hc).1, (hrest c hc).2.1⟩
    | scale hmark hdigits =>
      cases hc
      decide
  generalize exponent ++ rest = following at hhead
  cases h with
  | none =>
    cases following with
    | nil => rfl
    | cons c cs =>
      have hc := (hhead c rfl).2
      simp [readFraction, hc]
  | @point digits hdigits =>
    have hrun := digitRun_append hdigits.2 fun c hc => (hhead c hc).1
    obtain ⟨c, cs, rfl⟩ := List.exists_cons_of_ne_nil hdigits.1
    simp only [List.cons_append] at hrun ⊢
    simp [readFraction, hrun]

theorem finishNumber_integer {negative : Bool} {digits : List Char} (hlength : digits.length ≤ digitLimit) :
    finishNumber negative digits rest = .ok (.num (.int (signed negative (valueOf digits))), rest) := by
  have hfraction := readFraction_append hrest .none .none
  have hexponent := readExponent_append hrest .none
  rw [List.nil_append] at hexponent
  rw [List.nil_append, List.nil_append] at hfraction
  have hshort : ¬ digits.length > digitLimit := by omega
  simp [finishNumber, hfraction, hexponent, Number.ofDigits, Number.integerOfDigits, hshort, Except.map]

theorem finishNumber_double {negative : Bool} {w : Written} {x : Float} (hdouble : w.IsDouble)
    (hread : magnitude? negative w.text = some x) :
    finishNumber negative w.whole (w.fraction ++ (w.exponent ++ rest)) = .ok (.num (.float x), rest) := by
  have hparts : (w.fraction.isEmpty && w.exponent.isEmpty) = false := by
    rcases hdouble with h | h <;> simp [h]
  have htext : w.whole ++ w.fraction ++ w.exponent = w.text := rfl
  simp only [finishNumber, readFraction_append hrest w.isFraction w.isExponent, readExponent_append hrest w.isExponent,
    hparts, htext, hread]
  rfl

end Numbers

theorem readNumber_append (negative : Bool) {w : Written} (hplain : w.Plain) {rest : List Char} (hrest : Ended rest) :
    readNumber ((if negative then ['-'] else []) ++ (w.text ++ rest)) =
      finishNumber negative w.whole (w.fraction ++ (w.exponent ++ rest)) := by
  obtain ⟨c, cs, hwhole⟩ := List.exists_cons_of_ne_nil w.isWhole.1
  have hdigit : c.isDigit = true := w.isWhole.2 c (by simp [hwhole])
  have hminus : c ≠ '-' := ne_of_isDigit hdigit rfl
  have htext : w.text ++ rest = c :: (cs ++ (w.fraction ++ (w.exponent ++ rest))) := by
    simp [Written.text, hwhole]
  by_cases hzero : c = '0'
  · subst hzero
    have hone := hplain (by rw [hwhole]; rfl)
    obtain rfl := (List.cons.inj (hone ▸ hwhole)).2
    rw [htext, hone]
    cases negative <;> rfl
  · have hrun := w.digitRun_text_append fun c hc => (hrest c hc).1
    rw [htext, hwhole] at hrun
    simp only [digitRun, List.takeWhile_cons, List.dropWhile_cons, hdigit, ↓reduceIte, Prod.mk.injEq,
      List.cons.injEq, true_and] at hrun
    rw [htext, hwhole]
    cases negative <;> simp [readNumber, digitRun, hminus, hdigit, hrun]

theorem isFinite_of_specialWord? {x : Float} (h : specialWord? x = none) : Number.isFinite x = true := by
  unfold specialWord? at h
  unfold Number.isFinite
  split at h
  · cases h
  · cases h
  · rename_i hfloat
    rw [hfloat]

variable {l : Layout} (hfinite : l.finiteOnly = true)

include hfinite

theorem readNumber_written {n : Number} (hprint : ∀ x, n = .float x → double? (Binary.text x) = some x)
    {cs : List Char} (h : writeNumber l n = .ok cs) :
    ∃ (negative : Bool) (w : Written), cs = (if negative then ['-'] else []) ++ w.text ∧
      ∀ rest, Ended rest → readNumber (cs ++ rest) = .ok (.num n, rest) := by
  cases n with
  | int i =>
    simp only [writeNumber, Number.intText] at h
    split at h
    · cases h
    · rename_i hshort
      have hlength := Number.length_decimalDigits (by decide) (Nat.lt_of_not_le hshort)
      have hwritten : cs = (if decide (i < 0) then ['-'] else []) ++ Text.decimalDigits i.natAbs := by
        by_cases hi : i < 0 <;> simpa [hi] using (Except.ok.inj h).symm
      have hplain : Written.Plain ⟨_, [], [], isDigits_decimalDigits i.natAbs, .none, .none⟩ := by
        intro hzero
        rw [Text.head?_decimalDigits hzero]
        rfl
      refine ⟨decide (i < 0), ⟨_, [], [], isDigits_decimalDigits i.natAbs, .none, .none⟩, ?_, ?_⟩
      · simpa [Written.text] using hwritten
      · intro rest hrest
        have hread := readNumber_append (decide (i < 0)) hplain hrest
        have hvalue : signed (decide (i < 0)) i.natAbs = i := by
          by_cases hi : i < 0
          · simp only [signed, hi, decide_true, ↓reduceIte]
            omega
          · simp only [signed, hi, decide_false, Bool.false_eq_true, ↓reduceIte]
            omega
        simp only [Written.text, List.append_nil, List.nil_append] at hread
        rw [hwritten, List.append_assoc, hread, finishNumber_integer hrest hlength, valueOf_decimalDigits, hvalue]
  | float x =>
    have hread := hprint x rfl
    obtain ⟨hx, htext⟩ : Number.isFinite x = true ∧ Binary.text x = cs := by
      simp only [writeNumber] at h
      split at h
      · exact ⟨isFinite_of_specialWord? ‹_›, Except.ok.inj h⟩
      · simp [writeSpecial, hfinite] at h
    obtain ⟨negative, d, hd⟩ := Binary.text_eq hx
    obtain ⟨w, hdouble, hw⟩ := d.text_written
    rw [hw] at hd
    have hmagnitude : magnitude? negative w.text = some x := by
      rw [hd] at hread
      cases negative with
      | true => exact w.double?_minus ▸ hread
      | false => exact w.double?_text ▸ hread
    refine ⟨negative, w, htext ▸ hd, fun rest hrest => ?_⟩
    rw [← htext, hd, List.append_assoc, readNumber_append negative (w.plain_of_text hw) hrest,
      finishNumber_double hrest hdouble hmagnitude]
  | unknown mark => simp [writeNumber, writeSpecial, hfinite] at h

end Json

end RoutineFlow
