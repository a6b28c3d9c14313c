import RoutineFlow.Expr.Eval
import RoutineFlow.Expr.Lexer
import RoutineFlow.Expr.Literal
import RoutineFlow.Json.Writer
import RoutineFlow.Proofs.Double

namespace RoutineFlow

namespace Numeral

def IsDigits (cs : List Char) : Prop :=
  cs ≠ [] ∧ ∀ c ∈ cs, c.isDigit = true

/-- A point with digits behind it, or nothing. -/
inductive IsFraction : List Char → Prop
  | none : IsFraction []
  | point {digits : List Char} : IsDigits digits → IsFraction ('.' :: digits)

/-- An exponent with its sign, or nothing. -/
inductive IsExponent : List Char → Prop
  | none : IsExponent []
  | scale {mark : Char} {digits : List Char} :
      mark = '+' ∨ mark = '-' → IsDigits digits → IsExponent ('e' :: mark :: digits)

/-- The numerals that numbers are written by. -/
structure Written where
  whole : List Char
  fraction : List Char
  exponent : List Char
  isWhole : IsDigits whole
  isFraction : IsFraction fraction
  isExponent : IsExponent exponent

namespace Written

def text (w : Written) : List Char :=
  w.whole ++ w.fraction ++ w.exponent

def IsDouble (w : Written) : Prop :=
  w.fraction ≠ [] ∨ w.exponent ≠ []

end Written

theorem isDigits_singleton {c : Char} (h : c.isDigit = true) : IsDigits [c] := by
  refine ⟨by simp, ?_⟩
  intro d hd
  rwa [List.mem_singleton.mp hd]

theorem isDigits_append {cs cs' : List Char} (h : ∀ c ∈ cs, c.isDigit = true)
    (h' : ∀ c ∈ cs', c.isDigit = true) (hne : cs ≠ [] ∨ cs' ≠ []) : IsDigits (cs ++ cs') := by
  constructor
  · rcases hne with hne | hne <;> simp [hne]
  · intro c hc
    rcases List.mem_append.mp hc with hc | hc
    · exact h c hc
    · exact h' c hc

theorem isDigits_decimalDigits (n : Nat) : IsDigits (Text.decimalDigits n) :=
  ⟨Nat.toDigits_ne_nil, fun _ hc => Nat.isDigit_of_mem_toDigits (by decide) (by decide) hc⟩

theorem isDigit_of_mem_replicate (n : Nat) : ∀ c ∈ List.replicate n '0', c.isDigit = true := by
  intro c hc
  rw [List.eq_of_mem_replicate hc]
  rfl

theorem valueOf_decimalDigits (n : Nat) : valueOf (Text.decimalDigits n) = n :=
  Nat.ofDigitChars_ten_toDigits

theorem digitRun_append {digits rest : List Char} (hdigits : ∀ c ∈ digits, c.isDigit = true)
    (hrest : ∀ c ∈ rest.head?, c.isDigit = false) : digitRun (digits ++ rest) = (digits, rest) := by
  unfold digitRun
  rw [List.takeWhile_append_of_pos hdigits, List.dropWhile_append_of_pos hdigits]
  cases rest with
  | nil => simp
  | cons c rest =>
    have hc : c.isDigit = false := hrest c rfl
    simp [hc]

theorem toNat_of_isDigit {c : Char} (h : c.isDigit = true) : 48 ≤ c.toNat ∧ c.toNat ≤ 57 :=
  Char.isDigit_iff_toNat.mp h

theorem toLower_of_isDigit {c : Char} (h : c.isDigit = true) : c.toLower = c := by
  have hrange := toNat_of_isDigit h
  have hupper : ¬ (c.val ≥ 'A'.val ∧ c.val ≤ 'Z'.val) := by
    rintro ⟨hle, -⟩
    have hnat := UInt32.le_iff_toNat_le.mp hle
    rw [Char.toNat_val, Char.toNat_val] at hnat
    have hA : 'A'.toNat = 65 := rfl
    omega
  rw [Char.toLower, dif_neg hupper]

theorem ne_of_isDigit {c d : Char} (h : c.isDigit = true) (hd : d.isDigit = false) : c ≠ d := by
  rintro rfl
  rw [h] at hd
  cases hd

/-- No numeral that starts with a digit is a word. -/
theorem magnitude?_eq {negative : Bool} {cs : List Char} (h : ∃ c ∈ cs.head?, c.isDigit = true) :
    magnitude? negative cs =
      (decimal? cs).map fun (digits, exponent) => Binary.nearestDecimal negative digits exponent := by
  obtain ⟨c, hc, hdigit⟩ := h
  cases cs with
  | nil => cases hc
  | cons d cs =>
    cases hc
    have hi : c ≠ 'i' := ne_of_isDigit hdigit rfl
    have hn : c ≠ 'n' := ne_of_isDigit hdigit rfl
    simp [magnitude?, toLower_of_isDigit hdigit, hi, hn]

theorem dropWhile_isSpace {cs : List Char} (h : ∀ c ∈ cs, isSpace c = false) : cs.dropWhile isSpace = cs := by
  cases cs with
  | nil => rfl
  | cons c cs => simp [h c List.mem_cons_self]

theorem strip_eq {cs : List Char} (h : ∀ c ∈ cs, isSpace c = false) : strip cs = cs := by
  have hreverse : ∀ c ∈ cs.reverse, isSpace c = false := by
    intro c hc
    exact h c (List.mem_reverse.mp hc)
  rw [strip, dropWhile_isSpace h, dropWhile_isSpace hreverse, List.reverse_reverse]

theorem ungroup_eq {cs : List Char} (h : ∀ c ∈ cs, c ≠ '_') (afterDigit : Bool) :
    ungroup afterDigit cs = some cs := by
  induction cs generalizing afterDigit with
  | nil => rfl
  | cons c cs ih =>
    obtain ⟨hc, hcs⟩ := List.forall_mem_cons.mp h
    rw [ungroup, ih hcs]
    · rfl
    · intro heq
      exact absurd heq hc

theorem normalize_eq {cs : List Char} (h : ∀ c ∈ cs, c.toNat < 128 ∧ isSpace c = false ∧ c ≠ '_') :
    normalize cs = some cs := by
  have hascii : cs.map asciiForm = cs := by
    have hform : ∀ c ∈ cs, asciiForm c = id c := by
      intro c hc
      simp [asciiForm, (h c hc).1]
    rw [List.map_congr_left hform, List.map_id]
  rw [normalize, hascii, strip_eq fun c hc => (h c hc).2.1, ungroup_eq fun c hc => (h c hc).2.2]

namespace Written

variable (w : Written)

theorem head_isDigit : ∃ c ∈ w.text.head?, c.isDigit = true := by
  obtain ⟨hne, hall⟩ := w.isWhole
  cases hwhole : w.whole with
  | nil => exact absurd hwhole hne
  | cons c cs =>
    refine ⟨c, by simp [text, hwhole], ?_⟩
    apply hall
    simp [hwhole]

theorem mem_text {c : Char} (h : c ∈ w.text) :
    c.isDigit = true ∨ c = '.' ∨ c = 'e' ∨ c = '+' ∨ c = '-' := by
  obtain ⟨whole, fraction, exponent, hwhole, hfraction, hexponent⟩ := w
  simp only [text, List.mem_append] at h
  rcases h with (h | h) | h
  · exact .inl (hwhole.2 c h)
  · cases hfraction with
    | none => cases h
    | point hdigits =>
      rcases List.mem_cons.mp h with h | h
      · exact .inr (.inl h)
      · exact .inl (hdigits.2 c h)
  · cases hexponent with
    | none => cases h
    | scale hmark hdigits =>
      simp only [List.mem_cons] at h
      rcases h with h | rfl | h
      · exact .inr (.inr (.inl h))
      · exact .inr (.inr (.inr hmark))
      · exact .inl (hdigits.2 c h)

theorem plain_of_mem {c : Char} (h : c ∈ w.text) : c.toNat < 128 ∧ isSpace c = false ∧ c ≠ '_' := by
  rcases w.mem_text h with h | rfl | rfl | rfl | rfl
  · have hrange := toNat_of_isDigit h
    have hspace : isSpace c = false := by
      have hblank : c ≠ ' ' := ne_of_isDigit h rfl
      simp only [isSpace, Bool.or_eq_false_iff, Bool.and_eq_false_iff, decide_eq_false_iff_not,
        beq_eq_false_iff_ne]
      refine ⟨?_, hblank⟩
      omega
    exact ⟨by omega, hspace, ne_of_isDigit h rfl⟩
  · decide
  · decide
  · decide
  · decide

theorem sign_text : sign w.text = (false, w.text) := by
  obtain ⟨c, hc, hdigit⟩ := w.head_isDigit
  have hplus : c ≠ '+' := ne_of_isDigit hdigit rfl
  have hminus : c ≠ '-' := ne_of_isDigit hdigit rfl
  cases htext : w.text with
  | nil => simp [htext] at hc
  | cons d cs =>
    simp only [htext, List.head?_cons, Option.mem_some_iff] at hc
    subst hc
    simp [sign, hplus, hminus]

theorem double?_text : double? w.text = magnitude? false w.text := by
  rw [double?, normalize_eq fun c hc => w.plain_of_mem hc]
  simp [w.sign_text]

theorem double?_minus : double? ('-' :: w.text) = magnitude? true w.text := by
  have hplain : ∀ c ∈ '-' :: w.text, c.toNat < 128 ∧ isSpace c = false ∧ c ≠ '_' := by
    rw [List.forall_mem_cons]
    exact ⟨by decide, fun c hc => w.plain_of_mem hc⟩
  rw [double?, normalize_eq hplain]
  rfl

end Written

end Numeral

namespace Decimal

open Numeral

theorem text_written (d : Decimal) : ∃ w : Written, w.IsDouble ∧ d.text = w.text := by
  have hdigits := isDigits_decimalDigits d.digits
  have hzero : IsDigits ['0'] := isDigits_singleton rfl
  unfold text
  generalize Text.decimalDigits d.digits = digits at hdigits
  simp only
  split
  · exact ⟨⟨['0'], ['.', '0'], [], hzero, .point hzero, .none⟩, .inl (by simp), rfl⟩
  split
  · split
    · have hfraction := isDigits_append (isDigit_of_mem_replicate (-(digits.length + d.exponent)).toNat)
        hdigits.2 (.inr hdigits.1)
      exact ⟨⟨['0'], _, [], hzero, .point hfraction, .none⟩, .inl (by simp), by simp [Written.text]⟩
    split
    · have hwhole := isDigits_append hdigits.2
        (isDigit_of_mem_replicate (digits.length + d.exponent - digits.length).toNat) (.inl hdigits.1)
      exact ⟨⟨_, _, [], hwhole, .point hzero, .none⟩, .inl (by simp), by simp [Written.text]⟩
    · have hwhole : IsDigits (digits.take (digits.length + d.exponent).toNat) := by
        refine ⟨?_, fun c hc => hdigits.2 c (List.mem_of_mem_take hc)⟩
        rw [Ne, List.take_eq_nil_iff, not_or]
        exact ⟨by omega, hdigits.1⟩
      have hfraction : IsDigits (digits.drop (digits.length + d.exponent).toNat) := by
        refine ⟨?_, fun c hc => hdigits.2 c (List.mem_of_mem_drop hc)⟩
        rw [Ne, List.drop_eq_nil_iff]
        omega
      exact ⟨⟨_, _, [], hwhole, .point hfraction, .none⟩, .inl (by simp), by simp [Written.text]⟩
  · generalize digits.length + d.exponent - 1 = e
    have hplaces := isDigits_decimalDigits e.natAbs
    have hpadded := isDigits_append
      (isDigit_of_mem_replicate (2 - (Text.decimalDigits e.natAbs).length)) hplaces.2 (.inr hplaces.1)
    have hmark : (if e < 0 then '-' else '+') = '+' ∨ (if e < 0 then '-' else '+') = '-' := by
      split
      · exact .inr rfl
      · exact .inl rfl
    have hexponent := IsExponent.scale hmark hpadded
    match digits, hdigits with
    | [c], hdigits =>
      exact ⟨⟨[c], [], _, hdigits, .none, hexponent⟩, .inr (by simp), by simp [Written.text]⟩
    | c :: c' :: cs, hdigits =>
      obtain ⟨hc, hcs⟩ := List.forall_mem_cons.mp hdigits.2
      have hfraction : IsDigits (c' :: cs) := ⟨by simp, hcs⟩
      exact ⟨⟨[c], _, _, isDigits_singleton hc, .point hfraction, hexponent⟩, .inl (by simp),
        by simp [Written.text]⟩

end Decimal

namespace Binary

open Numeral

theorem text_written {x : Float} (h : Number.isFinite x = true) :
    ∃ w : Written, w.IsDouble ∧ (text x = w.text ∨ text x = '-' :: w.text) := by
  unfold Number.isFinite at h
  unfold text
  split at h
  · rename_i negative mantissa exponent hfloat
    obtain ⟨w, hdouble, hw⟩ := (Decimal.shortest mantissa exponent).text_written
    simp only [hfloat]
    cases negative with
    | true => exact ⟨w, hdouble, .inr (by rw [← hw]; rfl)⟩
    | false => exact ⟨w, hdouble, .inl (by rw [← hw]; rfl)⟩
  · cases h

theorem opposite_of_minus {w : Written} {x : Float} (h : double? ('-' :: w.text) = some x)
    (hfinite : Number.isFinite x = true) :
    ∃ y, double? w.text = some y ∧ Number.isFinite y = true ∧ -y = x := by
  rw [w.double?_minus, magnitude?_eq w.head_isDigit] at h
  rw [w.double?_text, magnitude?_eq w.head_isDigit]
  obtain ⟨⟨digits, exponent⟩, hdecimal, rfl⟩ := Option.map_eq_some_iff.mp h
  obtain ⟨hpositive, hopposite⟩ := neg_nearestDecimal hfinite
  exact ⟨_, by rw [hdecimal]; rfl, hpositive, hopposite⟩

end Binary

namespace Expr

open Numeral

/-- What may stand behind a value. -/
def Delimited (rest : List Char) : Prop :=
  ∀ c ∈ rest.head?, c = ',' ∨ c = ']' ∨ c = '}'

theorem Delimited.not_isDigit {rest : List Char} (h : Delimited rest) :
    ∀ c ∈ rest.head?, c.isDigit = false := by
  intro c hc
  rcases h c hc with rfl | rfl | rfl <;> rfl

namespace Lexer

theorem exponentPart_of_delimited {rest : List Char} (h : Delimited rest) : exponentPart rest = [] := by
  cases rest with
  | nil => rfl
  | cons c rest => rcases h c rfl with rfl | rfl | rfl <;> rfl

theorem exponentPart_append {exponent rest : List Char} (h : IsExponent exponent) (hrest : Delimited rest) :
    exponentPart (exponent ++ rest) = exponent := by
  cases h with
  | none => exact exponentPart_of_delimited hrest
  | @scale mark digits hmark hdigits =>
    have hrun := digitRun_append hdigits.2 hrest.not_isDigit
    obtain ⟨c, cs, rfl⟩ := List.exists_cons_of_ne_nil hdigits.1
    rw [List.cons_append] at hrun
    rcases hmark with rfl | rfl <;> simp [exponentPart, hrun]

theorem exponent_head {exponent rest : List Char} (h : IsExponent exponent) (hrest : Delimited rest) :
    ∀ c ∈ (exponent ++ rest).head?, c.isDigit = false ∧ c ≠ '.' := by
  intro c hc
  cases h with
  | none => rcases hrest c hc with rfl | rfl | rfl <;> decide
  | scale hmark hdigits =>
    cases hc
    decide

theorem numeral?_append (w : Written) {rest : List Char} (hrest : Delimited rest) :
    numeral? (w.text ++ rest) = some w.text := by
  obtain ⟨whole, fraction, exponent, hwhole, hfraction, hexponent⟩ := w
  have hhead := exponent_head hexponent hrest
  have hpart := exponentPart_append hexponent hrest
  have hne : whole.isEmpty = false := by simp [hwhole.1]
  -- The digits run up to the point, or without one up to the exponent or to what follows.
  unfold numeral?
  cases hfraction with
  | none =>
    have hrun := digitRun_append hwhole.2 fun c hc => (hhead c hc).1
    have htext : Written.text ⟨whole, [], exponent, hwhole, .none, hexponent⟩ ++ rest =
        whole ++ (exponent ++ rest) := by
      simp [Written.text]
    rw [htext, hrun]
    simp only
    split
    · rename_i hpoint
      exact absurd rfl (hhead '.' (by simp [hpoint])).2
    · simp [hne, hpart, Written.text]
  | @point digits hdigits =>
    have hrun := digitRun_append hdigits.2 fun c hc => (hhead c hc).1
    have hrun' : digitRun (whole ++ '.' :: (digits ++ (exponent ++ rest))) =
        (whole, '.' :: (digits ++ (exponent ++ rest))) := by
      apply digitRun_append hwhole.2
      intro c hc
      cases hc
      rfl
    have htext : Written.text ⟨whole, '.' :: digits, exponent, hwhole, .point hdigits, hexponent⟩ ++ rest =
        whole ++ '.' :: (digits ++ (exponent ++ rest)) := by
      simp [Written.text]
    rw [htext, hrun']
    simp [hrun, hne, hpart, Written.text]

end Lexer

namespace Literal

theorem number_of_isDouble {w : Written} {x : Float} (h : w.IsDouble) (hread : double? w.text = some x) :
    number w.text = .ok (.float x) := by
  have hany : (w.text.any fun c => c == '.' || c == 'e' || c == 'E') = true := by
    obtain ⟨whole, fraction, exponent, hwhole, hfraction, hexponent⟩ := w
    rw [List.any_eq_true]
    rcases h with h | h
    · cases hfraction with
      | none => exact absurd rfl h
      | point hdigits => exact ⟨'.', by simp [Written.text], rfl⟩
    · cases hexponent with
      | none => exact absurd rfl h
      | scale hmark hdigits => exact ⟨'e', by simp [Written.text], rfl⟩
  rw [w.double?_text] at hread
  simp [number, hany, hread]

theorem number_of_isDigits {digits : List Char} (h : IsDigits digits) (hlength : digits.length ≤ digitLimit) :
    number digits = .ok (.int (valueOf digits)) := by
  have hany : (digits.any fun c => c == '.' || c == 'e' || c == 'E') = false := by
    rw [List.any_eq_false]
    intro c hc
    have hdigit := h.2 c hc
    have hpoint : c ≠ '.' := ne_of_isDigit hdigit rfl
    have hsmall : c ≠ 'e' := ne_of_isDigit hdigit rfl
    have hlarge : c ≠ 'E' := ne_of_isDigit hdigit rfl
    simp [hpoint, hsmall, hlarge]
  have hshort : ¬ digits.length > digitLimit := by omega
  simp only [number, hany, Number.ofDigits, Number.integerOfDigits, hshort]
  rfl

end Literal

end Expr

namespace Number

open Numeral RoutineFlow.Expr

/-- Numbers that a document can show: no integer is too long, and no double is infinite. -/
def Exact : Number → Prop
  | .int i => i.natAbs < Nat.pow 10 digitLimit
  | .float x => isFinite x = true
  | .unknown _ => False

instance : DecidablePred Exact
  | .int i => inferInstanceAs (Decidable (i.natAbs < Nat.pow 10 digitLimit))
  | .float x => inferInstanceAs (Decidable (isFinite x = true))
  | .unknown _ => inferInstanceAs (Decidable False)

theorem ofResult_of_isFinite {x : Float} (h : isFinite x = true) : ofResult x = .float x := by
  unfold isFinite at h
  unfold ofResult
  split at h
  · rename_i hfloat
    rw [hfloat]
  · cases h

theorem length_decimalDigits {n limit : Nat} (hlimit : 0 < limit) (h : n < Nat.pow 10 limit) :
    (Text.decimalDigits n).length ≤ limit :=
  (Nat.length_toDigits_le_iff (by decide) hlimit).mpr h

theorem specialWord?_of_isFinite {x : Float} (h : isFinite x = true) : Json.specialWord? x = none := by
  unfold isFinite at h
  unfold Json.specialWord?
  split at h
  · rename_i hfloat
    rw [hfloat]
  · cases h

theorem negate_natAbs {i : Int} (h : i < 0) : negate (.int i.natAbs) = .int i := by
  rw [negate]
  congr 1
  omega

theorem eval_negative {bindings : Environment} {e : Expr} {m : Number}
    (h : eval bindings e = .ok (.num m)) :
    eval bindings (.unary .negative e) = .ok (.num m.negate) := by
  rw [eval, h]
  rfl

/-- What is written for a number is a numeral, perhaps behind a minus, and has the number for its value. -/
theorem written {n : Number} (hexact : n.Exact)
    (hprint : ∀ x, n = .float x → double? (Binary.text x) = some x) (bindings : Environment) :
    ∃ (w : Written) (m : Number), Literal.number w.text = .ok m ∧
      (Json.writeNumber .line n = .ok w.text ∧ eval bindings (.numeral m) = .ok (.num n) ∨
        Json.writeNumber .line n = .ok ('-' :: w.text) ∧
          eval bindings (.unary .negative (.numeral m)) = .ok (.num n)) := by
  cases n with
  | int i =>
    have hdigits := isDigits_decimalDigits i.natAbs
    have hread := Literal.number_of_isDigits hdigits (length_decimalDigits (by decide) hexact)
    rw [valueOf_decimalDigits] at hread
    have hshort : ¬ Nat.pow 10 digitLimit ≤ i.natAbs := Nat.not_le_of_lt hexact
    have hwritten : Json.writeNumber .line (.int i) =
        .ok (if i < 0 then '-' :: Text.decimalDigits i.natAbs else Text.decimalDigits i.natAbs) := by
      simp only [Json.writeNumber, intText, hshort]
      rfl
    refine ⟨⟨_, [], [], hdigits, .none, .none⟩, .int i.natAbs, by simpa [Written.text] using hread, ?_⟩
    have hvalue : eval bindings (.numeral (.int i.natAbs)) = .ok (.num (.int i.natAbs)) := rfl
    by_cases hi : i < 0
    · right
      rw [eval_negative hvalue, negate_natAbs hi]
      simp [hwritten, hi, Written.text]
    · left
      rw [hvalue, Int.natAbs_of_nonneg (Int.not_lt.mp hi)]
      simp [hwritten, hi, Written.text]
  | float x =>
    have hfinite : isFinite x = true := hexact
    have hread := hprint x rfl
    have hwritten : Json.writeNumber .line (.float x) = .ok (Binary.text x) := by
      rw [Json.writeNumber, specialWord?_of_isFinite hfinite]
    obtain ⟨w, hdouble, htext | htext⟩ := Binary.text_written hfinite
    · rw [htext] at hread hwritten
      refine ⟨w, .float x, Literal.number_of_isDouble hdouble hread, .inl ⟨hwritten, ?_⟩⟩
      simp [eval, finite, hfinite]
    · rw [htext] at hread hwritten
      obtain ⟨y, hy, hpositive, rfl⟩ := Binary.opposite_of_minus hread hfinite
      have hvalue : eval bindings (.numeral (.float y)) = .ok (.num (.float y)) := by
        simp [eval, finite, hpositive]
      refine ⟨w, .float y, Literal.number_of_isDouble hdouble hy, .inr ⟨hwritten, ?_⟩⟩
      rw [eval_negative hvalue, negate, ofResult_of_isFinite hfinite]
  | unknown mark => cases hexact

end Number

end RoutineFlow
