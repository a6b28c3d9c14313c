import RoutineFlow.Proofs.Numerals
import RoutineFlow.Proofs.Parsing

/-!
The token that is read at the start of a text does not depend on what stands behind a break: a blank, or a sign that no
token goes on with.
-/

namespace RoutineFlow.Expr.Lexer

/-- Ignored characters, and signs that end an expression. No token goes on with one, quoted texts apart. -/
def IsBreak (c : Char) : Prop :=
  isIgnored c ∨ c ∈ [')', ']', '}', ',']

section Runs

variable {p : Char → Bool} {u v y z : List Char} {b c : Char}

theorem takeWhile_break (h : (u ++ y).takeWhile p <+: u) (hb : p b = false) :
    (u ++ b :: z).takeWhile p = (u ++ y).takeWhile p := by
  induction u with
  | nil => simpa [hb] using h
  | cons c u ih =>
    simp only [List.cons_append, List.takeWhile_cons] at h ⊢
    split
    · rw [if_pos ‹_›] at h
      rw [ih (List.cons_prefix_cons.mp h).2]
    · rfl

theorem exists_run (p : Char → Bool) (v : List Char) :
    ∃ run rest, v = run ++ rest ∧ (∀ c ∈ run, p c = true) ∧ ∀ c ∈ rest.head?, p c = false := by
  refine ⟨v.takeWhile p, v.dropWhile p, List.takeWhile_append_dropWhile.symm, fun c hc => List.mem_takeWhile_imp hc, ?_⟩
  intro c hc
  have h := List.head?_dropWhile_not p v
  rw [Option.mem_def.mp hc] at h
  simpa using h

end Runs

namespace IsBreak

variable {b : Char}

theorem not_isNamePart (h : IsBreak b) : isNamePart b = false := by
  simp only [IsBreak, isIgnored, Bool.or_eq_true, beq_iff_eq, List.mem_cons, List.not_mem_nil, or_false] at h
  obtain ((((rfl | rfl) | rfl) | rfl) | rfl) | rfl | rfl | rfl | rfl := h <;> rfl

theorem not_isDigit (h : IsBreak b) : b.isDigit = false := by
  have hpart := h.not_isNamePart
  simp only [isNamePart, Char.isAlphanum, Bool.or_eq_false_iff] at hpart
  exact hpart.1.2

theorem not_mem (h : IsBreak b) :
    b ∉ ['.', 'e', 'E', '+', '-', '=', '!', '<', '>', '|', '&', '*', '/', '%', '?', ':', '(', '[', '{'] := by
  simp only [IsBreak, isIgnored, Bool.or_eq_true, beq_iff_eq, List.mem_cons, List.not_mem_nil, or_false] at h
  obtain ((((rfl | rfl) | rfl) | rfl) | rfl) | rfl | rfl | rfl | rfl := h <;> decide

end IsBreak

/-- What is read at the start of `v` in front of something is read also in front of something else, if it does not go
beyond `v`. If nothing is read, nothing is read then. -/
structure Kept {α : Type} (spelling : α → List Char) (v : List Char) (before after : Option α) : Prop where
  kept : ∀ a, before = some a → spelling a <+: v → after = some a
  missed : before = none → after = none

namespace Kept

variable {α β : Type} {spelling : α → List Char} {v : List Char} {x x' y y' : Option α}

theorem text {w w' : Option (List Char)} (hkept : ∀ word, w = some word → word <+: v → w' = some word)
    (hmissed : w = none → w' = none) : Kept id v w w' :=
  ⟨hkept, hmissed⟩

theorem nothing (spelling : α → List Char) (v : List Char) : Kept spelling v none none :=
  ⟨nofun, fun h => h⟩

theorem map {f : α → β} {spelling' : β → List Char} (h : Kept spelling v x x')
    (hf : ∀ a, spelling' (f a) = spelling a) : Kept spelling' v (x.map f) (x'.map f) where
  kept b hb hbegins := by
    obtain ⟨a, rfl, rfl⟩ := Option.map_eq_some_iff.mp hb
    rw [h.kept a rfl (by rwa [hf] at hbegins)]
    rfl
  missed hnone := by rw [h.missed (Option.map_eq_none_iff.mp hnone), Option.map_none]

theorem ite {p : Prop} [Decidable p] (h : Kept spelling v x x') :
    Kept spelling v (if p then x else none) (if p then x' else none) := by
  split
  · exact h
  · exact nothing _ _

theorem orElse (h : Kept spelling v x x') (h' : Kept spelling v y y') : Kept spelling v (x <|> y) (x' <|> y') := by
  cases x with
  | none =>
    rw [h.missed rfl]
    simpa using h'
  | some a =>
    constructor
    · rintro _ ⟨⟩ hbegins
      rw [h.kept a rfl hbegins]
      rfl
    · nofun

theorem findSome? {ι : Type} {f f' : ι → Option α} {candidates : List ι}
    (h : ∀ i ∈ candidates, Kept spelling v (f i) (f' i)) :
    Kept spelling v (candidates.findSome? f) (candidates.findSome? f') := by
  induction candidates with
  | nil => exact nothing _ _
  | cons i candidates ih =>
    obtain ⟨hfirst, hrest⟩ := List.forall_mem_cons.mp h
    rw [List.findSome?_cons, List.findSome?_cons]
    cases hi : f i with
    | none =>
      rw [hfirst.missed hi]
      exact ih hrest
    | some a =>
      constructor
      · rintro _ ⟨⟩ hbegins
        rw [hfirst.kept a hi hbegins]
      · nofun

end Kept

section Numerals

open Numeral (digitRun digitRun_append)

variable {v y z : List Char} {b : Char}

/-- The mark of an exponent with its digits, if it has any. -/
def withDigits (mark digits : List Char) : List Char :=
  if digits = [] then [] else mark ++ digits

theorem exponentPart_signed {e c : Char} (he : e = 'e' ∨ e = 'E') (hc : c = '+' ∨ c = '-') (after : List Char) :
    exponentPart (e :: c :: after) = withDigits [e, c] (after.takeWhile Char.isDigit) := by
  obtain rfl | rfl := hc
  all_goals
    simp only [exponentPart, if_pos he, digitRun, withDigits]
    cases after.takeWhile Char.isDigit <;> rfl

theorem exponentPart_unsigned {e : Char} {cs : List Char} (he : e = 'e' ∨ e = 'E')
    (hcs : ∀ c ∈ cs.head?, c ≠ '+' ∧ c ≠ '-') :
    exponentPart (e :: cs) = withDigits [e] (cs.takeWhile Char.isDigit) := by
  cases cs with
  | nil =>
    simp only [exponentPart, if_pos he]
    rfl
  | cons c cs =>
    obtain ⟨hplus, hminus⟩ := hcs c rfl
    simp only [exponentPart, if_pos he, digitRun, withDigits, List.cons.injEq, hplus, hminus, false_and, false_implies,
      implies_true]
    cases (c :: cs).takeWhile Char.isDigit <;> rfl

theorem exponentPart_other {e : Char} (he : ¬ (e = 'e' ∨ e = 'E')) (cs : List Char) : exponentPart (e :: cs) = [] := by
  unfold exponentPart
  simp only [if_neg he]

theorem withDigits_eq_nil {mark digits : List Char} (h : (withDigits mark digits).length ≤ mark.length) :
    withDigits mark digits = [] := by
  by_cases hnone : digits = []
  · rw [withDigits, if_pos hnone]
  · rw [withDigits, if_neg hnone, List.length_append] at h
    exact absurd (List.length_eq_zero_iff.mp (by omega)) hnone

theorem exponentPart_eq_nil {e : Char} (he : e = 'e' ∨ e = 'E') (h : (exponentPart (e :: y)).length ≤ 1) :
    exponentPart (e :: y) = [] := by
  cases y with
  | nil =>
    rw [exponentPart_unsigned he (by simp)]
    rfl
  | cons c y =>
    by_cases hc : c = '+' ∨ c = '-'
    · rw [exponentPart_signed he hc] at h ⊢
      exact withDigits_eq_nil (h.trans (by simp))
    · rw [exponentPart_unsigned he (by simpa [not_or] using hc)] at h ⊢
      exact withDigits_eq_nil h

theorem withDigits_break {mark u : List Char} (h : withDigits mark ((u ++ y).takeWhile Char.isDigit) <+: mark ++ u)
    (hb : IsBreak b) : (u ++ b :: z).takeWhile Char.isDigit = (u ++ y).takeWhile Char.isDigit := by
  refine takeWhile_break ?_ hb.not_isDigit
  by_cases hnone : (u ++ y).takeWhile Char.isDigit = []
  · rw [hnone]
    exact List.nil_prefix
  · rw [withDigits, if_neg hnone] at h
    exact (List.prefix_append_right_inj mark).mp h

theorem exponentPart_break {c : Char} {u : List Char} (h : exponentPart (c :: u ++ y) <+: c :: u) (hb : IsBreak b) :
    exponentPart (c :: u ++ b :: z) = exponentPart (c :: u ++ y) := by
  by_cases hc : c = 'e' ∨ c = 'E'
  · have hmark : b ≠ '+' ∧ b ≠ '-' := by
      constructor <;> rintro rfl <;> exact hb.not_mem (by simp)
    have hnone : exponentPart (c :: b :: z) = [] := by
      rw [exponentPart_unsigned hc (by simpa using hmark), List.takeWhile_cons, hb.not_isDigit]
      rfl
    cases u with
    | nil =>
      -- an exponent has a digit, for which there is no room
      have hempty : exponentPart (c :: y) = [] := exponentPart_eq_nil hc h.length_le
      simpa [hempty] using hnone
    | cons d u =>
      by_cases hd : d = '+' ∨ d = '-'
      · simp only [List.cons_append, exponentPart_signed hc hd] at h ⊢
        rw [withDigits_break h hb]
      · have hhead (w : List Char) : ∀ x ∈ (d :: u ++ w).head?, x ≠ '+' ∧ x ≠ '-' := by
          simpa [not_or] using hd
        have hsplit (w : List Char) : c :: d :: u ++ w = c :: (d :: u ++ w) := rfl
        rw [hsplit, exponentPart_unsigned hc (hhead _)] at h ⊢
        rw [hsplit, exponentPart_unsigned hc (hhead _)]
        have h' : withDigits [c] ((d :: u ++ y).takeWhile Char.isDigit) <+: [c] ++ (d :: u) := h
        rw [withDigits_break h' hb]
  · rw [List.cons_append, List.cons_append, exponentPart_other hc, exponentPart_other hc]

/-- A numeral with a point, given the digits in front of it. -/
def pointed (whole after : List Char) : Option (List Char) :=
  let fraction := after.takeWhile Char.isDigit
  if whole = [] ∧ fraction = [] then none
  else some (whole ++ '.' :: fraction ++ exponentPart (after.dropWhile Char.isDigit))

theorem numeral?_point {whole : List Char} (hwhole : ∀ c ∈ whole, c.isDigit = true) (after : List Char) :
    numeral? (whole ++ '.' :: after) = pointed whole after := by
  unfold numeral?
  rw [digitRun_append hwhole (by simp)]
  simp only [digitRun, pointed, Bool.and_eq_true, List.isEmpty_iff]

theorem numeral?_plain {whole rest : List Char} (hwhole : ∀ c ∈ whole, c.isDigit = true)
    (hrest : ∀ c ∈ rest.head?, c.isDigit = false ∧ c ≠ '.') :
    numeral? (whole ++ rest) = if whole = [] then none else some (whole ++ exponentPart rest) := by
  unfold numeral?
  rw [digitRun_append hwhole fun c hc => (hrest c hc).1]
  dsimp only
  split
  · exact absurd rfl (hrest '.' rfl).2
  · simp only [List.isEmpty_iff]

theorem no_point {rest : List Char} (hrest : ∀ c ∈ rest.head?, c.isDigit = false) (h : ¬ ∃ after, rest = '.' :: after) :
    ∀ c ∈ rest.head?, c.isDigit = false ∧ c ≠ '.' := by
  intro c hc
  refine ⟨hrest c hc, ?_⟩
  rintro rfl
  obtain ⟨after, rfl⟩ := List.head?_eq_some_iff.mp hc
  exact h ⟨after, rfl⟩

theorem pointed_append {whole fraction rest : List Char} (hfraction : ∀ c ∈ fraction, c.isDigit = true)
    (hrest : ∀ c ∈ rest.head?, c.isDigit = false) : pointed whole (fraction ++ rest) =
      if whole = [] ∧ fraction = [] then none else some (whole ++ '.' :: fraction ++ exponentPart rest) := by
  obtain ⟨htake, hdrop⟩ := Prod.mk.inj (digitRun_append hfraction hrest)
  simp only [pointed, htake, hdrop]

theorem exponentPart_of_break (hb : IsBreak b) : exponentPart (b :: z) = [] := by
  refine exponentPart_other ?_ z
  rintro (rfl | rfl) <;> exact hb.not_mem (by simp)

theorem kept_pointed (whole r : List Char) (hb : IsBreak b) :
    Kept id (whole ++ '.' :: r) (pointed whole (r ++ y)) (pointed whole (r ++ b :: z)) := by
  obtain ⟨d, u, rfl, hd, hu⟩ := exists_run Char.isDigit r
  cases u with
  | nil =>
    -- the digits of the fraction may have gone on behind `r`
    obtain ⟨d', w, rfl, hd', hw⟩ := exists_run Char.isDigit y
    have hall : ∀ c ∈ d ++ d', c.isDigit = true := List.forall_mem_append.mpr ⟨hd, hd'⟩
    rw [List.append_nil, ← List.append_assoc, pointed_append hall hw,
      pointed_append hd (by simpa using hb.not_isDigit), exponentPart_of_break hb]
    refine .text ?_ ?_
    · intro spelling h hbegins
      split at h
      · cases h
      · cases h
        -- the digits and the exponent that came from behind have to be empty
        have hlength := hbegins.length_le
        simp only [List.length_append, List.length_cons] at hlength
        have hd' : d' = [] := List.length_eq_zero_iff.mp (by omega)
        have hexponent : exponentPart w = [] := List.length_eq_zero_iff.mp (by omega)
        subst hd'
        rw [List.append_nil] at *
        rw [if_neg ‹_›, hexponent, List.append_nil, List.append_nil]
    · intro h
      split at h
      · rename_i hnone
        rw [if_pos ⟨hnone.1, (List.append_eq_nil_iff.mp hnone.2).1⟩]
      · cases h
  | cons c u =>
    have hhead (w : List Char) : ∀ x ∈ (c :: u ++ w).head?, x.isDigit = false := by simpa using hu
    rw [List.append_assoc, List.append_assoc, pointed_append hd (hhead _), pointed_append hd (hhead _)]
    refine .text ?_ ?_
    · intro spelling h hbegins
      split at h
      · cases h
      · cases h
        have hexponent : exponentPart (c :: u ++ y) <+: c :: u := by
          have hsplit : whole ++ '.' :: (d ++ c :: u) = (whole ++ '.' :: d) ++ (c :: u) := by simp
          rw [hsplit] at hbegins
          exact (List.prefix_append_right_inj _).mp hbegins
        rw [if_neg ‹_›, exponentPart_break hexponent hb]
    · intro h
      split at h
      · rw [if_pos ‹_›]
      · cases h

theorem kept_numeral {v : List Char} (hv : v ≠ []) (hb : IsBreak b) :
    Kept id v (numeral? (v ++ y)) (numeral? (v ++ b :: z)) := by
  obtain ⟨d, u, rfl, hd, hu⟩ := exists_run Char.isDigit v
  cases u with
  | nil =>
    rw [List.append_nil] at hv ⊢
    have hafter : numeral? (d ++ b :: z) = some d := by
      have hdot : b ≠ '.' := by
        rintro rfl
        exact hb.not_mem (by simp)
      rw [numeral?_plain hd (by simpa using ⟨hb.not_isDigit, hdot⟩), if_neg hv, exponentPart_of_break hb,
        List.append_nil]
    -- what is read holds the digits at least
    have hbefore : ∃ tail, numeral? (d ++ y) = some (d ++ tail) := by
      obtain ⟨d', w, rfl, hd', hw⟩ := exists_run Char.isDigit y
      have hall : ∀ c ∈ d ++ d', c.isDigit = true := List.forall_mem_append.mpr ⟨hd, hd'⟩
      have hne : d ++ d' ≠ [] := List.append_ne_nil_of_left_ne_nil hv d'
      rw [← List.append_assoc]
      by_cases hdot : ∃ after, w = '.' :: after
      · obtain ⟨after, rfl⟩ := hdot
        rw [numeral?_point hall, pointed, if_neg (fun h => hne h.1)]
        exact ⟨_, by rw [List.append_assoc, List.append_assoc]⟩
      · rw [numeral?_plain hall (no_point hw hdot), if_neg hne]
        exact ⟨_, by rw [List.append_assoc]⟩
    obtain ⟨tail, htail⟩ := hbefore
    refine .text ?_ ?_
    · intro spelling h hbegins
      rw [htail] at h
      cases h
      have hlength := hbegins.length_le
      have htail : tail = [] := by
        rw [List.length_append] at hlength
        exact List.length_eq_zero_iff.mp (by omega)
      rw [hafter, htail, List.append_nil]
    · intro h
      rw [htail] at h
      cases h
  | cons c u =>
    by_cases hdot : c = '.'
    · subst hdot
      rw [List.append_assoc, List.append_assoc, List.cons_append, List.cons_append, numeral?_point hd,
        numeral?_point hd]
      exact kept_pointed d u hb
    · have hhead (w : List Char) : ∀ x ∈ (c :: u ++ w).head?, x.isDigit = false ∧ x ≠ '.' := by
        simpa using ⟨hu c rfl, hdot⟩
      rw [List.append_assoc, List.append_assoc, numeral?_plain hd (hhead _), numeral?_plain hd (hhead _)]
      refine .text ?_ ?_
      · intro spelling h hbegins
        split at h
        · cases h
        · cases h
          rw [if_neg ‹_›, exponentPart_break ((List.prefix_append_right_inj d).mp hbegins) hb]
      · intro h
        split at h
        · rw [if_pos ‹_›]
        · cases h

end Numerals

section Words

variable {v y z : List Char} {b : Char}

theorem kept_name (hv : v ≠ []) (hb : IsBreak b) : Kept id v (name? (v ++ y)) (name? (v ++ b :: z)) := by
  obtain ⟨c, u, rfl⟩ := List.exists_cons_of_ne_nil hv
  simp only [List.cons_append, name?]
  by_cases hc : isNameStart c
  · simp only [hc, if_true]
    refine .text ?_ ?_
    · rintro spelling ⟨⟩ hbegins
      rw [takeWhile_break (List.cons_prefix_cons.mp hbegins).2 hb.not_isNamePart]
    · nofun
  · simp only [hc, Bool.false_eq_true, if_false]
    exact ⟨nofun, fun h => h⟩

theorem ne_nil_of_quotedRest {mark : Char} {escaped : Bool} {cs spelling : List Char}
    (h : quotedRest mark escaped cs = some spelling) : spelling ≠ [] := by
  rintro rfl
  cases cs with
  | nil => cases escaped <;> cases h
  | cons c cs =>
    cases escaped with
    | true => simp [quotedRest] at h
    | false =>
      rw [quotedRest] at h
      split at h <;> simp at h

theorem quotedRest_kept {mark : Char} {escaped : Bool} {u spelling : List Char}
    (h : quotedRest mark escaped (u ++ y) = some spelling) (hbegins : spelling <+: u) (rest : List Char) :
    quotedRest mark escaped (u ++ rest) = some spelling := by
  induction u generalizing escaped spelling with
  | nil => exact absurd (List.prefix_nil.mp hbegins) (ne_nil_of_quotedRest h)
  | cons c u ih =>
    cases escaped
    all_goals
      simp only [List.cons_append, quotedRest] at h ⊢
      split
      · rwa [if_pos ‹_›] at h
      · rw [if_neg ‹_›] at h
        obtain ⟨inner, hinner, rfl⟩ := Option.map_eq_some_iff.mp h
        rw [ih hinner (List.cons_prefix_cons.mp hbegins).2]
        rfl

theorem quoted?_kept {spelling : List Char} (h : quoted? (v ++ y) = some spelling) (hbegins : spelling <+: v)
    (hv : v ≠ []) (rest : List Char) : quoted? (v ++ rest) = some spelling := by
  obtain ⟨c, u, rfl⟩ := List.exists_cons_of_ne_nil hv
  rw [List.cons_append] at h ⊢
  unfold quoted? at h
  split at h
  all_goals rename_i hcons
  · cases hcons
    obtain ⟨inner, hinner, rfl⟩ := Option.map_eq_some_iff.mp h
    rw [quoted?, quotedRest_kept hinner (List.cons_prefix_cons.mp hbegins).2 rest]
    rfl
  · cases hcons
    obtain ⟨inner, hinner, rfl⟩ := Option.map_eq_some_iff.mp h
    rw [quoted?, quotedRest_kept hinner (List.cons_prefix_cons.mp hbegins).2 rest]
    rfl
  · cases h

theorem prefix_break {word : List Char} (hb : b ∉ word) : word <+: v ++ b :: z ↔ word <+: v := by
  induction v generalizing word with
  | nil =>
    cases word with
    | nil => simp
    | cons c word =>
      refine iff_of_false (fun h => hb ?_) (by simp)
      rw [(List.cons_prefix_cons.mp h).1]
      exact List.mem_cons_self
  | cons c v ih =>
    cases word with
    | nil => simp
    | cons d word => rw [List.cons_append, List.cons_prefix_cons, List.cons_prefix_cons, ih fun h => hb (.tail d h)]

theorem kept_word {α : Type} {spelling : α → List Char} {a : α} (hv : v ≠ []) (hb : b ∉ (spelling a).tail) :
    Kept spelling v (if (spelling a).isPrefixOf (v ++ y) then some a else none)
      (if (spelling a).isPrefixOf (v ++ b :: z) then some a else none) := by
  have hbreak : spelling a <+: v ++ b :: z ↔ spelling a <+: v := by
    obtain ⟨c, u, rfl⟩ := List.exists_cons_of_ne_nil hv
    cases hword : spelling a with
    | nil => simp
    | cons d word =>
      rw [hword, List.tail_cons] at hb
      rw [List.cons_append, List.cons_prefix_cons, List.cons_prefix_cons, prefix_break hb]
  simp only [List.isPrefixOf_iff_prefix, hbreak]
  constructor
  · intro _ h hbegins
    split at h
    · cases h
      rw [if_pos hbegins]
    · cases h
  · intro h
    split at h
    · cases h
    · rename_i hbegins
      rw [if_neg fun hv => hbegins (hv.trans (List.prefix_append v y))]

theorem IsBreak.not_mem_sign (hb : IsBreak b) {t : Terminal} {word : List Char} (hword : word ∈ t.signs) :
    b ∉ word.tail := by
  have hall : ∀ word ∈ t.signs, ∀ c ∈ word.tail, c ∈ ['=', '|', '&'] := by cases t <;> simp [Terminal.signs]
  intro hmem
  have hsign := hall word hword b hmem
  simp only [List.mem_cons, List.not_mem_nil, or_false] at hsign
  obtain rfl | rfl | rfl := hsign <;> exact hb.not_mem (by simp)

theorem IsBreak.not_mem_keyword (hb : IsBreak b) {t : Terminal} {word : List Char} (hword : t.keyword? = some word) :
    b ∉ word.tail := by
  have hall : ∀ word ∈ t.keyword?, ∀ c ∈ word.tail, isNamePart c = true := by
    cases t <;> simp [Terminal.keyword?] <;> decide
  intro hmem
  exact absurd (hall word hword b hmem) (by simp [hb.not_isNamePart])

theorem kept_sign (t : Terminal) (hv : v ≠ []) (hb : IsBreak b) :
    Kept id v (sign? t (v ++ y)) (sign? t (v ++ b :: z)) := by
  unfold sign?
  rw [← List.findSome?_guard, ← List.findSome?_guard]
  exact .findSome? fun word hword => kept_word hv (hb.not_mem_sign hword)

theorem kept_punctuation (accepted : List Terminal) (hv : v ≠ []) (hb : IsBreak b) :
    Kept Prod.snd v (punctuation? accepted (v ++ y)) (punctuation? accepted (v ++ b :: z)) :=
  .findSome? fun t _ => .ite ((kept_sign t hv hb).map fun _ => rfl)

theorem kept_keyword (accepted : List Terminal) (hv : v ≠ []) (hb : IsBreak b) :
    Kept Prod.snd v (keyword? accepted (v ++ y)) (keyword? accepted (v ++ b :: z)) := by
  refine .findSome? fun t _ => ?_
  cases hword : t.keyword? with
  | none => exact .nothing _ _
  | some word =>
    dsimp only
    by_cases haccepted : accepted.contains t
    · simp only [haccepted, Bool.true_and]
      have hkept := @kept_word v y z b _ Prod.snd (t, word) hv (hb.not_mem_keyword hword)
      exact hkept
    · simp only [haccepted, Bool.false_and]
      exact .nothing _ _

theorem scan?_unclosed {c : Char} {cs : List Char} (hc : c = '"' ∨ c = '\'') (h : quoted? (c :: cs) = none)
    (accepted : List Terminal) : scan? accepted (c :: cs) = none := by
  apply Option.eq_none_iff_forall_ne_some.mpr
  rintro ⟨t, spelling⟩ hscan
  have hdigit : c.isDigit = false := by obtain rfl | rfl := hc <;> rfl
  have hdot : c ≠ '.' := by obtain rfl | rfl := hc <;> decide
  rcases scan_eq_some hscan with ⟨-, -, h'⟩ | ⟨-, -, h'⟩ | ⟨-, -, h'⟩ | h' | h'
  · rw [← List.nil_append (c :: cs), numeral?_plain (by simp) (by simpa using ⟨hdigit, hdot⟩)] at h'
    cases h'
  · obtain rfl | rfl := hc <;> simp [name?, isNameStart] at h'
  · rw [h] at h'
    cases h'
  · obtain ⟨-, -, hword, hbegins⟩ := keyword_eq_some h'
    cases t <;> cases hword <;> obtain rfl | rfl := hc <;> simp at hbegins
  · obtain ⟨-, -, hsign, hbegins⟩ := punctuation_eq_some h'
    have hall : ∀ word ∈ t.signs, word.head? ≠ some c := by
      cases t <;> obtain rfl | rfl := hc <;> simp [Terminal.signs]
    obtain ⟨d, word, rfl⟩ := List.exists_cons_of_ne_nil (ne_nil_of_sign hsign)
    exact hall _ hsign (by rw [(List.cons_prefix_cons.mp hbegins).1]; rfl)

theorem kept_quoted (hv : v ≠ []) (hopen : quoted? (v ++ y) = none → quoted? (v ++ b :: z) = none) :
    Kept id v (quoted? (v ++ y)) (quoted? (v ++ b :: z)) :=
  .text (fun _ h hbegins => quoted?_kept h hbegins hv _) hopen

/-- A token is read as before when a break comes behind it, or anywhere after it. -/
theorem scan?_break {accepted : List Terminal} {t : Terminal} {spelling : List Char}
    (h : scan? accepted (v ++ y) = some (t, spelling)) (hbegins : spelling <+: v) (hb : IsBreak b) :
    scan? accepted (v ++ b :: z) = some (t, spelling) := by
  have hv : v ≠ [] := by
    rintro rfl
    exact ne_nil_of_scan h (List.prefix_nil.mp hbegins)
  -- a quotation mark that nothing closed may be closed behind the break, but then no token was read
  have hopen : quoted? (v ++ y) = none → quoted? (v ++ b :: z) = none := by
    intro hnone
    obtain ⟨c, u, rfl⟩ := List.exists_cons_of_ne_nil hv
    by_cases hc : c = '"' ∨ c = '\''
    · rw [List.cons_append] at h hnone
      rw [scan?_unclosed hc hnone] at h
      cases h
    · unfold quoted?
      split
      · exact absurd (.inl (List.cons.inj ‹_›).1) hc
      · exact absurd (.inr (List.cons.inj ‹_›).1) hc
      · rfl
  have hnumeral : Kept Prod.snd v ((numeral? (v ++ y)).map (Terminal.numeral, ·))
      ((numeral? (v ++ b :: z)).map (Terminal.numeral, ·)) := (kept_numeral hv hb).map fun _ => rfl
  have hname : Kept Prod.snd v ((name? (v ++ y)).map fun word => (nameTerminal accepted word, word))
      ((name? (v ++ b :: z)).map fun word => (nameTerminal accepted word, word)) :=
    (kept_name hv hb).map fun _ => rfl
  have htext : Kept Prod.snd v ((quoted? (v ++ y)).map (Terminal.text, ·))
      ((quoted? (v ++ b :: z)).map (Terminal.text, ·)) := (kept_quoted hv hopen).map fun _ => rfl
  have hkeyword : Kept Prod.snd v (if accepted.contains .name then none else keyword? accepted (v ++ y))
      (if accepted.contains .name then none else keyword? accepted (v ++ b :: z)) := by
    split
    · exact .nothing _ _
    · exact kept_keyword accepted hv hb
  have hscan : Kept Prod.snd v (scan? accepted (v ++ y)) (scan? accepted (v ++ b :: z)) :=
    hnumeral.ite.orElse (hname.ite.orElse (htext.ite.orElse (hkeyword.orElse (kept_punctuation accepted hv hb))))
  exact hscan.kept (t, spelling) h hbegins

end Words

section Beginnings

open Numeral (digitRun_append)

variable {cs spelling : List Char} {t : Terminal}

theorem withDigits_begins (mark after : List Char) :
    withDigits mark (after.takeWhile Char.isDigit) <+: mark ++ after := by
  unfold withDigits
  split
  · exact List.nil_prefix
  · exact (List.prefix_append_right_inj mark).mpr (List.takeWhile_prefix _)

theorem exponentPart_begins (cs : List Char) : exponentPart cs <+: cs := by
  match cs with
  | [] => exact List.nil_prefix
  | e :: cs =>
    by_cases he : e = 'e' ∨ e = 'E'
    · match cs with
      | [] =>
        rw [exponentPart_unsigned he (by simp)]
        exact withDigits_begins [e] []
      | c :: after =>
        by_cases hc : c = '+' ∨ c = '-'
        · rw [exponentPart_signed he hc]
          exact withDigits_begins [e, c] after
        · rw [exponentPart_unsigned he (by simpa [not_or] using hc)]
          exact withDigits_begins [e] (c :: after)
    · rw [exponentPart_other he]
      exact List.nil_prefix

theorem numeral?_begins (h : numeral? cs = some spelling) : spelling <+: cs := by
  obtain ⟨whole, rest, rfl, hwhole, hrest⟩ := exists_run Char.isDigit cs
  by_cases hdot : ∃ after, rest = '.' :: after
  · obtain ⟨after, rfl⟩ := hdot
    obtain ⟨fraction, rest, rfl, hfraction, hrest⟩ := exists_run Char.isDigit after
    rw [numeral?_point hwhole, pointed_append hfraction hrest] at h
    split at h
    · cases h
    · cases h
      have hsplit : whole ++ '.' :: (fraction ++ rest) = (whole ++ '.' :: fraction) ++ rest := by simp
      rw [hsplit]
      exact (List.prefix_append_right_inj _).mpr (exponentPart_begins rest)
  · rw [numeral?_plain hwhole (no_point hrest hdot)] at h
    split at h
    · cases h
    · cases h
      exact (List.prefix_append_right_inj _).mpr (exponentPart_begins rest)

theorem name?_begins (h : name? cs = some spelling) : spelling <+: cs := by
  unfold name? at h
  split at h
  · cases h
  · split at h
    · cases h
      exact List.cons_prefix_cons.mpr ⟨rfl, List.takeWhile_prefix _⟩
    · cases h

theorem prefix_of_quotedRest {mark : Char} {escaped : Bool} (h : quotedRest mark escaped cs = some spelling) :
    spelling <+: cs := by
  induction cs generalizing escaped spelling with
  | nil => cases escaped <;> cases h
  | cons c cs ih =>
    cases escaped with
    | false =>
      rw [quotedRest] at h
      split at h
      · cases h
        exact List.cons_prefix_cons.mpr ⟨rfl, List.nil_prefix⟩
      · obtain ⟨inner, hinner, rfl⟩ := Option.map_eq_some_iff.mp h
        exact List.cons_prefix_cons.mpr ⟨rfl, ih hinner⟩
    | true =>
      rw [quotedRest] at h
      split at h
      · cases h
      · obtain ⟨inner, hinner, rfl⟩ := Option.map_eq_some_iff.mp h
        exact List.cons_prefix_cons.mpr ⟨rfl, ih hinner⟩

theorem prefix_of_quoted (h : quoted? cs = some spelling) : spelling <+: cs := by
  unfold quoted? at h
  split at h
  · obtain ⟨inner, hinner, rfl⟩ := Option.map_eq_some_iff.mp h
    exact List.cons_prefix_cons.mpr ⟨rfl, prefix_of_quotedRest hinner⟩
  · obtain ⟨inner, hinner, rfl⟩ := Option.map_eq_some_iff.mp h
    exact List.cons_prefix_cons.mpr ⟨rfl, prefix_of_quotedRest hinner⟩
  · cases h

theorem scan?_begins {accepted : List Terminal} (h : scan? accepted cs = some (t, spelling)) : spelling <+: cs := by
  rcases scan_eq_some h with ⟨-, -, h⟩ | ⟨-, -, h⟩ | ⟨-, -, h⟩ | h | h
  · exact numeral?_begins h
  · exact name?_begins h
  · exact prefix_of_quoted h
  · exact (keyword_eq_some h).2.2.2
  · exact (punctuation_eq_some h).2.2.2

end Beginnings

end RoutineFlow.Expr.Lexer
