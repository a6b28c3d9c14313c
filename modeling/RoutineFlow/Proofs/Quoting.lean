import Mathlib.Data.List.TakeWhile
import RoutineFlow.Expr.Lexer
import RoutineFlow.Expr.Literal
import RoutineFlow.Json.Writer

/-!
Quoted texts of documents are read as literals of expressions. Both know the same escapes by their letters, and control
characters are written by their numbers.
-/

namespace RoutineFlow.Expr

/-- The ways in which a character is written between quotation marks. -/
inductive Shown (c : Char) : List Char → Prop
  | plain : 0x20 ≤ c.toNat → c ≠ '"' → c ≠ '\\' → Shown c [c]
  | letter {d : Char} : d ∈ ['"', '\\', 'n', 'r', 't', 'b', 'f'] → Literal.simple? d = some c →
      Shown c ['\\', d]
  | unit : c.toNat < 0x20 → Shown c ('\\' :: 'u' :: Text.hexDigits 4 c.toNat)

theorem shown_escapeChar (c : Char) : Shown c (Json.escapeChar false c) := by
  unfold Json.escapeChar
  split
  · rename_i h
    rcases h with rfl | rfl
    · exact .letter (by simp) rfl
    · exact .letter (by simp) rfl
  rename_i hmark
  rw [not_or] at hmark
  split
  · rename_i h
    subst h
    exact .letter (by simp) rfl
  split
  · rename_i h
    subst h
    exact .letter (by simp) rfl
  split
  · rename_i h
    subst h
    exact .letter (by simp) rfl
  split
  · rename_i h
    subst h
    exact .letter (by simp) rfl
  split
  · rename_i h
    subst h
    exact .letter (by simp) rfl
  split
  · rename_i h
    exact .unit h
  · rename_i h
    simp only [Bool.false_eq_true, false_and, ↓reduceIte]
    exact .plain (by omega) hmark.1 hmark.2

theorem hexDigits_control {n : Nat} (h : n < 0x20) :
    (∀ c ∈ Text.hexDigits 4 n, (Text.hexValue? c).isSome = true ∧ 0x20 ≤ c.toNat ∧ c ≠ '"' ∧ c ≠ '\\') ∧
      (Text.hexDigits 4 n).length = 4 ∧ Literal.hexNumber (Text.hexDigits 4 n) = n := by
  have hall : ((Text.hexDigits 4 n).all fun c =>
      (Text.hexValue? c).isSome && decide (0x20 ≤ c.toNat) && c != '"' && c != '\\') = true := by
    revert n
    decide
  have hvalue : (Text.hexDigits 4 n).length = 4 ∧ Literal.hexNumber (Text.hexDigits 4 n) = n := by
    revert n
    decide
  refine ⟨?_, hvalue⟩
  intro c hc
  simpa [and_assoc] using List.all_eq_true.mp hall c hc

namespace Shown

variable {c : Char} {piece : List Char}

theorem visible (h : Shown c piece) : ∀ d ∈ piece, 0x20 ≤ d.toNat := by
  cases h with
  | plain hc _ _ => simpa using hc
  | letter hd _ =>
    have hletters : (['"', '\\', 'n', 'r', 't', 'b', 'f'].all fun d => decide (0x20 ≤ d.toNat)) = true := by
      decide
    simpa using List.all_eq_true.mp hletters _ hd
  | unit hc =>
    have hdigits := (hexDigits_control hc).1
    intro d hd
    simp only [List.mem_cons] at hd
    rcases hd with rfl | rfl | hd
    · decide
    · decide
    · exact (hdigits d hd).2.1

end Shown

namespace Lexer

theorem quotedRest_plain {piece : List Char} (h : ∀ c ∈ piece, c ≠ '"' ∧ c ≠ '\\') (rest : List Char) :
    quotedRest '"' false (piece ++ rest) = (quotedRest '"' false rest).map (piece ++ ·) := by
  induction piece with
  | nil => simp
  | cons c piece ih =>
    obtain ⟨hc, hpiece⟩ := List.forall_mem_cons.mp h
    have hslash : (c == '\\') = false := beq_false_of_ne hc.2
    simp [quotedRest, hc.1, hslash, ih hpiece, Function.comp_def]

theorem quotedRest_shown {c : Char} {piece : List Char} (h : Shown c piece) (rest : List Char) :
    quotedRest '"' false (piece ++ rest) = (quotedRest '"' false rest).map (piece ++ ·) := by
  cases h with
  | plain _ hquote hslash => exact quotedRest_plain (by simp [hquote, hslash]) rest
  | @letter d hd _ =>
    have hbreak : d ≠ '\n' := by
      rintro rfl
      revert hd
      decide
    simp [quotedRest, hbreak, Function.comp_def]
  | unit hc =>
    have hdigits := quotedRest_plain (fun d hd => ((hexDigits_control hc).1 d hd).2.2) rest
    simp [quotedRest, hdigits, Function.comp_def]

theorem quotedRest_body (cs rest : List Char) :
    quotedRest '"' false (cs.flatMap (Json.escapeChar false) ++ '"' :: rest) =
      some (cs.flatMap (Json.escapeChar false) ++ ['"']) := by
  induction cs with
  | nil => rfl
  | cons c cs ih =>
    rw [List.flatMap_cons, List.append_assoc, quotedRest_shown (shown_escapeChar c), ih]
    simp

theorem quoted?_writeText (cs rest : List Char) :
    quoted? (Json.writeText false cs ++ rest) = some (Json.writeText false cs) := by
  have hbody := quotedRest_body cs rest
  simp [Json.writeText, quoted?, hbody]

end Lexer

namespace Literal

theorem unifyLineEnds_eq {cs : List Char} (h : ∀ c ∈ cs, 0x20 ≤ c.toNat) : Text.unifyLineEnds cs = cs := by
  induction cs with
  | nil => rfl
  | cons c cs ih =>
    obtain ⟨hc, hcs⟩ := List.forall_mem_cons.mp h
    have hreturn : c ≠ '\r' := by
      rintro rfl
      revert hc
      decide
    rw [Text.unifyLineEnds, ih hcs]
    · rintro - heq
      exact absurd heq hreturn
    · intro heq
      exact absurd heq hreturn

theorem bareLineBreak?_eq {cs : List Char} (h : ∀ c ∈ cs, 0x20 ≤ c.toNat) (line : Nat) (escaped : Bool) :
    bareLineBreak? line escaped cs = none := by
  induction cs generalizing escaped with
  | nil => rfl
  | cons c cs ih =>
    obtain ⟨hc, hcs⟩ := List.forall_mem_cons.mp h
    have hbreak : c ≠ '\n' := by
      rintro rfl
      revert hc
      decide
    simp [bareLineBreak?, hbreak, ih hcs]

theorem unescape_skip [CharNames] (line place : Nat) (read rest : List Char) :
    unescape line place read.length (read ++ rest) = unescape line (place + widths read) 0 rest := by
  induction read generalizing place with
  | nil => rfl
  | cons c read ih =>
    rw [List.length_cons, List.cons_append, unescape, ih, widths, Nat.add_assoc]

theorem hexEscape_control {c : Char} (h : c.toNat < 0x20) (what : Escape) (rest : List Char) :
    hexEscape 4 what (Text.hexDigits 4 c.toNat ++ rest) = .ok ([c], 5) := by
  obtain ⟨hdigits, hlength, hvalue⟩ := hexDigits_control h
  have htake : (Text.hexDigits 4 c.toNat ++ rest).take 4 = Text.hexDigits 4 c.toNat := by
    exact List.take_left' hlength
  have hall : (Text.hexDigits 4 c.toNat).takeWhile (fun c => (Text.hexValue? c).isSome) =
      Text.hexDigits 4 c.toNat :=
    List.takeWhile_eq_self_iff.mpr fun d hd => (hdigits d hd).1
  have hunit : Json.unitChar c.toNat = c := by
    have hhigh : Json.isHighHalf c.toNat = false := by
      simp only [Json.isHighHalf, Bool.and_eq_false_iff, decide_eq_false_iff_not]
      omega
    have hlow : Json.isLowHalf c.toNat = false := by
      simp only [Json.isLowHalf, Bool.and_eq_false_iff, decide_eq_false_iff_not]
      omega
    simp [Json.unitChar, Json.isHalf, hhigh, hlow]
  have hrange : ¬ c.toNat > 0x10FFFF := by omega
  simp [hexEscape, htake, hall, hlength, hvalue, hunit, hrange]

theorem unescape_escape [CharNames] {c : Char} {read rest : List Char}
    (h : escape (read ++ rest) = .ok ([c], read.length)) (line place : Nat) :
    ∃ place', unescape line place 0 ('\\' :: (read ++ rest)) =
      (unescape line place' 0 rest).map (c :: ·) := by
  simp only [unescape, ↓reduceIte, h, unescape_skip]
  exact ⟨_, rfl⟩

theorem unescape_shown [CharNames] {c : Char} {piece : List Char} (h : Shown c piece) (line place : Nat)
    (rest : List Char) :
    ∃ place', unescape line place 0 (piece ++ rest) = (unescape line place' 0 rest).map (c :: ·) := by
  -- The place is only told in messages, so it does not matter how far it moves.
  cases h with
  | plain _ _ hslash =>
    refine ⟨place + width c, ?_⟩
    simp [unescape, hslash]
  | @letter d hd hsimple =>
    have hescape : escape ([d] ++ rest) = .ok ([c], [d].length) := by
      simp only [List.mem_cons, List.not_mem_nil, or_false] at hd
      rcases hd with rfl | rfl | rfl | rfl | rfl | rfl | rfl <;> cases hsimple <;> rfl
    exact unescape_escape hescape line place
  | unit hc =>
    have hlength : ('u' :: Text.hexDigits 4 c.toNat).length = 5 := by
      rw [List.length_cons, (hexDigits_control hc).2.1]
    have hescape : escape (('u' :: Text.hexDigits 4 c.toNat) ++ rest) =
        .ok ([c], ('u' :: Text.hexDigits 4 c.toNat).length) := by
      rw [hlength, List.cons_append, escape, hexEscape_control hc]
    exact unescape_escape hescape line place

theorem unescape_body [CharNames] (cs : List Char) (line place : Nat) :
    unescape line place 0 (cs.flatMap (Json.escapeChar false)) = .ok cs := by
  induction cs generalizing place with
  | nil => rfl
  | cons c cs ih =>
    obtain ⟨place', hread⟩ :=
      unescape_shown (shown_escapeChar c) line place (cs.flatMap (Json.escapeChar false))
    rw [List.flatMap_cons, hread, ih]
    rfl

theorem text_writeText [CharNames] (cs : List Char) : text (Json.writeText false cs) = .ok cs := by
  have hvisible : ∀ c ∈ Json.writeText false cs, 0x20 ≤ c.toNat := by
    have hbody : ∀ c ∈ cs.flatMap (Json.escapeChar false), 0x20 ≤ c.toNat := by
      intro c hc
      obtain ⟨d, -, hd⟩ := List.mem_flatMap.mp hc
      exact (shown_escapeChar d).visible c hd
    have hquote : 0x20 ≤ '"'.toNat := by decide
    simpa [Json.writeText, hquote, or_imp, forall_and] using hbody
  have hnull : (Json.writeText false cs).contains '\x00' = false := by
    rw [List.contains_eq_mem, decide_eq_false_iff_not]
    intro hmem
    have hle := hvisible _ hmem
    revert hle
    decide
  have hbody : ((Json.writeText false cs).drop 1).dropLast = cs.flatMap (Json.escapeChar false) := by
    simp [Json.writeText]
  simp only [text, unifyLineEnds_eq hvisible, hnull, bareLineBreak?_eq hvisible, hbody]
  exact unescape_body cs _ 0

end Literal

end RoutineFlow.Expr
