import RoutineFlow.Proofs.Portability

/-!
Expressions in parentheses are operands of every operator.
-/

namespace RoutineFlow.Expr

open Automaton (Shifts)
open Lexeme (place)

/-- Lexemes of a text in parentheses. -/
structure Grouped [CharNames] (source : String) (gap : List Char) (e : Expr) (lexemes : List Lexeme) : Prop where
  text : Lexeme.text lexemes = '(' :: (source.toList ++ ')' :: gap)
  spells : ∀ here, Spells .atom (place here lexemes) e
  -- state 4 is that behind an opening parenthesis, 31 that behind the expression there, 55 that behind both
  reading : ∀ following entered mid, Shifts .openParen entered (4 :: mid) →
    Reading following entered lexemes (55 :: 31 :: 4 :: mid)

theorem exists_grouped [CharNames] {source : String} {e : Expr} (h : parse source = .ok e) {gap : List Char}
    (hgap : ∀ c ∈ gap, Lexer.isIgnored c = true) : ∃ lexemes, Grouped source gap e lexemes := by
  obtain ⟨lead, inner, hsource, hlead, hportable⟩ := exists_portable h
  refine ⟨⟨.openParen, ['('], lead⟩ :: (inner ++ [⟨.closeParen, [')'], gap⟩]), ?_, fun here => ?_, ?_⟩
  · rw [hsource, Lexeme.text_cons, Lexeme.text_append]
    simp [Lexeme.text]
  · rw [place, Lexeme.place_append]
    exact .group rfl rfl (hportable.spells _)
  · intro following entered mid hopen
    have hgoto : Automaton.goto? 4 .conditional = some 31 := by decide
    have hstep : Automaton.step? 31 (.terminal .closeParen) = some 55 := by decide
    have hclose : Shifts .closeParen (31 :: 4 :: mid) (55 :: 31 :: 4 :: mid) := .of_step hstep
    refine .readable (Lexeme.readable_plain (by simp [Terminal.signs]) (by decide) hlead _) hopen ?_
    exact (hportable.fills (4 :: mid) 31 hgoto).close (.of_mem (by decide) hgap) hclose .done

theorem Grouped.at_start [CharNames] {source : String} {gap : List Char} {e : Expr} {lexemes : List Lexeme}
    (h : Grouped source gap e lexemes) (following : List Char) : Reading following [] lexemes [55, 31, 4] := by
  have hopen : Shifts .openParen [] [4] := .of_step (by decide)
  exact h.reading following [] [] hopen

section Operators

variable {source first second third word gap : String} {a b c e : Expr} {t : Terminal}

/-- The automaton passes from an operand in parentheses over the sign to another one. -/
def Between (t : Terminal) : Prop :=
  ∃ mid, Shifts t [55, 31, 4] mid ∧ Shifts .openParen mid (4 :: mid)

/-- The automaton passes over the sign to its operand in parentheses. -/
def Before (t : Terminal) : Prop :=
  ∃ mid, Shifts t [] mid ∧ Shifts .openParen mid (4 :: mid)

theorem between_all : ∀ t ∈ [Terminal.orWord, .orSign, .andWord, .andSign, .comparison, .product, .plus, .minus],
    Between t := by
  have hall : ∀ t ∈ [Terminal.orWord, .orSign, .andWord, .andSign, .comparison, .product, .plus, .minus],
      (Automaton.shift? t 16 [55, 31, 4]).any (fun mid => Automaton.shift? .openParen 1 mid == some (4 :: mid)) =
        true := by decide
  intro t ht
  obtain ⟨mid, hmid, hopen⟩ := (Option.any_eq_true _ _).mp (hall t ht)
  exact ⟨mid, .of_shift? 16 hmid, .of_shift? 1 (by simpa using hopen)⟩

theorem before_all : ∀ t ∈ [Terminal.notWord, .bang, .minus, .plus], Before t := by
  have hall : ∀ t ∈ [Terminal.notWord, .bang, .minus, .plus],
      (Automaton.shift? t 1 []).any (fun mid => Automaton.shift? .openParen 1 mid == some (4 :: mid)) = true := by
    decide
  intro t ht
  obtain ⟨mid, hmid, hopen⟩ := (Option.any_eq_true _ _).mp (hall t ht)
  exact ⟨mid, .of_shift? 1 hmid, .of_shift? 1 (by simpa using hopen)⟩

theorem parse_between [CharNames] {sign : List Char} (hfirst : parse first = .ok a) (hsecond : parse second = .ok b)
    (hsign : ∀ following, Lexeme.Readable ⟨t, sign, [' ']⟩ following) (hbetween : Between t)
    (hspells : ∀ left token right, token.terminal = t → token.text = sign → Spells .atom left a → Spells .atom right b →
      Spells .conditional (left ++ token :: right) e)
    (hsource : source.toList =
      '(' :: (first.toList ++ ')' :: ' ' :: (sign ++ ' ' :: '(' :: (second.toList ++ [')'])))) : parse source = .ok e := by
  obtain ⟨left, hleft⟩ := exists_grouped hfirst blank_space
  obtain ⟨right, hright⟩ := exists_grouped hsecond blank_nil
  obtain ⟨mid, hshifts, hopen⟩ := hbetween
  have hreading : Reading [] [] (left ++ ⟨t, sign, [' ']⟩ :: right) (55 :: 31 :: 4 :: mid) :=
    (hleft.at_start _).append (.readable (hsign _) hshifts (hright.reading _ _ _ hopen))
  refine hreading.parse_at_start ?_ fun here => ?_
  · rw [hsource, Lexeme.text_append, Lexeme.text_cons, hleft.text, hright.text]
    simp
  · rw [Lexeme.place_append, place]
    exact hspells _ _ _ rfl rfl (hleft.spells _) (hright.spells _)

theorem parse_prefixed [CharNames] {sign gap : List Char} (hoperand : parse first = .ok a)
    (hsign : ∀ following, Lexeme.Readable ⟨t, sign, gap⟩ ('(' :: following)) (hbefore : Before t)
    (hspells : ∀ token operand, token.terminal = t → Spells .atom operand a → Spells .conditional (token :: operand) e)
    (hsource : source.toList = sign ++ (gap ++ '(' :: (first.toList ++ [')']))) : parse source = .ok e := by
  obtain ⟨operand, hgrouped⟩ := exists_grouped hoperand blank_nil
  obtain ⟨mid, hshifts, hopen⟩ := hbefore
  have hreading : Reading [] [] (⟨t, sign, gap⟩ :: operand) (55 :: 31 :: 4 :: mid) := by
    refine .readable ?_ hshifts (hgrouped.reading _ _ _ hopen)
    rw [hgrouped.text]
    exact hsign _
  refine hreading.parse_at_start ?_ fun here => ?_
  · rw [hsource, Lexeme.text_cons, hgrouped.text]
  · exact hspells _ _ rfl (hgrouped.spells _)

theorem parse_conditional [CharNames] (hfirst : parse first = .ok a) (hsecond : parse second = .ok b)
    (hthird : parse third = .ok c) :
    parse ("(" ++ first ++ ") ? (" ++ second ++ ") : (" ++ third ++ ")") = .ok (.conditional a b c) := by
  obtain ⟨test, htest⟩ := exists_grouped hfirst blank_space
  obtain ⟨whenTrue, htrue⟩ := exists_grouped hsecond blank_space
  obtain ⟨whenFalse, hfalse⟩ := exists_grouped hthird blank_nil
  have hreading : Reading [] [] (test ++ ⟨.question, ['?'], [' ']⟩ :: (whenTrue ++ ⟨.colon, [':'], [' ']⟩ :: whenFalse))
      [55, 31, 4, 79, 65, 43, 19] := by
    have hquestion : Shifts .question [55, 31, 4] [43, 19] := .of_shift? 16 (by decide)
    have hcolon : Shifts .colon [55, 31, 4, 43, 19] [79, 65, 43, 19] := .of_shift? 16 (by decide)
    refine (htest.at_start _).append ?_
    refine .readable (Lexeme.readable_plain (by decide) (by decide) blank_space _) hquestion ?_
    refine (htrue.reading _ _ [43, 19] (.of_step (by decide))).append ?_
    refine .readable (Lexeme.readable_plain (by decide) (by decide) blank_space _) hcolon ?_
    exact hfalse.reading _ _ _ (.of_step (by decide))
  refine hreading.parse_at_start ?_ fun here => ?_
  · rw [Lexeme.text_append, Lexeme.text_cons, Lexeme.text_append, Lexeme.text_cons, htest.text, htrue.text, hfalse.text]
    simp
  · rw [Lexeme.place_append, place, Lexeme.place_append, place]
    exact .conditional rfl rfl ((htest.spells _).loosen 8 rfl) ((htrue.spells _).loosen 9 rfl)
      ((hfalse.spells _).loosen 9 rfl)

theorem parse_index [CharNames] (hfirst : parse first = .ok a) (hsecond : parse second = .ok b) :
    parse ("(" ++ first ++ ")[" ++ second ++ "]") = .ok (.index a b) := by
  obtain ⟨target, htarget⟩ := exists_grouped hfirst blank_nil
  obtain ⟨lead, inner, htext, hlead, hportable⟩ := exists_portable hsecond
  have hreading : Reading [] [] (target ++ ⟨.openBracket, ['['], lead⟩ :: (inner ++ [⟨.closeBracket, [']'], []⟩]))
      [80, 68, 46, 20] := by
    refine (htarget.at_start _).append ?_
    have hopen : Shifts .openBracket [55, 31, 4] [46, 20] := .of_shift? 16 (by decide)
    refine .readable (Lexeme.readable_plain (by simp [Terminal.signs]) (by decide) hlead _) hopen ?_
    exact (hportable.fills [46, 20] 68 (by decide)).close (.of_mem (by decide) blank_nil)
      (.of_step (by decide)) .done
  refine hreading.parse_at_start ?_ fun here => ?_
  · rw [Lexeme.text_append, Lexeme.text_cons, Lexeme.text_append, htarget.text]
    simp [Lexeme.text, htext]
  · rw [Lexeme.place_append, place, Lexeme.place_append]
    exact Spells.loosen (.index rfl rfl ((htarget.spells _).loosen 1 rfl) (hportable.spells _)) 8 rfl

theorem parse_member [CharNames] {x : String} (hfirst : parse first = .ok a) (hx : IsIdentifier x) :
    parse ("(" ++ first ++ ")." ++ x) = .ok (.member a x) := by
  obtain ⟨target, htarget⟩ := exists_grouped hfirst blank_nil
  have hreading : Reading [] [] (target ++ [⟨.dot, ['.'], []⟩, ⟨.name, x.toList, []⟩]) [67, 45, 20] := by
    have hdot : Shifts .dot [55, 31, 4] [45, 20] := .of_shift? 16 (by decide)
    -- no keyword is looked for behind a point, so that every word is a name there
    have hkey : ∀ t ∈ Automaton.accepted 45, t.keyword? = none := by decide
    refine (htarget.at_start _).append (.readable ?_ hdot ?_)
    · refine Lexeme.readable_mark (by decide) blank_nil (by simp) fun _ => ?_
      obtain ⟨c, u, hword, hc⟩ := Lexer.name_head hx
      simpa [Lexeme.text, hword] using Lexer.not_isDigit_of_isNameStart hc
    · exact .identifier hx (fun t ht => by simp [hkey t ht]) blank_nil (by simp [Lexeme.text])
        (.of_step (by decide)) .done
  refine hreading.parse_at_start ?_ fun here => ?_
  · rw [Lexeme.text_append, htarget.text]
    simp [Lexeme.text]
  · rw [Lexeme.place_append, place, place, place]
    have hmember (dot word : Token) (hdot : dot.terminal = .dot) (hname : word.terminal = .name)
        (hword : word.text = x.toList) : Spells .suffixed (place here target ++ [dot, word]) (.member a x) := by
      rw [← keyText_eq hword]
      exact .member hdot hname ((htarget.spells here).loosen 1 rfl)
    exact (hmember _ _ rfl rfl rfl).loosen 8 rfl

end Operators

end RoutineFlow.Expr
