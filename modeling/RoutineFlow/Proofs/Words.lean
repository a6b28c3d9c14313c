import RoutineFlow.Proofs.Breaks
import RoutineFlow.Proofs.Lexemes

/-!
Signs, keywords and names are read as they are written, wherever they are looked for, in front of a text that does not
go on with them.
-/

namespace RoutineFlow.Expr

namespace Lexer

variable {accepted : List Terminal} {t : Terminal} {c : Char} {cs word rest : List Char}

/-- No numeral, name, keyword or quoted text starts with such a character. -/
structure IsMark (c : Char) : Prop where
  not_isDigit : c.isDigit = false
  not_isNameStart : isNameStart c = false
  not_quote : ¬ (c = '"' ∨ c = '\'')
  not_isIgnored : isIgnored c = false

theorem sign_head (hword : word ∈ t.signs) : ∃ c u, word = c :: u ∧ IsMark c := by
  have hall : ∀ word ∈ t.signs, ∃ c u, word = c :: u ∧ c.isDigit = false ∧ isNameStart c = false ∧
      ¬ (c = '"' ∨ c = '\'') ∧ isIgnored c = false := by
    cases t <;> simp [Terminal.signs, isNameStart, isIgnored]
  obtain ⟨c, u, rfl, hdigit, hname, hquote, hignored⟩ := hall word hword
  exact ⟨c, u, rfl, hdigit, hname, hquote, hignored⟩

theorem sign_point {u : List Char} (hword : '.' :: u ∈ t.signs) : t = .dot ∧ u = [] := by
  cases t <;> simp [Terminal.signs] at hword ⊢
  exact hword

theorem keyword_head (hword : t.keyword? = some word) : ∃ c u, word = c :: u ∧ isNameStart c = true := by
  cases t <;> cases hword <;> exact ⟨_, _, rfl, rfl⟩

theorem numeral?_of_not_isDigit (hdigit : c.isDigit = false) (hpoint : c = '.' → ∀ d ∈ cs.head?, d.isDigit = false) :
    numeral? (c :: cs) = none := by
  by_cases hdot : c = '.'
  · subst hdot
    have hpointed : pointed [] cs = none := @pointed_append [] [] cs (by simp) (hpoint rfl)
    exact (@numeral?_point [] (by simp) cs).trans hpointed
  · exact @numeral?_plain [] (c :: cs) (by simp) (by simpa using ⟨hdigit, hdot⟩)

theorem quoted?_of_not_quote (hc : ¬ (c = '"' ∨ c = '\'')) : quoted? (c :: cs) = none := by
  unfold quoted?
  split
  · exact absurd (.inl (List.cons.inj ‹_›).1) hc
  · exact absurd (.inr (List.cons.inj ‹_›).1) hc
  · rfl

/-- Where no numeral, name, keyword or text starts, a sign is read. -/
theorem scan?_eq_punctuation (hc : IsMark c) (hpoint : c = '.' → ∀ d ∈ cs.head?, d.isDigit = false) :
    scan? accepted (c :: cs) = punctuation? accepted (c :: cs) := by
  have hnumeral := numeral?_of_not_isDigit hc.not_isDigit hpoint
  have hname : name? (c :: cs) = none := by simp [name?, hc.not_isNameStart]
  have hquoted : quoted? (c :: cs) = none := quoted?_of_not_quote hc.not_quote
  have hkeyword : keyword? accepted (c :: cs) = none := by
    apply Option.eq_none_iff_forall_ne_some.mpr
    rintro ⟨t, word⟩ h
    obtain ⟨-, -, hword, hbegins⟩ := keyword_eq_some h
    obtain ⟨d, u, rfl, hd⟩ := keyword_head hword
    rw [(List.cons_prefix_cons.mp hbegins).1, hc.not_isNameStart] at hd
    cases hd
  simp [scan?, hnumeral, hname, hquoted, hkeyword]

theorem scan?_mark (hword : word ∈ t.signs) (h : t ∈ accepted)
    (hequal : t = .comparison ∨ t = .bang → rest.head? ≠ some '=')
    (hpoint : t = .dot → ∀ c ∈ rest.head?, c.isDigit = false) :
    scan? accepted (word ++ rest) = some (t, word) := by
  have hscan : scan? accepted (word ++ rest) = punctuation? accepted (word ++ rest) := by
    obtain ⟨c, u, rfl, hc⟩ := sign_head hword
    refine scan?_eq_punctuation hc ?_
    rintro rfl
    obtain ⟨rfl, rfl⟩ := sign_point hword
    exact hpoint rfl
  rw [hscan]
  have hgo : t = .comparison ∨ t = .bang → ∀ u, ('=' :: u).isPrefixOf rest = false := by
    intro ht u
    cases rest with
    | nil => rfl
    | cons c rest =>
      have hc : c ≠ '=' := fun hc => hequal ht (congrArg some hc)
      rw [List.isPrefixOf_cons_cons, beq_eq_false_iff_ne.mpr hc.symm, Bool.false_and]
  -- the signs are tried in turn, and only the comparisons begin like others
  cases t <;> simp only [Terminal.signs, List.mem_cons, List.not_mem_nil, or_false] at hword
  case comparison =>
    have hgo := hgo (.inl rfl)
    rcases hword with rfl | rfl | rfl | rfl | rfl | rfl | rfl | rfl <;>
      simp [punctuation?, Terminal.punctuation, sign?, Terminal.signs, h, hgo]
  case bang =>
    have hgo := hgo (.inr rfl)
    subst hword
    simp [punctuation?, Terminal.punctuation, sign?, Terminal.signs, h, hgo]
  case product =>
    rcases hword with rfl | rfl | rfl <;>
      simp [punctuation?, Terminal.punctuation, sign?, Terminal.signs, h]
  all_goals
    subst hword
    simp [punctuation?, Terminal.punctuation, sign?, Terminal.signs, h]

theorem not_isDigit_of_isNameStart (h : isNameStart c = true) : c.isDigit = false := by
  by_contra hdigit
  rw [Bool.not_eq_false] at hdigit
  simp only [isNameStart, Char.isAlpha, Char.isUpper, Char.isLower, Char.isDigit, Bool.or_eq_true, Bool.and_eq_true,
    decide_eq_true_eq, beq_iff_eq, UInt32.le_iff_toNat_le, ge_iff_le] at h hdigit
  obtain h | rfl := h
  · have hnine : '9'.val.toNat = 57 := rfl
    have hupper : 'A'.val.toNat = 65 := rfl
    have hlower : 'a'.val.toNat = 97 := rfl
    omega
  · simp at hdigit

theorem not_isIgnored_of_isNameStart (h : isNameStart c = true) : isIgnored c = false := by
  by_contra hignored
  simp only [isIgnored, Bool.not_eq_false, Bool.or_eq_true, beq_iff_eq] at hignored
  obtain (((rfl | rfl) | rfl) | rfl) | rfl := hignored <;> cases h

theorem name?_append (hword : name? word = some word) (hrest : ∀ c ∈ rest.head?, isNamePart c = false) :
    name? (word ++ rest) = some word := by
  cases word with
  | nil => cases hword
  | cons c u =>
    simp only [name?, List.cons_append] at hword ⊢
    split at hword
    · have hu : ∀ d ∈ u, isNamePart d = true := by
        rw [← (List.cons.inj (Option.some.inj hword)).2]
        exact fun d hd => List.mem_takeWhile_imp hd
      have hnone : rest.takeWhile isNamePart = [] := by
        cases rest with
        | nil => rfl
        | cons d rest => rw [List.takeWhile_cons, hrest d rfl]; rfl
      rw [if_pos ‹_›, List.takeWhile_append_of_pos hu, hnone, List.append_nil]
    · cases hword

theorem name_head (hword : name? word = some word) : ∃ c u, word = c :: u ∧ isNameStart c = true := by
  cases word with
  | nil => cases hword
  | cons c u =>
    rw [name?] at hword
    split at hword
    · exact ⟨c, u, rfl, ‹_›⟩
    · cases hword

theorem numeral?_of_isNameStart (hc : isNameStart c = true) : numeral? (c :: cs) = none := by
  refine numeral?_of_not_isDigit (not_isDigit_of_isNameStart hc) ?_
  rintro rfl
  cases hc

theorem scan?_of_name (hword : name? word = some word) (h : .name ∈ accepted)
    (hrest : ∀ c ∈ rest.head?, isNamePart c = false) :
    scan? accepted (word ++ rest) = some (nameTerminal accepted word, word) := by
  have hname := name?_append hword hrest
  obtain ⟨c, u, rfl, hc⟩ := name_head hword
  have hnumeral : numeral? (c :: (u ++ rest)) = none := numeral?_of_isNameStart hc
  simp only [List.cons_append] at hname ⊢
  simp [scan?, hnumeral, hname, h]

theorem nameTerminal_eq_name (h : ∀ t ∈ accepted, t.keyword? ≠ some word) : nameTerminal accepted word = .name := by
  obtain hname | ⟨hword, -, haccepted⟩ := nameTerminal_cases accepted word
  · exact hname
  · exact absurd hword (h _ haccepted)

theorem keyword_eq_of_begins {t' : Terminal} {word' : List Char} (h : t.keyword? = some word)
    (h' : t'.keyword? = some word') (hbegins : word' <+: word ∨ word <+: word') : t' = t := by
  cases t <;> cases h <;> cases t' <;> cases h' <;> first | rfl | simp at hbegins

theorem mem_keywords (hword : t.keyword? = some word) : t ∈ Terminal.keywords := by
  cases t <;> cases hword <;> decide

theorem nameTerminal_eq_keyword (hword : t.keyword? = some word) (h : t ∈ accepted) :
    nameTerminal accepted word = t := by
  unfold nameTerminal
  cases hfind : Terminal.keywords.find? fun t => accepted.contains t && t.keyword? == some word with
  | none =>
    have hnone := List.find?_eq_none.mp hfind t (mem_keywords hword)
    simp [h, hword] at hnone
  | some t' =>
    have hsome := List.find?_some hfind
    simp only [Bool.and_eq_true, beq_iff_eq] at hsome
    exact keyword_eq_of_begins hword hsome.2 (.inl (List.prefix_refl word))

theorem keyword?_append (hword : t.keyword? = some word) (h : t ∈ accepted) (rest : List Char) :
    keyword? accepted (word ++ rest) = some (t, word) := by
  cases hkeyword : keyword? accepted (word ++ rest) with
  | none =>
    have hnone := List.findSome?_eq_none_iff.mp hkeyword t (mem_keywords hword)
    simp [hword, h] at hnone
  | some read =>
    obtain ⟨t', word'⟩ := read
    obtain ⟨-, -, hword', hbegins⟩ := keyword_eq_some hkeyword
    have heq := keyword_eq_of_begins hword hword'
      (List.prefix_or_prefix_of_prefix hbegins (List.prefix_append word rest))
    subst heq
    rw [hword] at hword'
    cases hword'
    rfl

theorem scan?_keyword (hword : t.keyword? = some word) (h : t ∈ accepted)
    (hrest : ∀ c ∈ rest.head?, isNamePart c = false) : scan? accepted (word ++ rest) = some (t, word) := by
  by_cases hname : .name ∈ accepted
  · -- the keyword is read as a name first, and told from names by its spelling
    have hword' : name? word = some word := by cases t <;> cases hword <;> rfl
    rw [scan?_of_name hword' hname hrest, nameTerminal_eq_keyword hword h]
  · have hkeyword := keyword?_append hword h rest
    obtain ⟨c, u, rfl, hc⟩ := keyword_head hword
    have hquote : ¬ (c = '"' ∨ c = '\'') := by
      rintro (rfl | rfl) <;> cases hc
    have hnumeral : numeral? (c :: (u ++ rest)) = none := numeral?_of_isNameStart hc
    have hquoted : quoted? (c :: (u ++ rest)) = none := quoted?_of_not_quote hquote
    rw [List.cons_append] at hkeyword ⊢
    simp [scan?, hnumeral, hquoted, hkeyword, hname]

end Lexer

namespace Lexeme

variable {t : Terminal} {word gap following : List Char}

theorem readable_mark (hword : word ∈ t.signs) (hgap : ∀ c ∈ gap, Lexer.isIgnored c = true)
    (hequal : t = .comparison ∨ t = .bang → (gap ++ following).head? ≠ some '=')
    (hpoint : t = .dot → ∀ c ∈ (gap ++ following).head?, c.isDigit = false) :
    Readable ⟨t, word, gap⟩ following where
  gap := hgap
  start := by
    obtain ⟨c, u, rfl, hc⟩ := Lexer.sign_head hword
    simpa using hc.not_isIgnored
  scan accepted haccepted := Lexer.scan?_mark hword haccepted hequal hpoint

theorem readable_plain (hword : word ∈ t.signs) (ht : t ∉ [.comparison, .bang, .dot])
    (hgap : ∀ c ∈ gap, Lexer.isIgnored c = true) (following : List Char) : Readable ⟨t, word, gap⟩ following := by
  simp only [List.mem_cons, List.not_mem_nil, or_false, not_or] at ht
  obtain ⟨hcomparison, hbang, hdot⟩ := ht
  exact readable_mark hword hgap (fun h => absurd h (not_or.mpr ⟨hcomparison, hbang⟩)) fun h => absurd h hdot

theorem readable_keyword (hword : t.keyword? = some word) (hgap : ∀ c ∈ gap, Lexer.isIgnored c = true)
    (hfollowing : ∀ c ∈ (gap ++ following).head?, Lexer.isNamePart c = false) :
    Readable ⟨t, word, gap⟩ following where
  gap := hgap
  start := by
    obtain ⟨c, u, rfl, hc⟩ := Lexer.keyword_head hword
    simpa using Lexer.not_isIgnored_of_isNameStart hc
  scan accepted haccepted := Lexer.scan?_keyword hword haccepted hfollowing

end Lexeme

end RoutineFlow.Expr
