import RoutineFlow.Proofs.Respacing
import RoutineFlow.Proofs.Words

/-!
Where the words of a text end up. A word is a token as a whole wherever an operand may stand; behind an operand, a word that
merely begins like an operator is taken apart.
-/

namespace RoutineFlow.Expr

open Automaton (top Shifts)
open Lexeme (place)

namespace Lexer

variable {accepted : List Terminal} {t : Terminal} {c : Char} {cs v w word spelling before after following : List Char}

/-- A run of name characters that starts like a name, and that cannot be made longer. -/
structure IsWord (before word after : List Char) : Prop where
  start : ∃ c ∈ word.head?, isNameStart c = true
  part : ∀ c ∈ word, isNamePart c = true
  before : ∀ c ∈ before.getLast?, isNamePart c = false
  after : ∀ c ∈ after.head?, isNamePart c = false

theorem isNamePart_of_isNameStart (h : isNameStart c = true) : isNamePart c = true := by
  unfold isNameStart at h
  unfold isNamePart Char.isAlphanum
  cases hc : c.isAlpha <;> simp_all

theorem takeWhile_eq (hpart : ∀ c ∈ word, isNamePart c = true) (hafter : ∀ c ∈ after.head?, isNamePart c = false) :
    (word ++ after).takeWhile isNamePart = word := by
  rw [List.takeWhile_append_of_pos hpart]
  cases after with
  | nil => simp
  | cons c after => simp [hafter c rfl]

theorem prefix_of_part (hpart : ∀ c ∈ spelling, isNamePart c = true) (hafter : ∀ c ∈ after.head?, isNamePart c = false)
    (h : spelling <+: word ++ after) : spelling <+: word := by
  obtain ⟨rest, hrest⟩ := h
  obtain ⟨u, rfl, -⟩ | ⟨u, rfl, hu⟩ := List.append_eq_append_iff.mp hrest
  · exact List.prefix_append _ _
  · cases u with
    | nil => simp
    | cons d u =>
      have hd := hafter d (by simp [hu])
      rw [hpart d (by simp)] at hd
      cases hd

theorem part_of_keyword (h : t.keyword? = some word) : ∀ c ∈ word, isNamePart c = true := by
  apply List.all_eq_true.mp
  cases t <;> cases h <;> rfl

theorem part_of_name (h : name? cs = some word) : ∀ c ∈ word, isNamePart c = true := by
  cases cs with
  | nil => cases h
  | cons c cs =>
    rw [name?] at h
    split at h
    · cases h
      rw [List.forall_mem_cons]
      exact ⟨isNamePart_of_isNameStart ‹_›, fun d hd => List.mem_takeWhile_imp hd⟩
    · cases h

theorem not_isNameStart_of_sign (h : word ∈ t.signs) : ∀ c ∈ word, isNameStart c = false := by
  have hall : ∀ word ∈ t.signs, (word.all fun c => !isNameStart c) = true := by
    apply List.all_eq_true.mp
    cases t <;> rfl
  simpa using hall word h

theorem scan?_of_isNameStart (hstart : isNameStart c = true) (h : scan? accepted (c :: cs) = some (t, spelling)) :
    spelling = c :: cs.takeWhile isNamePart ∧ (t = .name ∨ t.keyword? = some spelling) ∨
      .name ∉ accepted ∧ t ∈ accepted ∧ t.keyword? = some spelling ∧ spelling <+: c :: cs := by
  have hnumeral : numeral? (c :: cs) = none := numeral?_of_isNameStart hstart
  by_cases hname : .name ∈ accepted
  · have hword : name? (c :: cs) = some (c :: cs.takeWhile isNamePart) := by simp [name?, hstart]
    have hscan : scan? accepted (c :: cs) =
        some (nameTerminal accepted (c :: cs.takeWhile isNamePart), c :: cs.takeWhile isNamePart) := by
      simp [scan?, hnumeral, hname, hword]
    cases hscan.symm.trans h
    obtain hplain | ⟨hkeyword, -⟩ := nameTerminal_cases accepted (c :: cs.takeWhile isNamePart)
    · exact .inl ⟨rfl, .inl hplain⟩
    · exact .inl ⟨rfl, .inr hkeyword⟩
  · obtain ⟨-, -, h⟩ | ⟨-, h, -⟩ | ⟨-, -, h⟩ | h | h := scan_eq_some h
    · rw [hnumeral] at h
      cases h
    · exact absurd h hname
    · have hquote : ¬ (c = '"' ∨ c = '\'') := by
        rintro (rfl | rfl) <;> cases hstart
      rw [quoted?_of_not_quote hquote] at h
      cases h
    · obtain ⟨-, haccepted, hword, hbegins⟩ := keyword_eq_some h
      exact .inr ⟨hname, haccepted, hword, hbegins⟩
    · obtain ⟨-, -, hsign, hbegins⟩ := punctuation_eq_some h
      obtain ⟨d, u, rfl, hd⟩ := sign_head hsign
      have hc := hd.not_isNameStart
      rw [(List.cons_prefix_cons.mp hbegins).1, hstart] at hc
      cases hc

theorem getLast?_of_quotedRest {mark : Char} {escaped : Bool} (h : quotedRest mark escaped cs = some spelling) :
    spelling.getLast? = some mark := by
  induction cs generalizing escaped spelling with
  | nil => cases escaped <;> cases h
  | cons c cs ih =>
    cases escaped with
    | true =>
      rw [quotedRest] at h
      split at h
      · cases h
      · obtain ⟨inner, hinner, rfl⟩ := Option.map_eq_some_iff.mp h
        rw [List.getLast?_cons, ih hinner]
        rfl
    | false =>
      rw [quotedRest] at h
      split at h
      · cases h
        rw [‹c = mark›]
        rfl
      · obtain ⟨inner, hinner, rfl⟩ := Option.map_eq_some_iff.mp h
        rw [List.getLast?_cons, ih hinner]
        rfl

theorem quoted_ends (h : quoted? cs = some spelling) :
    ∃ mark ∈ spelling.getLast?, isNamePart mark = false := by
  unfold quoted? at h
  split at h
  · obtain ⟨rest, hrest, rfl⟩ := Option.map_eq_some_iff.mp h
    exact ⟨'"', by rw [List.getLast?_cons, getLast?_of_quotedRest hrest]; rfl, rfl⟩
  · obtain ⟨rest, hrest, rfl⟩ := Option.map_eq_some_iff.mp h
    exact ⟨'\'', by rw [List.getLast?_cons, getLast?_of_quotedRest hrest]; rfl, rfl⟩
  · cases h

/-- A character behind `v` stands in the first part of a text or in the second. -/
theorem cut {u rest : List Char} (h : u ++ rest = v ++ c :: w) :
    (∃ a, v = u ++ a ∧ rest = a ++ c :: w) ∨ ∃ a, u = v ++ c :: a ∧ w = a ++ rest := by
  obtain ⟨a, hv, hrest⟩ | ⟨a, rfl, hrest⟩ := List.append_eq_append_iff.mp h
  · exact .inl ⟨a, hv, hrest⟩
  · cases a with
    | nil => exact .inl ⟨[], by simp, by simpa using hrest.symm⟩
    | cons d a =>
      obtain ⟨rfl, rfl⟩ := List.cons.inj hrest
      exact .inr ⟨a, rfl, rfl⟩

theorem split_off {u rest : List Char} (hc : c ∉ u) (h : u ++ rest = v ++ c :: w) :
    ∃ a, v = u ++ a ∧ rest = a ++ c :: w := by
  obtain h | ⟨a, rfl, -⟩ := cut h
  · exact h
  · simp at hc

theorem not_isNameStart_of_isDigit (h : c.isDigit = true) : isNameStart c = false := by
  by_contra hstart
  rw [Bool.not_eq_false] at hstart
  rw [not_isDigit_of_isNameStart hstart] at h
  cases h

theorem exponentPart_cases (cs : List Char) : exponentPart cs = [] ∨ ∃ e tail, exponentPart cs = e :: tail ∧
    (e = 'e' ∨ e = 'E') ∧ ∀ c ∈ tail, isNameStart c = false := by
  have hdigits (after : List Char) : ∀ c ∈ after.takeWhile Char.isDigit, isNameStart c = false :=
    fun c hc => not_isNameStart_of_isDigit (List.mem_takeWhile_imp hc)
  cases cs with
  | nil => exact .inl rfl
  | cons e cs =>
    by_cases he : e = 'e' ∨ e = 'E'
    · by_cases hsign : ∃ c after, cs = c :: after ∧ (c = '+' ∨ c = '-')
      · obtain ⟨c, after, rfl, hc⟩ := hsign
        rw [exponentPart_signed he hc, withDigits]
        split
        · exact .inl rfl
        · refine .inr ⟨e, c :: after.takeWhile Char.isDigit, rfl, he, ?_⟩
          rw [List.forall_mem_cons]
          refine ⟨?_, hdigits after⟩
          obtain rfl | rfl := hc <;> rfl
      · have hcs : ∀ c ∈ cs.head?, c ≠ '+' ∧ c ≠ '-' := by
          intro c hc
          obtain ⟨after, rfl⟩ := List.head?_eq_some_iff.mp hc
          exact not_or.mp fun h => hsign ⟨c, after, rfl, h⟩
        rw [exponentPart_unsigned he hcs, withDigits]
        split
        · exact .inl rfl
        · exact .inr ⟨e, cs.takeWhile Char.isDigit, rfl, he, hdigits cs⟩
    · exact .inl (exponentPart_other he cs)

/-- A letter of a numeral is the mark of its exponent. -/
theorem exponent_letter {front cs : List Char} (hstart : isNameStart c = true)
    (hfront : ∀ d ∈ front, isNameStart d = false) (h : front ++ exponentPart cs = v ++ c :: w) :
    v = front ∧ (c = 'e' ∨ c = 'E') := by
  have hc : c ∉ front := by
    intro hmem
    rw [hfront c hmem] at hstart
    cases hstart
  obtain ⟨a, rfl, hexponent⟩ := split_off hc h
  obtain hnone | ⟨e, tail, htail, he, hrest⟩ := exponentPart_cases cs
  · rw [hnone] at hexponent
    simp at hexponent
  · rw [htail] at hexponent
    cases a with
    | nil =>
      obtain ⟨rfl, -⟩ := List.cons.inj hexponent
      exact ⟨List.append_nil _, he⟩
    | cons d a =>
      obtain ⟨-, rfl⟩ := List.cons.inj hexponent
      rw [hrest c (by simp)] at hstart
      cases hstart

theorem isNamePart_of_isDigit (h : c.isDigit = true) : isNamePart c = true := by
  simp [isNamePart, Char.isAlphanum, h]

theorem eq_nil_of_digits (hdigits : ∀ d ∈ v, d.isDigit = true) (hv : ∀ d ∈ v.getLast?, isNamePart d = false) :
    v = [] := by
  obtain rfl | ⟨u, d, rfl⟩ := List.eq_nil_or_concat v
  · rfl
  · have hd := hv d (by simp)
    rw [isNamePart_of_isDigit (hdigits d (by simp))] at hd
    cases hd

/-- Where a name could start within a numeral, its exponent does, right behind the point. -/
theorem numeral?_letter (hstart : isNameStart c = true) (hv : ∀ d ∈ v.getLast?, isNamePart d = false)
    (h : numeral? cs = some (v ++ c :: w)) :
    ∃ digits, v = digits ++ ['.'] ∧ (∀ d ∈ digits, d.isDigit = true) ∧ (c = 'e' ∨ c = 'E') := by
  obtain ⟨whole, rest, rfl, hwhole, hrest⟩ := exists_run Char.isDigit cs
  by_cases hpoint : ∃ after, rest = '.' :: after
  · obtain ⟨after, rfl⟩ := hpoint
    have hfraction : ∀ d ∈ after.takeWhile Char.isDigit, d.isDigit = true := fun d hd => List.mem_takeWhile_imp hd
    rw [numeral?_point hwhole, pointed] at h
    generalize after.takeWhile Char.isDigit = fraction at h hfraction
    split at h
    · cases h
    have hfront : ∀ d ∈ whole ++ '.' :: fraction, isNameStart d = false := by
      rw [List.forall_mem_append, List.forall_mem_cons]
      exact ⟨fun d hd => not_isNameStart_of_isDigit (hwhole d hd), rfl,
        fun d hd => not_isNameStart_of_isDigit (hfraction d hd)⟩
    obtain ⟨rfl, he⟩ := exponent_letter hstart hfront (Option.some.inj h)
    obtain rfl : fraction = [] := by
      apply eq_nil_of_digits hfraction
      intro d hd
      apply hv d
      rw [List.getLast?_append, List.getLast?_cons, Option.mem_def.mp hd]
      rfl
    exact ⟨whole, rfl, hwhole, he⟩
  · rw [numeral?_plain hwhole (no_point hrest hpoint)] at h
    split at h
    · cases h
    have hfront : ∀ d ∈ whole, isNameStart d = false := fun d hd => not_isNameStart_of_isDigit (hwhole d hd)
    obtain ⟨rfl, -⟩ := exponent_letter hstart hfront (Option.some.inj h)
    exact absurd (eq_nil_of_digits hwhole hv) ‹_›

end Lexer

namespace Automaton

/-- The terminals that an operand ends with. -/
def operandEnds : List Terminal :=
  [.numeral, .name, .text, .trueWord, .falseWord, .nullWord, .closeParen, .closeBracket, .closeBrace]

theorem keywords_all : (List.range states.size).all (fun s => (accepted s).contains .name ||
    (accepted s).all fun t => !t.isKeyword || t == .orWord || t == .andWord) = true := by
  decide

theorem operators_all : (List.range states.size).all (fun s => (state s).shifts.all fun (t, target) =>
    operandEnds.contains t || (accepted target).all fun t' => t' != .orWord && t' != .andWord) = true := by
  decide

variable {t p : Terminal} {s : Nat} {entered next : List Nat}

theorem eq_of_keyword (ht : t ∈ accepted s) (hkeyword : t.isKeyword = true) (hname : .name ∉ accepted s) :
    t = .orWord ∨ t = .andWord := by
  have hs : s < states.size := by
    apply Nat.lt_of_not_le
    intro hle
    simp [accepted, state_of_le hle] at ht
  have hall := List.all_eq_true.mp keywords_all s (List.mem_range.mpr hs)
  simp only [Bool.or_eq_true, List.contains_iff_mem, hname, false_or, List.all_eq_true] at hall
  simpa [hkeyword] using hall t ht

/-- An operator that is a word is looked for only right behind an operand. -/
theorem mem_operandEnds (h : Shifts p entered next) (ht : t = .orWord ∨ t = .andWord)
    (haccepted : t ∈ accepted (top next)) : p ∈ operandEnds := by
  obtain ⟨settled, target, -, hstep, rfl⟩ := h
  have hall := List.all_eq_true.mp operators_all _ (List.mem_range.mpr (lt_of_step hstep))
  have hentry := List.all_eq_true.mp hall _ (mem_of_lookup hstep)
  simp only [Bool.or_eq_true, List.contains_iff_mem, List.all_eq_true] at hentry
  obtain hmem | hnone := hentry
  · exact hmem
  · have hne := hnone t haccepted
    obtain rfl | rfl := ht <;> simp at hne

end Automaton

namespace Lexeme

open Lexer (IsWord isIgnored isNamePart isNameStart)

/-- What becomes of a word: it begins behind `v` in the lexeme `l`, and the lexemes `front` stand in front of that. -/
inductive Takes (front : List Lexeme) (l : Lexeme) : List Char → List Char → Prop
  | whole {word : List Char} (hspelling : l.spelling = word) (h : l.terminal = .name ∨ l.terminal.keyword? = some word) :
      Takes front l [] word
  | quoted {v word w : List Char} (hterminal : l.terminal = .text) (hspelling : l.spelling = v ++ word ++ w) :
      Takes front l v word
  | exponent {digits tail word : List Char} {mark : Char} (hterminal : l.terminal = .numeral)
      (hdigits : ∀ d ∈ digits, d.isDigit = true) (hmark : mark = 'e' ∨ mark = 'E') (hword : word.head? = some mark)
      (hspelling : l.spelling = digits ++ '.' :: mark :: tail) : Takes front l (digits ++ ['.']) word
  | operator {rest : List Char} {p : Lexeme} (hterminal : l.terminal = .orWord ∨ l.terminal = .andWord)
      (hkeyword : l.terminal.keyword? = some l.spelling) (hrest : rest ≠ []) (hlast : p ∈ front.getLast?)
      (hends : p.terminal ∈ Automaton.operandEnds) : Takes front l [] (l.spelling ++ rest)

variable {lexemes : List Lexeme} {lead v w word before after rest : List Char} {c : Char}

/-- A character that is no blank belongs to one of the lexemes. -/
theorem locate (hlead : ∀ c ∈ lead, isIgnored c = true) (hblank : ∀ l ∈ lexemes, ∀ c ∈ l.gap, isIgnored c = true)
    (hc : isIgnored c = false) (h : lead ++ text lexemes = before ++ c :: rest) :
    ∃ front l behind v w, lexemes = front ++ l :: behind ∧ l.spelling = v ++ c :: w ∧
      before = lead ++ text front ++ v ∧ rest = w ++ (l.gap ++ text behind) := by
  have hout {gap : List Char} (hgap : ∀ c ∈ gap, isIgnored c = true) : c ∉ gap := by
    intro hmem
    rw [hgap c hmem] at hc
    cases hc
  induction lexemes generalizing lead before with
  | nil =>
    obtain ⟨a, -, hnone⟩ := Lexer.split_off (hout hlead) h
    simp [text] at hnone
  | cons l lexemes ih =>
    obtain ⟨hl, hblank⟩ := List.forall_mem_cons.mp hblank
    obtain ⟨a, rfl, htext⟩ := Lexer.split_off (hout hlead) h
    rw [text_cons] at htext
    obtain ⟨u, rfl, hrest⟩ | ⟨u, hspelling, rfl⟩ := Lexer.cut htext
    · obtain ⟨front, l', behind, v, w, rfl, hl', rfl, rfl⟩ := ih hl hblank hrest
      exact ⟨l :: front, l', behind, v, w, rfl, hl', by simp [text_cons], rfl⟩
    · exact ⟨[], l, lexemes, a, u, rfl, hspelling, by simp [text], rfl⟩

end Lexeme

theorem Reading.at {entered last : List Nat} {front behind : List Lexeme} {l : Lexeme} {following : List Char}
    (h : Reading following entered (front ++ l :: behind) last) :
    ∃ mid, Lexer.scan? (Automaton.accepted (top mid)) (l.spelling ++ (l.gap ++ (Lexeme.text behind ++ following))) =
        some (l.terminal, l.spelling) ∧
      (front = [] → mid = entered) ∧ ∀ p ∈ front.getLast?, ∃ prev, Shifts p.terminal prev mid := by
  induction front generalizing entered with
  | nil =>
    cases h with
    | next _ _ hscan _ _ => exact ⟨entered, hscan, fun _ => rfl, by simp⟩
  | cons l' front ih =>
    cases h with
    | next _ _ _ hshifts hrest =>
      obtain ⟨mid, hscan, hfirst, hlater⟩ := ih hrest
      refine ⟨mid, hscan, nofun, ?_⟩
      intro p hp
      cases front with
      | nil =>
        obtain rfl : l' = p := by simpa using hp
        obtain rfl := hfirst rfl
        exact ⟨_, hshifts⟩
      | cons l'' front => exact hlater p (by simpa using hp)

namespace Lexeme

open Lexer (IsWord isIgnored isNamePart isNameStart)

variable {front : List Lexeme} {l : Lexeme} {v w u before after following : List Char} {c : Char}

theorem takes_start {mid : List Nat} {word : List Char} (hword : IsWord before word after)
    (hscan : Lexer.scan? (Automaton.accepted (top mid)) (word ++ after) = some (l.terminal, l.spelling))
    (hfirst : front = [] → mid = []) (hlast : ∀ p ∈ front.getLast?, ∃ prev, Shifts p.terminal prev mid) :
    Takes front l [] word := by
  obtain ⟨c, hc, hstart⟩ := hword.start
  obtain ⟨u, rfl⟩ := List.head?_eq_some_iff.mp hc
  rw [List.cons_append] at hscan
  obtain ⟨hspelling, hterminal⟩ | ⟨hname, haccepted, hkeyword, hbegins⟩ := Lexer.scan?_of_isNameStart hstart hscan
  · rw [Lexer.takeWhile_eq (List.forall_mem_cons.mp hword.part).2 hword.after] at hspelling
    rw [hspelling] at hterminal
    exact .whole hspelling hterminal
  · have hpart := Lexer.part_of_keyword hkeyword
    rw [← List.cons_append] at hbegins
    obtain ⟨rest, hrest⟩ := Lexer.prefix_of_part hpart hword.after hbegins
    rw [← hrest]
    by_cases hnil : rest = []
    · rw [hnil, List.append_nil]
      exact .whole rfl (.inr hkeyword)
    · have hoperator := Automaton.eq_of_keyword haccepted (by rw [Terminal.isKeyword, hkeyword]; rfl) hname
      cases hfront : front.getLast? with
      | none =>
        rw [hfirst (List.getLast?_eq_none_iff.mp hfront)] at hname
        exact absurd (by decide) hname
      | some p =>
        obtain ⟨prev, hshifts⟩ := hlast p hfront
        exact .operator hoperator hkeyword hnil hfront (Automaton.mem_operandEnds hshifts hoperator haccepted)

theorem takes_inner {accepted : List Terminal} (hword : IsWord before (c :: u) after) (hv : v ≠ [])
    (hspelling : l.spelling = v ++ c :: w) (hrest : u ++ after = w ++ following) (hbefore : v.getLast? = before.getLast?)
    (hscan : Lexer.scan? accepted (l.spelling ++ following) = some (l.terminal, l.spelling)) :
    Takes front l v (c :: u) := by
  have hlast : ∀ d ∈ v.getLast?, isNamePart d = false := by
    rw [hbefore]
    exact hword.before
  obtain ⟨d, hd⟩ := Option.isSome_iff_exists.mp (List.getLast?_isSome.mpr hv)
  have hend : isNamePart d = false := hlast d hd
  have hmem : d ∈ l.spelling := by
    rw [hspelling]
    exact List.mem_append_left _ (List.mem_of_getLast? hd)
  have hstart : isNameStart c = true := by
    obtain ⟨d, hd, hstart⟩ := hword.start
    cases hd
    exact hstart
  have hout (hpart : ∀ d ∈ l.spelling, isNamePart d = true) : False := by
    rw [hpart d hmem] at hend
    cases hend
  obtain ⟨hterminal, -, hnumeral⟩ | ⟨-, -, hname⟩ | ⟨hterminal, -, hquoted⟩ | hkeyword | hsign :=
    Lexer.scan_eq_some hscan
  · rw [hspelling] at hnumeral
    obtain ⟨digits, rfl, hdigits, hmark⟩ := Lexer.numeral?_letter hstart hlast hnumeral
    exact .exponent hterminal hdigits hmark rfl (by simpa using hspelling)
  · exact absurd (Lexer.part_of_name hname) hout
  · obtain ⟨mark, hmark, hpart⟩ := Lexer.quoted_ends hquoted
    obtain ⟨a, rfl, -⟩ | ⟨a, rfl, -⟩ := List.append_eq_append_iff.mp hrest
    · exact .quoted hterminal (by simpa using hspelling)
    · -- the closing mark would be part of the word
      rw [hspelling, List.getLast?_append_of_ne_nil _ (List.cons_ne_nil c w)] at hmark
      rw [hword.part mark (List.mem_append_left a (List.mem_of_getLast? hmark))] at hpart
      cases hpart
  · exact absurd (Lexer.part_of_keyword (Lexer.keyword_eq_some hkeyword).2.2.1) hout
  · have hsigns := Lexer.not_isNameStart_of_sign (Lexer.punctuation_eq_some hsign).2.2.1
    rw [hsigns c (by simp [hspelling])] at hstart
    cases hstart

end Lexeme

/-- In a text that is parsed every word is one token, a name or a keyword, unless it stands in a quoted text, the exponent
of a numeral begins it, or it begins like an operator right behind an operand. -/
theorem words_of_parsed [CharNames] {source : String} {e : Expr} (h : parse source = .ok e) :
    ∃ lead lexemes, source.toList = lead ++ Lexeme.text lexemes ∧
      Lexed [] .start source.toList (place (Text.Position.start.advance lead) lexemes) ∧
      ∀ before word after, source.toList = before ++ (word ++ after) → Lexer.IsWord before word after →
        ∃ front l behind v, lexemes = front ++ l :: behind ∧ before = lead ++ Lexeme.text front ++ v ∧
          Lexeme.Takes front l v word := by
  obtain ⟨lead, lexemes, last, hsource, hlead, hreading, -, hspells⟩ := exists_reading h
  refine ⟨lead, lexemes, hsource, ?_, ?_⟩
  · rw [hsource]
    exact hreading.lexed .empty rfl hlead .start
  · intro before word after hsplit hword
    obtain ⟨c, hc, hstart⟩ := hword.start
    obtain ⟨u, rfl⟩ := List.head?_eq_some_iff.mp hc
    rw [hsource, List.cons_append] at hsplit
    obtain ⟨front, l, behind, v, w, rfl, hspelling, hbefore, hrest⟩ :=
      Lexeme.locate hlead hreading.blank (Lexer.not_isIgnored_of_isNameStart hstart) hsplit
    obtain ⟨mid, hscan, hfirst, hlast⟩ := hreading.at
    refine ⟨front, l, behind, v, rfl, hbefore, ?_⟩
    by_cases hv : v = []
    · subst hv
      have htext : l.spelling ++ (l.gap ++ (Lexeme.text behind ++ [])) = c :: u ++ after := by
        simp [hspelling, hrest]
      rw [htext] at hscan
      exact Lexeme.takes_start hword hscan hfirst hlast
    · refine Lexeme.takes_inner hword hv hspelling ?_ ?_ hscan
      · simpa using hrest
      · rw [hbefore, List.getLast?_append_of_ne_nil _ hv]

/-- Words that begin like operators, where operands stand. -/
def prefixed : String := "android.order or not notes"

def prefixedExpr : Expr := .logical .or (.member (.name "android") "order") (.unary .not (.name "notes"))

theorem prefixed_words : parse prefixed = .ok prefixedExpr ∧
    ∃ lead lexemes, prefixed.toList = lead ++ Lexeme.text lexemes ∧
      ∀ before word after, prefixed.toList = before ++ (word ++ after) → Lexer.IsWord before word after →
        ∃ front l behind v, lexemes = front ++ l :: behind ∧ before = lead ++ Lexeme.text front ++ v ∧
          Lexeme.Takes front l v word := by
  have hparse : parse prefixed = .ok prefixedExpr := by cbv
  obtain ⟨lead, lexemes, hsource, -, hwords⟩ := words_of_parsed hparse
  exact ⟨hparse, lead, lexemes, hsource, hwords⟩

/-- Right behind an operand a longer word is read as the operator that it begins with. -/
theorem order_taken_apart : parse "1 order" = .ok (.logical .or (.numeral (.int 1)) (.name "der")) ∧
    Lexer.IsWord "1 ".toList "order".toList [] ∧ Lexed [] .start "1 order".toList
      [⟨.numeral, "1".toList, ⟨0, 1, 1⟩⟩, ⟨.orWord, "or".toList, ⟨2, 1, 3⟩⟩, ⟨.name, "der".toList, ⟨4, 1, 5⟩⟩] := by
  refine ⟨by cbv, ⟨⟨'o', rfl, rfl⟩, List.all_eq_true.mp rfl, ?_, by simp⟩, ?_⟩
  · rintro c ⟨⟩
    rfl
  · exact .token rfl rfl rfl rfl (.token rfl rfl rfl rfl (.token rfl rfl rfl rfl (.done rfl)))

end RoutineFlow.Expr
