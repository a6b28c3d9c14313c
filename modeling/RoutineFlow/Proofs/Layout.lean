import RoutineFlow.Proofs.Lexemes

namespace RoutineFlow

theorem Text.join_cons (separator piece : List Char) (pieces : List (List Char)) :
    join separator (piece :: pieces) = piece ++ pieces.flatMap (separator ++ ·) := by
  induction pieces generalizing piece with
  | nil => simp [join]
  | cons other pieces ih => simp [join, ih]

namespace Expr

namespace Lexer

variable {accepted : List Terminal}

theorem scan?_numeral (w : Numeral.Written) {rest : List Char} (hrest : Delimited rest)
    (h : .numeral ∈ accepted) : scan? accepted (w.text ++ rest) = some (.numeral, w.text) := by
  simp [scan?, h, numeral?_append w hrest]

theorem scan?_text (cs rest : List Char) (h : .text ∈ accepted) :
    scan? accepted (Json.writeText false cs ++ rest) = some (.text, Json.writeText false cs) := by
  have hquoted := quoted?_writeText cs rest
  have hnumeral : numeral? (Json.writeText false cs ++ rest) = none := by
    simp [Json.writeText, numeral?, Numeral.digitRun]
  have hname : name? (Json.writeText false cs ++ rest) = none := by
    simp [Json.writeText, name?, isNameStart]
  simp [scan?, h, hquoted, hnumeral, hname]

/-- The signs of documents. -/
def signs : List (Terminal × Char) :=
  [(.minus, '-'), (.colon, ':'), (.comma, ','), (.openBracket, '['), (.closeBracket, ']'),
    (.openBrace, '{'), (.closeBrace, '}')]

theorem scan?_sign {t : Terminal} {c : Char} (hsign : (t, c) ∈ signs) (rest : List Char) (h : t ∈ accepted) :
    scan? accepted (c :: rest) = some (t, [c]) := by
  simp only [signs, List.mem_cons, Prod.mk.injEq, List.not_mem_nil, or_false] at hsign
  rcases hsign with ⟨rfl, rfl⟩ | ⟨rfl, rfl⟩ | ⟨rfl, rfl⟩ | ⟨rfl, rfl⟩ | ⟨rfl, rfl⟩ | ⟨rfl, rfl⟩ | ⟨rfl, rfl⟩ <;>
    simp [scan?, numeral?, Numeral.digitRun, name?, isNameStart, quoted?, keyword?, Terminal.keywords,
      Terminal.keyword?, punctuation?, Terminal.punctuation, sign?, Terminal.signs, h]

/-- The words of documents. -/
def words : List (Terminal × List Char) :=
  [(.nullWord, Json.nullWord), (.trueWord, Json.boolWord true), (.falseWord, Json.boolWord false)]

theorem name?_word {t : Terminal} {word : List Char} (hword : (t, word) ∈ words) {rest : List Char}
    (hrest : Delimited rest) : name? (word ++ rest) = some word := by
  have hend : rest.takeWhile isNamePart = [] := by
    cases rest with
    | nil => rfl
    | cons c rest => rcases hrest c rfl with rfl | rfl | rfl <;> rfl
  simp only [words, List.mem_cons, Prod.mk.injEq, List.not_mem_nil, or_false] at hword
  rcases hword with ⟨rfl, rfl⟩ | ⟨rfl, rfl⟩ | ⟨rfl, rfl⟩ <;>
    simp [name?, Json.nullWord, Json.boolWord, isNameStart, isNamePart, hend]

theorem scan?_word {t : Terminal} {word : List Char} (hword : (t, word) ∈ words) {rest : List Char}
    (hrest : Delimited rest) (h : t ∈ accepted) : scan? accepted (word ++ rest) = some (t, word) := by
  have hread := name?_word hword hrest
  simp only [words, List.mem_cons, Prod.mk.injEq, List.not_mem_nil, or_false] at hword
  by_cases hname : .name ∈ accepted
  · rcases hword with ⟨rfl, rfl⟩ | ⟨rfl, rfl⟩ | ⟨rfl, rfl⟩ <;>
      simp only [Json.nullWord, Json.boolWord, List.cons_append, List.nil_append, ↓reduceIte,
        Bool.false_eq_true] at hread ⊢ <;>
      simp [scan?, numeral?, Numeral.digitRun, hread, nameTerminal, Terminal.keywords, Terminal.keyword?,
        hname, h]
  · rcases hword with ⟨rfl, rfl⟩ | ⟨rfl, rfl⟩ | ⟨rfl, rfl⟩ <;>
      simp [scan?, numeral?, Numeral.digitRun, quoted?, keyword?, Terminal.keywords, Terminal.keyword?,
        Json.nullWord, Json.boolWord, hname, h]

end Lexer

namespace Lexeme

theorem readable_numeral (w : Numeral.Written) {following : List Char} (h : Delimited following) :
    Readable ⟨.numeral, w.text, []⟩ following where
  gap := by simp
  start := by
    intro c hc
    obtain ⟨d, hd, hdigit⟩ := w.head_isDigit
    cases hc.symm.trans hd
    have hne : c ≠ ' ' ∧ c ≠ '\t' ∧ c ≠ '\x0c' ∧ c ≠ '\r' ∧ c ≠ '\n' := by
      refine ⟨?_, ?_, ?_, ?_, ?_⟩ <;> exact Numeral.ne_of_isDigit hdigit rfl
    simp [Lexer.isIgnored, hne]
  scan accepted haccepted := Lexer.scan?_numeral w h haccepted

theorem readable_text (cs following : List Char) :
    Readable ⟨.text, Json.writeText false cs, []⟩ following where
  gap := by simp
  start := by simp [Json.writeText, Lexer.isIgnored]
  scan accepted haccepted := Lexer.scan?_text cs following haccepted

theorem readable_word {t : Terminal} {word : List Char} (hword : (t, word) ∈ Lexer.words)
    {following : List Char} (h : Delimited following) : Readable ⟨t, word, []⟩ following where
  gap := by simp
  start := by
    have hall : ∀ entry ∈ Lexer.words, (entry.2.head?.all fun c => !Lexer.isIgnored c) = true := by decide
    simpa [Option.all_eq_true] using hall _ hword
  scan accepted haccepted := Lexer.scan?_word hword h haccepted

theorem readable_sign {t : Terminal} {c : Char} (hsign : (t, c) ∈ Lexer.signs) {gap : List Char}
    (hgap : ∀ c ∈ gap, Lexer.isIgnored c = true) (following : List Char) :
    Readable ⟨t, [c], gap⟩ following where
  gap := hgap
  start := by
    have hall : ∀ entry ∈ Lexer.signs, Lexer.isIgnored entry.2 = false := by decide
    simpa using hall _ hsign
  scan accepted haccepted := Lexer.scan?_sign hsign _ haccepted

def comma : Lexeme := ⟨.comma, [','], [' ']⟩

def colon : Lexeme := ⟨.colon, [':'], [' ']⟩

theorem readable_comma (following : List Char) : comma.Readable following :=
  readable_sign (by decide) (by simp [Lexer.isIgnored]) following

theorem readable_colon (following : List Char) : colon.Readable following :=
  readable_sign (by decide) (by simp [Lexer.isIgnored]) following

def sign (s : Terminal × Char) : Lexeme := ⟨s.1, [s.2], []⟩

/-- Parts with a comma and a blank between them. -/
def joined : List (List Lexeme) → List Lexeme
  | [] => []
  | part :: parts => part ++ parts.flatMap (comma :: ·)

def enclosed (opening closing : Terminal × Char) (parts : List (List Lexeme)) : List Lexeme :=
  sign opening :: (joined parts ++ [sign closing])

theorem text_further (parts : List (List Lexeme)) :
    text (parts.flatMap (comma :: ·)) = (parts.map text).flatMap ([',', ' '] ++ ·) := by
  induction parts with
  | nil => rfl
  | cons part parts ih =>
    rw [List.flatMap_cons, text_append, ih, text_cons]
    rfl

theorem text_joined (parts : List (List Lexeme)) :
    text (joined parts) = Text.join [',', ' '] (parts.map text) := by
  cases parts with
  | nil => rfl
  | cons part parts => rw [joined, text_append, text_further, List.map_cons, Text.join_cons]

theorem delimited_further {parts : List (List Lexeme)} {following : List Char} (h : Delimited following) :
    Delimited (text (parts.flatMap (comma :: ·)) ++ following) := by
  cases parts with
  | nil => exact h
  | cons part parts =>
    intro c hc
    cases hc
    exact .inl rfl

variable {parts : List (List Lexeme)} {following : List Char}

theorem readable_further (hparts : ∀ part ∈ parts, ∀ rest, Delimited rest → AllReadable part rest)
    (h : Delimited following) : AllReadable (parts.flatMap (comma :: ·)) following := by
  induction parts with
  | nil => trivial
  | cons part parts ih =>
    obtain ⟨hpart, hrest⟩ := List.forall_mem_cons.mp hparts
    exact ⟨readable_comma _, (hpart _ (delimited_further h)).append (ih hrest)⟩

theorem readable_joined (hparts : ∀ part ∈ parts, ∀ rest, Delimited rest → AllReadable part rest)
    (h : Delimited following) : AllReadable (joined parts) following := by
  cases parts with
  | nil => trivial
  | cons part parts =>
    obtain ⟨hpart, hrest⟩ := List.forall_mem_cons.mp hparts
    exact (hpart _ (delimited_further h)).append (readable_further hrest h)

theorem readable_enclosed {opening closing : Terminal × Char} (hopening : opening ∈ Lexer.signs)
    (hclosing : closing ∈ Lexer.signs) (hend : closing.2 = ']' ∨ closing.2 = '}')
    (hparts : ∀ part ∈ parts, ∀ rest, Delimited rest → AllReadable part rest) :
    AllReadable (enclosed opening closing parts) following := by
  have hgap : ∀ c ∈ ([] : List Char), Lexer.isIgnored c = true := by simp
  have hlast : AllReadable [sign closing] following := ⟨readable_sign hclosing hgap _, trivial⟩
  have hdelimited : Delimited (text [sign closing] ++ following) := by
    intro c hc
    cases hc
    exact .inr hend
  exact ⟨readable_sign hopening hgap _, (readable_joined hparts hdelimited).append hlast⟩

theorem text_enclosed (opening closing : Terminal × Char) (parts : List (List Lexeme)) (depth : Nat) :
    text (enclosed opening closing parts) =
      Json.Layout.line.enclose opening.2 closing.2 depth (parts.map text) := by
  have htext : text (enclosed opening closing parts) =
      opening.2 :: (Text.join [',', ' '] (parts.map text) ++ [closing.2]) := by
    rw [enclosed, text_cons, text_append, text_joined]
    rfl
  rw [htext]
  cases parts with
  | nil => rfl
  | cons part parts => simp [Json.Layout.enclose, Json.Layout.line, Json.Layout.margin, Json.Layout.comma]

theorem place_enclosed (opening closing : Terminal × Char) (parts : List (List Lexeme))
    (here : Text.Position) :
    ∃ inner last, place here (enclosed opening closing parts) =
      ⟨opening.1, [opening.2], here⟩ :: (place inner (joined parts) ++ [⟨closing.1, [closing.2], last⟩]) := by
  rw [enclosed, place, place_append]
  exact ⟨_, _, rfl⟩

variable {α β γ : Type} {lexemes : β → List Lexeme} {shown : β → γ} {tokens : α → List Token} {made : α → γ}
  {P : α → Prop} {bs : List β}

theorem further_of_placed
    (h : ∀ b ∈ bs, ∀ here, ∃ a, tokens a = place here (lexemes b) ∧ made a = shown b ∧ P a)
    (here : Text.Position) :
    ∃ as : List α, Further (as.map tokens) (place here ((bs.map lexemes).flatMap (comma :: ·))) ∧
      as.map made = bs.map shown ∧ ∀ a ∈ as, P a := by
  induction bs generalizing here with
  | nil => exact ⟨[], .none, rfl, by simp⟩
  | cons b bs ih =>
    obtain ⟨hb, hbs⟩ := List.forall_mem_cons.mp h
    obtain ⟨a, ha, hmade, hP⟩ := hb ((here.advance [',']).advance [' '])
    obtain ⟨as, has, hmades, hPs⟩ :=
      ih hbs (((here.advance [',']).advance [' ']).advance (text (lexemes b)))
    refine ⟨a :: as, ?_, by simp [hmade, hmades], List.forall_mem_cons.mpr ⟨hP, hPs⟩⟩
    rw [List.map_cons, List.map_cons, List.flatMap_cons, List.cons_append, place, place_append, ha]
    exact .next rfl has

theorem listed_of_placed
    (h : ∀ b ∈ bs, ∀ here, ∃ a, tokens a = place here (lexemes b) ∧ made a = shown b ∧ P a)
    (here : Text.Position) :
    ∃ as : List α, Listed (as.map tokens) (place here (joined (bs.map lexemes))) ∧
      as.map made = bs.map shown ∧ ∀ a ∈ as, P a := by
  cases bs with
  | nil => exact ⟨[], .none, rfl, by simp⟩
  | cons b bs =>
    obtain ⟨hb, hbs⟩ := List.forall_mem_cons.mp h
    obtain ⟨a, ha, hmade, hP⟩ := hb here
    obtain ⟨as, has, hmades, hPs⟩ := further_of_placed hbs (here.advance (text (lexemes b)))
    refine ⟨a :: as, ?_, by simp [hmade, hmades], List.forall_mem_cons.mpr ⟨hP, hPs⟩⟩
    rw [List.map_cons, List.map_cons, joined, place_append, ha]
    exact .plain has

end Lexeme

end Expr

end RoutineFlow
