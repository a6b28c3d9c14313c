import Mathlib.Data.Option.Basic
import RoutineFlow.Expr.Lexer
import RoutineFlow.Expr.OfTree

namespace RoutineFlow.Expr

/-- Parts with a comma before each. -/
inductive Further : List (List Token) → List Token → Prop
  | none : Further [] []
  | next {part tokens : List Token} {parts : List (List Token)} {comma : Token} :
      comma.terminal = .comma → Further parts tokens →
        Further (part :: parts) (comma :: (part ++ tokens))

/-- Parts with commas between them, and perhaps one behind the last. -/
inductive Listed : List (List Token) → List Token → Prop
  | none : Listed [] []
  | plain {part tokens : List Token} {parts : List (List Token)} :
      Further parts tokens → Listed (part :: parts) (part ++ tokens)
  | trailing {part tokens : List Token} {parts : List (List Token)} {comma : Token} :
      comma.terminal = .comma → Further parts tokens →
        Listed (part :: parts) (part ++ tokens ++ [comma])

namespace Phrase

/-- The phrases an expression can be, each with the next tighter one. -/
def tighter? : Phrase → Option Phrase
  | .whole => some .conditional
  | .conditional => some .disjunction
  | .disjunction => some .conjunction
  | .conjunction => some .negation
  | .negation => some .comparison
  | .comparison => some .sum
  | .sum => some .product
  | .product => some .unary
  | .unary => some .suffixed
  | .suffixed => some .atom
  | _ => none

end Phrase

/-- A key with its value in a map. -/
structure Entry where
  key : Token
  colon : Token
  tokens : List Token
  word : String
  value : Expr

namespace Entry

def spelling (entry : Entry) : List Token :=
  entry.key :: entry.colon :: entry.tokens

/-- The key is a name, or a text that stands for the word. -/
def Named [CharNames] (entry : Entry) : Prop :=
  entry.colon.terminal = .colon ∧
    (entry.key.terminal = .name ∧ entry.word = keyText entry.key ∨
      entry.key.terminal = .text ∧
        ∃ cs, Literal.text entry.key.text = .ok cs ∧ entry.word = String.ofList cs)

end Entry

/-- The tokens of a phrase spell an expression. Operands are as tight as the operator leaves them to be: the
left one may hold the operator itself, the right one may not. -/
inductive Spells [CharNames] : Phrase → List Token → Expr → Prop
  | pass {loose tight : Phrase} {tokens : List Token} {e : Expr} :
      loose.tighter? = some tight → Spells tight tokens e → Spells loose tokens e
  | conditional {test whenTrue whenFalse : List Token} {question colon : Token} {e a b : Expr} :
      question.terminal = .question → colon.terminal = .colon →
      Spells .disjunction test e → Spells .conditional whenTrue a → Spells .conditional whenFalse b →
        Spells .conditional (test ++ question :: (whenTrue ++ colon :: whenFalse))
          (.conditional e a b)
  | or {left right : List Token} {sign : Token} {a b : Expr} :
      sign.terminal = .orWord ∨ sign.terminal = .orSign →
      Spells .disjunction left a → Spells .conjunction right b →
        Spells .disjunction (left ++ sign :: right) (.logical .or a b)
  | and {left right : List Token} {sign : Token} {a b : Expr} :
      sign.terminal = .andWord ∨ sign.terminal = .andSign →
      Spells .conjunction left a → Spells .negation right b →
        Spells .conjunction (left ++ sign :: right) (.logical .and a b)
  | not {operand : List Token} {word : Token} {e : Expr} :
      word.terminal = .notWord → Spells .negation operand e →
        Spells .negation (word :: operand) (.unary .not e)
  | comparison {left right : List Token} {sign : Token} {op : BinaryOp} {a b : Expr} :
      sign.terminal = .comparison → op.symbol = String.ofList sign.text →
      Spells .comparison left a → Spells .sum right b →
        Spells .comparison (left ++ sign :: right) (.binary op a b)
  | sum {left right : List Token} {sign : Token} {op : BinaryOp} {a b : Expr} :
      sign.terminal = .plus ∧ op = .add ∨ sign.terminal = .minus ∧ op = .subtract →
      Spells .sum left a → Spells .product right b →
        Spells .sum (left ++ sign :: right) (.binary op a b)
  | product {left right : List Token} {sign : Token} {op : BinaryOp} {a b : Expr} :
      sign.terminal = .product → op.symbol = String.ofList sign.text →
      Spells .product left a → Spells .unary right b →
        Spells .product (left ++ sign :: right) (.binary op a b)
  | bang {operand : List Token} {sign : Token} {e : Expr} :
      sign.terminal = .bang → Spells .unary operand e →
        Spells .unary (sign :: operand) (.unary .not e)
  | signed {operand : List Token} {sign : Token} {op : UnaryOp} {e : Expr} :
      sign.terminal = .minus ∧ op = .negative ∨ sign.terminal = .plus ∧ op = .positive →
      Spells .unary operand e → Spells .unary (sign :: operand) (.unary op e)
  | member {target : List Token} {dot word : Token} {e : Expr} :
      dot.terminal = .dot → word.terminal = .name → Spells .suffixed target e →
        Spells .suffixed (target ++ [dot, word]) (.member e (keyText word))
  | index {target place : List Token} {opening closing : Token} {e i : Expr} :
      opening.terminal = .openBracket → closing.terminal = .closeBracket →
      Spells .suffixed target e → Spells .conditional place i →
        Spells .suffixed (target ++ opening :: (place ++ [closing])) (.index e i)
  | numeral {token : Token} {n : Number} :
      token.terminal = .numeral → Literal.number token.text = .ok n →
        Spells .atom [token] (.numeral n)
  | text {token : Token} {cs : List Char} :
      token.terminal = .text → Literal.text token.text = .ok cs →
        Spells .atom [token] (.text (String.ofList cs))
  | trueWord {token : Token} : token.terminal = .trueWord → Spells .atom [token] (.boolean true)
  | falseWord {token : Token} : token.terminal = .falseWord → Spells .atom [token] (.boolean false)
  | nullWord {token : Token} : token.terminal = .nullWord → Spells .atom [token] .null
  | name {token : Token} : token.terminal = .name → Spells .atom [token] (.name (keyText token))
  | call {tokens : List Token} {word opening closing : Token} (items : List (List Token × Expr)) :
      word.terminal = .name → opening.terminal = .openParen → closing.terminal = .closeParen →
      Listed (items.map (·.1)) tokens → (∀ item ∈ items, Spells .conditional item.1 item.2) →
        Spells .atom (word :: opening :: (tokens ++ [closing]))
          (.call (keyText word) (items.map (·.2)))
  | list {tokens : List Token} {opening closing : Token} (items : List (List Token × Expr)) :
      opening.terminal = .openBracket → closing.terminal = .closeBracket →
      Listed (items.map (·.1)) tokens → (∀ item ∈ items, Spells .conditional item.1 item.2) →
        Spells .atom (opening :: (tokens ++ [closing])) (.list (items.map (·.2)))
  | map {tokens : List Token} {opening closing : Token} (entries : List Entry) :
      opening.terminal = .openBrace → closing.terminal = .closeBrace →
      Listed (entries.map Entry.spelling) tokens → (∀ entry ∈ entries, entry.Named) →
      (∀ entry ∈ entries, Spells .conditional entry.tokens entry.value) →
        Spells .atom (opening :: (tokens ++ [closing]))
          (.map (entries.map fun entry => (entry.word, entry.value)))
  | group {tokens : List Token} {opening closing : Token} {e : Expr} :
      opening.terminal = .openParen → closing.terminal = .closeParen →
      Spells .conditional tokens e → Spells .atom (opening :: (tokens ++ [closing])) e

/-- A token that the lexer reads somewhere. -/
def Delivered (token : Token) : Prop :=
  ∃ accepted cs, Lexer.scan? accepted cs = some (token.terminal, token.text)

namespace Lexer

variable {accepted : List Terminal} {cs spelling : List Char} {t : Terminal}

theorem nameTerminal_cases (accepted : List Terminal) (word : List Char) :
    nameTerminal accepted word = .name ∨
      (nameTerminal accepted word).keyword? = some word ∧
        nameTerminal accepted word ∈ Terminal.keywords ∧ nameTerminal accepted word ∈ accepted := by
  unfold nameTerminal
  cases hfind : Terminal.keywords.find? fun t => accepted.contains t && t.keyword? == some word with
  | none => exact .inl rfl
  | some t =>
    have hmem := List.mem_of_find?_eq_some hfind
    have hspelled := List.find?_some hfind
    simp only [Bool.and_eq_true, List.contains_iff_mem, beq_iff_eq] at hspelled
    exact .inr ⟨hspelled.2, hmem, hspelled.1⟩

theorem keyword_eq_some (h : keyword? accepted cs = some (t, spelling)) :
    t ∈ Terminal.keywords ∧ t ∈ accepted ∧ t.keyword? = some spelling ∧ spelling <+: cs := by
  unfold keyword? at h
  obtain ⟨t', hmem, h⟩ := List.exists_of_findSome?_eq_some h
  cases hword : t'.keyword? with
  | none => simp [hword] at h
  | some word =>
    simp only [hword, Option.ite_none_right_eq_some, Bool.and_eq_true, List.contains_iff_mem,
      List.isPrefixOf_iff_prefix, Option.some.injEq, Prod.mk.injEq] at h
    obtain ⟨⟨haccepted, hbegins⟩, rfl, rfl⟩ := h
    exact ⟨hmem, haccepted, hword, hbegins⟩

theorem punctuation_eq_some (h : punctuation? accepted cs = some (t, spelling)) :
    t ∈ Terminal.punctuation ∧ t ∈ accepted ∧ spelling ∈ t.signs ∧ spelling <+: cs := by
  unfold punctuation? at h
  obtain ⟨t', hmem, h⟩ := List.exists_of_findSome?_eq_some h
  simp only [Option.ite_none_right_eq_some, List.contains_iff_mem, Option.map_eq_some_iff,
    Prod.mk.injEq] at h
  obtain ⟨haccepted, word, hsign, rfl, rfl⟩ := h
  have hsigns := List.mem_of_find?_eq_some hsign
  have hbegins := List.find?_some hsign
  rw [List.isPrefixOf_iff_prefix] at hbegins
  exact ⟨hmem, haccepted, hsigns, hbegins⟩

theorem scan_eq_some (h : scan? accepted cs = some (t, spelling)) :
    (t = .numeral ∧ t ∈ accepted ∧ numeral? cs = some spelling) ∨
    (t = nameTerminal accepted spelling ∧ .name ∈ accepted ∧ name? cs = some spelling) ∨
    (t = .text ∧ t ∈ accepted ∧ quoted? cs = some spelling) ∨
    keyword? accepted cs = some (t, spelling) ∨ punctuation? accepted cs = some (t, spelling) := by
  simp only [scan?, Option.orElse_eq_some, Option.ite_none_right_eq_some,
    Option.map_eq_some_iff, List.contains_iff_mem, Prod.mk.injEq] at h
  rcases h with ⟨haccepted, _, hread, rfl, rfl⟩ | ⟨-, h⟩
  · exact .inl ⟨rfl, haccepted, hread⟩
  rcases h with ⟨haccepted, _, hread, rfl, rfl⟩ | ⟨-, h⟩
  · exact .inr (.inl ⟨rfl, haccepted, hread⟩)
  rcases h with ⟨haccepted, _, hread, rfl, rfl⟩ | ⟨-, h⟩
  · exact .inr (.inr (.inl ⟨rfl, haccepted, hread⟩))
  rcases h with h | ⟨-, h⟩
  · have hread : keyword? accepted cs = some (t, spelling) := by
      split at h
      · cases h
      · exact h
    exact .inr (.inr (.inr (.inl hread)))
  · exact .inr (.inr (.inr (.inr h)))

end Lexer

namespace Delivered

variable {token : Token}

theorem cases_of (h : Delivered token) :
    token.terminal = .numeral ∨ token.terminal = .name ∨ token.terminal = .text ∨
      token.terminal ∈ Terminal.keywords ∨
      token.terminal ∈ Terminal.punctuation ∧ token.text ∈ token.terminal.signs := by
  obtain ⟨accepted, cs, hscan⟩ := h
  rcases Lexer.scan_eq_some hscan with ⟨h, _⟩ | ⟨h, _⟩ | ⟨h, _⟩ | h | h
  · exact .inl h
  · rcases Lexer.nameTerminal_cases accepted token.text with hname | ⟨_, hkeyword, _⟩
    · exact .inr (.inl (h.trans hname))
    · rw [← h] at hkeyword
      exact .inr (.inr (.inr (.inl hkeyword)))
  · exact .inr (.inr (.inl h))
  · exact .inr (.inr (.inr (.inl (Lexer.keyword_eq_some h).1)))
  · have hsign := Lexer.punctuation_eq_some h
    exact .inr (.inr (.inr (.inr ⟨hsign.1, hsign.2.2.1⟩)))

theorem ne_finish (h : Delivered token) : token.terminal ≠ .finish := by
  intro hfinish
  have hcases := h.cases_of
  simp [hfinish, Terminal.keywords, Terminal.punctuation] at hcases

theorem mem_signs (h : Delivered token) (hsign : token.terminal ∈ Terminal.punctuation) :
    token.text ∈ token.terminal.signs := by
  rcases h.cases_of with h | h | h | h | h
  · simp [h, Terminal.punctuation] at hsign
  · simp [h, Terminal.punctuation] at hsign
  · simp [h, Terminal.punctuation] at hsign
  · revert hsign h
    cases token.terminal <;> simp [Terminal.keywords, Terminal.punctuation]
  · exact h.2

theorem symbol_operator (h : Delivered token)
    (hsign : token.terminal = .comparison ∨ token.terminal = .product) :
    (operator token.text).symbol = String.ofList token.text := by
  have hmem : token.text ∈ token.terminal.signs := by
    apply h.mem_signs
    rcases hsign with hsign | hsign <;> simp [hsign, Terminal.punctuation]
  have hall : ∀ text ∈ Terminal.comparison.signs ++ Terminal.product.signs,
      (operator text).symbol = String.ofList text := by decide
  apply hall
  rcases hsign with hsign | hsign <;> rw [hsign] at hmem <;> simp [hmem]

end Delivered

end RoutineFlow.Expr
