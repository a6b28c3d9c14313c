import RoutineFlow.Proofs.Operands
import RoutineFlow.Proofs.Sequences

/-!
Texts in parentheses and brackets are parsed to the expressions that the texts within are parsed to, put together. So
there is a text for every expression whose names and numbers can be written.
-/

namespace RoutineFlow

def BinaryOp.terminal : BinaryOp → Expr.Terminal
  | .add => .plus
  | .subtract => .minus
  | .multiply | .divide | .modulo => .product
  | .equal | .notEqual | .strictEqual | .strictNotEqual | .order _ => .comparison

namespace Expr

open Lexeme (place)

theorem symbol_mem_signs (op : BinaryOp) : op.symbol.toList ∈ op.terminal.signs := by
  cases op with
  | order c => cases c <;> decide
  | _ => decide

theorem Spells.binary [CharNames] {op : BinaryOp} {left right : List Token} {sign : Token} {a b : Expr}
    (hsign : sign.terminal = op.terminal) (hsymbol : op.symbol = String.ofList sign.text)
    (hleft : Spells .atom left a) (hright : Spells .atom right b) :
    Spells .conditional (left ++ sign :: right) (.binary op a b) := by
  have hsum (h : sign.terminal = .plus ∧ op = .add ∨ sign.terminal = .minus ∧ op = .subtract) :
      Spells .conditional (left ++ sign :: right) (.binary op a b) :=
    Spells.loosen (.sum h (hleft.loosen 4 rfl) (hright.loosen 3 rfl)) 5 rfl
  have hproduct (h : sign.terminal = .product) : Spells .conditional (left ++ sign :: right) (.binary op a b) :=
    Spells.loosen (.product h hsymbol (hleft.loosen 3 rfl) (hright.loosen 2 rfl)) 6 rfl
  have hcomparison (h : sign.terminal = .comparison) : Spells .conditional (left ++ sign :: right) (.binary op a b) :=
    Spells.loosen (.comparison h hsymbol (hleft.loosen 5 rfl) (hright.loosen 4 rfl)) 4 rfl
  cases op with
  | add => exact hsum (.inl ⟨hsign, rfl⟩)
  | subtract => exact hsum (.inr ⟨hsign, rfl⟩)
  | multiply | divide | modulo => exact hproduct hsign
  | equal | notEqual | strictEqual | strictNotEqual | order c => exact hcomparison hsign

theorem readable_spaced {t : Terminal} {sign : List Char} (hsign : sign ∈ t.signs) (following : List Char) :
    Lexeme.Readable ⟨t, sign, [' ']⟩ following :=
  Lexeme.readable_mark hsign blank_space (by simp) (by simp)

theorem readable_spaced_word {t : Terminal} {word : List Char} (hword : t.keyword? = some word)
    (following : List Char) : Lexeme.Readable ⟨t, word, [' ']⟩ following :=
  Lexeme.readable_keyword hword blank_space (by simp [Lexer.isNamePart])

section Operators

variable {first second : String} {a b : Expr}

theorem parse_group [CharNames] (h : parse first = .ok a) : parse ("(" ++ first ++ ")") = .ok a := by
  obtain ⟨lexemes, hgrouped⟩ := exists_grouped h blank_nil
  refine (hgrouped.at_start []).parse_at_start ?_ fun here => (hgrouped.spells here).conditional_of_atom
  simp [hgrouped.text]

theorem parse_signed [CharNames] {source : String} {t : Terminal} {c : Char} {op : UnaryOp} (h : parse first = .ok a)
    (hsign : [c] ∈ t.signs) (ht : t ∈ [.bang, .minus, .plus])
    (hspells : ∀ token operand, token.terminal = t → Spells .unary operand a →
      Spells .unary (token :: operand) (.unary op a))
    (hsource : source.toList = c :: '(' :: (first.toList ++ [')'])) : parse source = .ok (.unary op a) := by
  have hdot : t ≠ .dot := by
    rintro rfl
    simp at ht
  have hreadable (following : List Char) : Lexeme.Readable ⟨t, [c], []⟩ ('(' :: following) :=
    Lexeme.readable_mark hsign blank_nil (by simp) fun h => absurd h hdot
  refine parse_prefixed h hreadable (before_all t (.tail _ ht)) ?_ hsource
  exact fun token operand htoken hoperand => (hspells token operand htoken hoperand.unary_of_atom).conditional_of_unary

theorem parse_unary [CharNames] (h : parse first = .ok a) :
    parse ("-(" ++ first ++ ")") = .ok (.unary .negative a) ∧ parse ("+(" ++ first ++ ")") = .ok (.unary .positive a) ∧
      parse ("!(" ++ first ++ ")") = .ok (.unary .not a) ∧ parse ("not (" ++ first ++ ")") = .ok (.unary .not a) := by
  refine ⟨?_, ?_, ?_, ?_⟩
  · have hminus : ['-'] ∈ Terminal.minus.signs := by decide
    exact parse_signed h hminus (by decide) (fun _ _ ht => .signed (.inl ⟨ht, rfl⟩)) (by simp)
  · have hplus : ['+'] ∈ Terminal.plus.signs := by decide
    exact parse_signed h hplus (by decide) (fun _ _ ht => .signed (.inr ⟨ht, rfl⟩)) (by simp)
  · have hbang : ['!'] ∈ Terminal.bang.signs := by decide
    exact parse_signed h hbang (by decide) (fun _ _ ht => .bang ht) (by simp)
  · have hword : Terminal.notWord.keyword? = some ['n', 'o', 't'] := rfl
    refine parse_prefixed h (fun _ => readable_spaced_word hword _) (before_all _ (by decide)) ?_ (by simp)
    exact fun _ _ ht hoperand => Spells.loosen (.not ht (hoperand.loosen 6 rfl)) 3 rfl

theorem parse_binary [CharNames] (hfirst : parse first = .ok a) (hsecond : parse second = .ok b) (op : BinaryOp) :
    parse ("(" ++ first ++ ") " ++ op.symbol ++ " (" ++ second ++ ")") = .ok (.binary op a b) := by
  have hterminal : op.terminal ∈
      [Terminal.orWord, .orSign, .andWord, .andSign, .comparison, .product, .plus, .minus] := by
    cases op <;> simp [BinaryOp.terminal]
  refine parse_between hfirst hsecond (readable_spaced (symbol_mem_signs op)) (between_all _ hterminal) ?_ (by simp)
  intro left sign right hsign htext hleft hright
  exact .binary hsign (by rw [htext, String.ofList_toList]) hleft hright

theorem parse_logical [CharNames] (hfirst : parse first = .ok a) (hsecond : parse second = .ok b) :
    (∀ sign ∈ ["&&", "and"],
      parse ("(" ++ first ++ ") " ++ sign ++ " (" ++ second ++ ")") = .ok (.logical .and a b)) ∧
    ∀ sign ∈ ["||", "or"],
      parse ("(" ++ first ++ ") " ++ sign ++ " (" ++ second ++ ")") = .ok (.logical .or a b) := by
  have hand {left right : List Token} {sign : Token} (h : sign.terminal = .andWord ∨ sign.terminal = .andSign)
      (hleft : Spells .atom left a) (hright : Spells .atom right b) :
      Spells .conditional (left ++ sign :: right) (.logical .and a b) :=
    Spells.loosen (.and h (hleft.loosen 7 rfl) (hright.loosen 6 rfl)) 2 rfl
  have hor {left right : List Token} {sign : Token} (h : sign.terminal = .orWord ∨ sign.terminal = .orSign)
      (hleft : Spells .atom left a) (hright : Spells .atom right b) :
      Spells .conditional (left ++ sign :: right) (.logical .or a b) :=
    Spells.loosen (.or h (hleft.loosen 8 rfl) (hright.loosen 7 rfl)) 1 rfl
  simp only [List.forall_mem_cons, List.not_mem_nil, false_implies, implies_true, and_true]
  refine ⟨⟨?_, ?_⟩, ?_, ?_⟩
  · have hsign : ['&', '&'] ∈ Terminal.andSign.signs := by decide
    exact parse_between hfirst hsecond (readable_spaced hsign) (between_all _ (by decide))
      (fun _ _ _ ht _ => hand (.inr ht)) (by simp)
  · have hword : Terminal.andWord.keyword? = some ['a', 'n', 'd'] := rfl
    exact parse_between hfirst hsecond (readable_spaced_word hword) (between_all _ (by decide))
      (fun _ _ _ ht _ => hand (.inl ht)) (by simp)
  · have hsign : ['|', '|'] ∈ Terminal.orSign.signs := by decide
    exact parse_between hfirst hsecond (readable_spaced hsign) (between_all _ (by decide))
      (fun _ _ _ ht _ => hor (.inr ht)) (by simp)
  · have hword : Terminal.orWord.keyword? = some ['o', 'r'] := rfl
    exact parse_between hfirst hsecond (readable_spaced_word hword) (between_all _ (by decide))
      (fun _ _ _ ht _ => hor (.inl ht)) (by simp)

end Operators

/-- Expressions whose numbers and names can be written down. -/
inductive Writable : Expr → Prop
  | numeral {n : Number} (w : Numeral.Written) : Literal.number w.text = .ok n → Writable (.numeral n)
  | text (s : String) : Writable (.text s)
  | boolean (b : Bool) : Writable (.boolean b)
  | null : Writable .null
  | name {x : String} : IsIdentifier x → ¬ IsKeyword x → Writable (.name x)
  | member {target : Expr} {x : String} : Writable target → IsIdentifier x → Writable (.member target x)
  | index {target place : Expr} : Writable target → Writable place → Writable (.index target place)
  | call {f : String} {arguments : List Expr} : IsIdentifier f → ¬ IsKeyword f → (∀ e ∈ arguments, Writable e) →
      Writable (.call f arguments)
  | unary (op : UnaryOp) {operand : Expr} : Writable operand → Writable (.unary op operand)
  | binary (op : BinaryOp) {left right : Expr} : Writable left → Writable right → Writable (.binary op left right)
  | logical (op : LogicalOp) {left right : Expr} : Writable left → Writable right → Writable (.logical op left right)
  | conditional {test whenTrue whenFalse : Expr} : Writable test → Writable whenTrue → Writable whenFalse →
      Writable (.conditional test whenTrue whenFalse)
  | list {items : List Expr} : (∀ e ∈ items, Writable e) → Writable (.list items)
  | map {entries : List (String × Expr)} : (∀ entry ∈ entries, IsIdentifier entry.1) →
      (∀ entry ∈ entries, Writable entry.2) → Writable (.map entries)

section Sources

theorem exists_source_numeral [CharNames] (w : Numeral.Written) {n : Number} (hn : Literal.number w.text = .ok n) :
    ∃ source, parse source = .ok (.numeral n) := by
  have hreadable : Lexeme.AllReadable [⟨.numeral, w.text, []⟩] [] :=
    ⟨Lexeme.readable_numeral w (by simp [Delimited, Lexeme.text]), trivial⟩
  refine ⟨_, parse_lexemes hreadable ?_⟩
  exact Spells.loosen (.numeral rfl hn) 10 rfl

theorem exists_source_text [CharNames] (s : String) : ∃ source, parse source = .ok (.text s) := by
  have hreadable : Lexeme.AllReadable [⟨.text, Json.writeText false s.toList, []⟩] [] :=
    ⟨Lexeme.readable_text s.toList _, trivial⟩
  have htext := @Spells.text _ ⟨.text, Json.writeText false s.toList, .start⟩ s.toList rfl (Literal.text_writeText _)
  rw [String.ofList_toList] at htext
  exact ⟨_, parse_lexemes hreadable (htext.loosen 10 rfl)⟩

theorem exists_source_name [CharNames] {x : String} (hx : IsIdentifier x) (hkeyword : ¬ IsKeyword x) :
    ∃ source, parse source = .ok (.name x) := by
  have hname : Automaton.Shifts .name [] [7] := .of_step (by decide)
  have hreading : Reading [] [] [⟨.name, x.toList, []⟩] [7] :=
    .identifier hx (fun t _ ht => hkeyword ⟨t, ht⟩) blank_nil (by simp [Lexeme.text]) hname .done
  refine ⟨x, hreading.parse_at_start (by simp [Lexeme.text]) fun here => ?_⟩
  have hspells := @Spells.name _ ⟨.name, x.toList, here⟩ rfl
  rw [keyText_eq rfl] at hspells
  exact hspells.conditional_of_atom

theorem exists_sources [CharNames] {items : List Expr} (h : ∀ e ∈ items, ∃ source, parse source = .ok e) :
    ∃ written : List (String × Expr), written.map (·.2) = items ∧ ∀ item ∈ written, parse item.1 = .ok item.2 := by
  apply exists_map_eq
  intro e he
  obtain ⟨source, hsource⟩ := h e he
  exact ⟨(source, e), rfl, hsource⟩

theorem Writable.exists_source [CharNames] {e : Expr} (h : Writable e) : ∃ source, parse source = .ok e := by
  induction h with
  | numeral w hn => exact exists_source_numeral w hn
  | text s => exact exists_source_text s
  | boolean b =>
    cases b with
    | false => exact ⟨"false", by cbv⟩
    | true => exact ⟨"true", by cbv⟩
  | null => exact ⟨"null", by cbv⟩
  | name hx hkeyword => exact exists_source_name hx hkeyword
  | member _ hx ih =>
    obtain ⟨target, htarget⟩ := ih
    exact ⟨_, parse_member htarget hx⟩
  | index _ _ ih ih' =>
    obtain ⟨target, htarget⟩ := ih
    obtain ⟨place, hplace⟩ := ih'
    exact ⟨_, parse_index htarget hplace⟩
  | call hf hkeyword _ ih =>
    obtain ⟨items, rfl, hitems⟩ := exists_sources ih
    exact ⟨_, parse_call hf hkeyword hitems (.inl rfl)⟩
  | unary op _ ih =>
    obtain ⟨operand, hoperand⟩ := ih
    obtain ⟨hnegative, hpositive, hnot, -⟩ := parse_unary hoperand
    cases op with
    | negative => exact ⟨_, hnegative⟩
    | positive => exact ⟨_, hpositive⟩
    | not => exact ⟨_, hnot⟩
  | binary op _ _ ih ih' =>
    obtain ⟨left, hleft⟩ := ih
    obtain ⟨right, hright⟩ := ih'
    exact ⟨_, parse_binary hleft hright op⟩
  | logical op _ _ ih ih' =>
    obtain ⟨left, hleft⟩ := ih
    obtain ⟨right, hright⟩ := ih'
    obtain ⟨hand, hor⟩ := parse_logical hleft hright
    cases op with
    | and => exact ⟨_, hand "&&" (by simp)⟩
    | or => exact ⟨_, hor "||" (by simp)⟩
  | conditional _ _ _ ihtest ihtrue ihfalse =>
    obtain ⟨test, htest⟩ := ihtest
    obtain ⟨whenTrue, htrue⟩ := ihtrue
    obtain ⟨whenFalse, hfalse⟩ := ihfalse
    exact ⟨_, parse_conditional htest htrue hfalse⟩
  | list _ ih =>
    obtain ⟨items, rfl, hitems⟩ := exists_sources ih
    exact ⟨_, parse_list hitems (.inl rfl)⟩
  | @map entries hkeys _ ih =>
    have hsources : ∀ entry ∈ entries, ∃ written : String × String × Expr, (written.1, written.2.2) = entry ∧
        IsIdentifier written.1 ∧ parse written.2.1 = .ok written.2.2 := by
      intro entry hentry
      obtain ⟨source, hsource⟩ := ih entry hentry
      exact ⟨(entry.1, source, entry.2), rfl, hkeys entry hentry, hsource⟩
    obtain ⟨written, rfl, hwritten⟩ := exists_map_eq hsources
    exact ⟨_, parse_map hwritten (.inl rfl)⟩

end Sources

/-- Texts in parentheses and brackets have the parse that their parts have, put together: in parentheses alone, under
every operator, and in front of a member, a place or a list of arguments or entries. So whatever can be written down is
the parse of some text. -/
theorem parse_compositional [CharNames] :
    (∀ s t, parse s = .ok t →
      parse ("(" ++ s ++ ")") = .ok t ∧
      parse ("-(" ++ s ++ ")") = .ok (.unary .negative t) ∧ parse ("+(" ++ s ++ ")") = .ok (.unary .positive t) ∧
      parse ("!(" ++ s ++ ")") = .ok (.unary .not t) ∧ parse ("not (" ++ s ++ ")") = .ok (.unary .not t) ∧
      ∀ x, IsIdentifier x → parse ("(" ++ s ++ ")." ++ x) = .ok (.member t x)) ∧
    (∀ s₁ s₂ t₁ t₂, parse s₁ = .ok t₁ → parse s₂ = .ok t₂ →
      (∀ op : BinaryOp, parse ("(" ++ s₁ ++ ") " ++ op.symbol ++ " (" ++ s₂ ++ ")") = .ok (.binary op t₁ t₂)) ∧
      (∀ sign ∈ ["&&", "and"], parse ("(" ++ s₁ ++ ") " ++ sign ++ " (" ++ s₂ ++ ")") = .ok (.logical .and t₁ t₂)) ∧
      (∀ sign ∈ ["||", "or"], parse ("(" ++ s₁ ++ ") " ++ sign ++ " (" ++ s₂ ++ ")") = .ok (.logical .or t₁ t₂)) ∧
      parse ("(" ++ s₁ ++ ")[" ++ s₂ ++ "]") = .ok (.index t₁ t₂) ∧
      ∀ s₃ t₃, parse s₃ = .ok t₃ →
        parse ("(" ++ s₁ ++ ") ? (" ++ s₂ ++ ") : (" ++ s₃ ++ ")") = .ok (.conditional t₁ t₂ t₃)) ∧
    (∀ items : List (String × Expr), (∀ item ∈ items, parse item.1 = .ok item.2) → ∀ comma, Trailing items comma →
      parse ("[" ++ ", ".intercalate (items.map (·.1)) ++ comma ++ "]") = .ok (.list (items.map (·.2))) ∧
      ∀ f, IsIdentifier f → ¬ IsKeyword f →
        parse (f ++ "(" ++ ", ".intercalate (items.map (·.1)) ++ comma ++ ")") = .ok (.call f (items.map (·.2)))) ∧
    (∀ entries : List (String × String × Expr), (∀ entry ∈ entries, IsIdentifier entry.1 ∧
        parse entry.2.1 = .ok entry.2.2) → ∀ comma, Trailing entries comma →
      parse ("\x7b" ++ ", ".intercalate (entries.map fun entry => entry.1 ++ ": " ++ entry.2.1) ++ comma ++ "\x7d") =
        .ok (.map (entries.map fun entry => (entry.1, entry.2.2)))) ∧
    ∀ e, Writable e → ∃ source, parse source = .ok e := by
  refine ⟨fun s t h => ⟨parse_group h, ?_⟩, fun s₁ s₂ t₁ t₂ h₁ h₂ => ⟨parse_binary h₁ h₂, ?_⟩,
    fun items h comma hcomma => ⟨parse_list h hcomma, fun f hf hkeyword => parse_call hf hkeyword h hcomma⟩,
    fun entries h comma hcomma => parse_map h hcomma, fun e => Writable.exists_source⟩
  · obtain ⟨hnegative, hpositive, hnot, hword⟩ := parse_unary h
    exact ⟨hnegative, hpositive, hnot, hword, fun x hx => parse_member h hx⟩
  · obtain ⟨hand, hor⟩ := parse_logical h₁ h₂
    exact ⟨hand, hor, parse_index h₁ h₂, fun s₃ t₃ h₃ => parse_conditional h₁ h₂ h₃⟩

theorem loose_composed : parse "a or b" = .ok (.logical .or (.name "a") (.name "b")) ∧
    parse "-1" = .ok (.unary .negative (.numeral (.int 1))) ∧ parse "(a or b) * (-1)" =
      .ok (.binary .multiply (.logical .or (.name "a") (.name "b")) (.unary .negative (.numeral (.int 1)))) := by
  have hfirst : parse "a or b" = .ok (.logical .or (.name "a") (.name "b")) := by cbv
  have hsecond : parse "-1" = .ok (.unary .negative (.numeral (.int 1))) := by cbv
  exact ⟨hfirst, hsecond, (parse_compositional.2.1 _ _ _ _ hfirst hsecond).1 .multiply⟩

end Expr

end RoutineFlow
