import RoutineFlow.Proofs.Literals
import RoutineFlow.Proofs.Portability

/-!
Expressions between brackets with commas between them, and perhaps one behind the last, are read one by one.
-/

namespace RoutineFlow.Expr

open Automaton (top Shifts)
open Lexeme (place)

/-- A list between an opening sign and a closing one: the states in front of each item, and those that stand for what is
read up to its end. -/
structure Row (close : Terminal) (slot settled : Nat → List Nat) (final : List Nat) : Prop where
  comma : ∀ n, Shifts .comma (settled n) (slot (n + 1))
  closed : ∀ n, Shifts close (settled n) final
  trailing : ∀ n, Shifts close (slot (n + 1)) final

/-- An item of a list with the blanks in front of it. -/
structure Item (α : Type) where
  lead : List Char
  lexemes : List Lexeme
  value : α

namespace Item

variable {α : Type}

def text (item : Item α) : List Char :=
  item.lead ++ Lexeme.text item.lexemes

structure Fits (Spelled : List Token → α → Prop) (slot settled : Nat → List Nat) (item : Item α) : Prop where
  blank : ∀ c ∈ item.lead, Lexer.isIgnored c = true
  fills : ∀ n, Fills (slot n) item.lexemes (settled n)
  spells : ∀ here, Spelled (place here item.lexemes) item.value

/-- A comma and a space before each. -/
def further (items : List (Item α)) : List Lexeme :=
  items.flatMap fun item => ⟨.comma, [','], ' ' :: item.lead⟩ :: item.lexemes

end Item

/-- A comma behind the last item, or none. -/
def commas (trailing : Bool) : List Lexeme :=
  if trailing then [⟨.comma, [','], []⟩] else []

/-- Nothing, or a comma behind the last of some items. -/
def Trailing {α : Type} (items : List α) (comma : String) : Prop :=
  comma = "" ∨ items ≠ [] ∧ comma = ","

theorem Trailing.exists_commas {α : Type} {items : List α} {comma : String} (h : Trailing items comma) :
    ∃ trailing : Bool, (trailing = true → items ≠ []) ∧ Lexeme.text (commas trailing) = comma.toList := by
  obtain rfl | ⟨hitems, rfl⟩ := h
  · exact ⟨false, by simp, rfl⟩
  · exact ⟨true, fun _ => hitems, rfl⟩

section Rows

variable {α : Type} {Spelled : List Token → α → Prop} {close : Terminal} {closing : Char}
  {slot settled : Nat → List Nat} {final : List Nat} {item : Item α} {items : List (Item α)}

open Item (further)

theorem Row.reading (row : Row close slot settled final) (hclosing : (close, closing) ∈ Lexer.closings)
    (hitem : item.Fits Spelled slot settled) (hitems : ∀ item ∈ items, item.Fits Spelled slot settled)
    (trailing : Bool) (n : Nat) :
    Reading [] (slot n) (item.lexemes ++ (further items ++ (commas trailing ++ [⟨close, [closing], []⟩]))) final := by
  have hclose : Lexeme.Closing ⟨close, [closing], []⟩ := .of_mem hclosing blank_nil
  -- the induction carries the number of items that were read, since the automaton tells the first two from the others
  induction items generalizing item n with
  | nil =>
    cases trailing with
    | false => exact (hitem.fills n).close hclose (row.closed n) .done
    | true =>
      have hcomma : Lexeme.Closing ⟨.comma, [','], []⟩ := .of_mem (by decide) blank_nil
      exact (hitem.fills n).close hcomma (row.comma n) (.readable (hclose.readable _) (row.trailing n) .done)
  | cons next items ih =>
    obtain ⟨hnext, hitems⟩ := List.forall_mem_cons.mp hitems
    have hlead : ∀ c ∈ ' ' :: next.lead, Lexer.isIgnored c = true :=
      List.forall_mem_cons.mpr ⟨by simp [Lexer.isIgnored], hnext.blank⟩
    have hcomma : Lexeme.Closing ⟨.comma, [','], ' ' :: next.lead⟩ := .of_mem (by decide) hlead
    have hrest := (hitem.fills n).close hcomma (row.comma n) (ih hnext hitems (n + 1))
    simpa [further] using hrest

theorem series_further (hitems : ∀ item ∈ items, item.Fits Spelled slot settled) (here : Text.Position) :
    Series Spelled Further (place here (further items)) (items.map (·.value)) := by
  induction items generalizing here with
  | nil => exact .none Spelled
  | cons item items ih =>
    obtain ⟨hitem, hitems⟩ := List.forall_mem_cons.mp hitems
    have hcons : further (item :: items) = ⟨.comma, [','], ' ' :: item.lead⟩ :: (item.lexemes ++ further items) := rfl
    rw [hcons, place, Lexeme.place_append]
    obtain ⟨parts, hparts, hfurther⟩ := ih hitems _
    exact ⟨_ :: parts, .cons (hitem.spells _) hparts, .next rfl hfurther⟩

theorem series_listed (hitem : item.Fits Spelled slot settled) (hitems : ∀ item ∈ items, item.Fits Spelled slot settled)
    (trailing : Bool) (here : Text.Position) :
    Series Spelled Listed (place here (item.lexemes ++ (further items ++ commas trailing)))
      (item.value :: items.map (·.value)) := by
  rw [Lexeme.place_append, Lexeme.place_append]
  have hfurther := series_further hitems (here.advance (Lexeme.text item.lexemes))
  cases trailing with
  | false =>
    rw [commas, if_neg (by simp), place, List.append_nil]
    exact .plain (hitem.spells here) hfurther
  | true =>
    rw [commas, if_pos rfl, place, place, ← List.append_assoc]
    exact .trailing (hitem.spells here) hfurther rfl

theorem text_row (item : Item α) (items : List (Item α)) :
    item.lead ++ Lexeme.text (item.lexemes ++ further items) =
      [',', ' '].intercalate ((item :: items).map Item.text) := by
  induction items generalizing item with
  | nil => simp [further, Item.text]
  | cons next items ih =>
    have hcons : further (next :: items) = ⟨.comma, [','], ' ' :: next.lead⟩ :: (next.lexemes ++ further items) := rfl
    rw [List.map_cons, List.map_cons, List.intercalate_cons_cons, ← List.map_cons, ← ih next, hcons,
      Lexeme.text_append, Lexeme.text_cons]
    simp [Item.text]

/-- What stands behind the opening sign of a list: its items with commas, and the closing sign. -/
theorem exists_row (row : Row close slot settled final) (hempty : ∃ last, Shifts close (slot 0) last)
    (hclosing : (close, closing) ∈ Lexer.closings) {pieces : List (List Char × α)}
    (hpieces : ∀ piece ∈ pieces, ∃ item : Item α, (item.text, item.value) = piece ∧ item.Fits Spelled slot settled)
    {trailing : Bool} (htrailing : trailing = true → pieces ≠ []) :
    ∃ lead lexemes last, (∀ c ∈ lead, Lexer.isIgnored c = true) ∧
      lead ++ Lexeme.text lexemes = [',', ' '].intercalate (pieces.map (·.1)) ++
        (Lexeme.text (commas trailing) ++ [closing]) ∧
      Reading [] (slot 0) lexemes last ∧
      ∀ here, ∃ tokens token, place here lexemes = tokens ++ [token] ∧ token.terminal = close ∧
        Series Spelled Listed tokens (pieces.map (·.2)) := by
  obtain ⟨items, rfl, hitems⟩ := exists_map_eq hpieces
  rw [List.map_map, List.map_map]
  cases items with
  | nil =>
    obtain ⟨last, hshifts⟩ := hempty
    have hclose : Lexeme.Closing ⟨close, [closing], []⟩ := .of_mem hclosing blank_nil
    have hnone : trailing = false := Bool.eq_false_iff.mpr fun h => htrailing h rfl
    refine ⟨[], [⟨close, [closing], []⟩], last, blank_nil, ?_, .readable (hclose.readable _) hshifts .done, ?_⟩
    · simp [hnone, commas, Lexeme.text]
    · exact fun here => ⟨[], _, rfl, rfl, [], .nil, .none⟩
  | cons item items =>
    obtain ⟨hitem, hitems⟩ := List.forall_mem_cons.mp hitems
    refine ⟨item.lead, _, final, hitem.blank, ?_, row.reading hclosing hitem hitems trailing 0, fun here => ?_⟩
    · have htext := text_row item items
      rw [← List.append_assoc, Lexeme.text_append, ← List.append_assoc, htext, Lexeme.text_append]
      simp [Lexeme.text, Function.comp_def]
    · rw [← List.append_assoc, ← List.append_assoc, Lexeme.place_append, List.append_assoc]
      exact ⟨_, _, rfl, rfl, series_listed hitem hitems trailing here⟩

end Rows

section Brackets

variable {tokens : List Token} {opening closing : Token}

theorem Series.list [CharNames] {values : List Expr} (h : Series (Spells .conditional) Listed tokens values)
    (hopening : opening.terminal = .openBracket) (hclosing : closing.terminal = .closeBracket) :
    Spells .atom (opening :: (tokens ++ [closing])) (.list values) := by
  obtain ⟨parts, hparts, hlisted⟩ := h
  obtain ⟨items, rfl, rfl, hitems⟩ := exists_items hparts
  exact .list items hopening hclosing hlisted hitems

theorem Series.call [CharNames] {word : Token} {values : List Expr}
    (h : Series (Spells .conditional) Listed tokens values) (hword : word.terminal = .name)
    (hopening : opening.terminal = .openParen) (hclosing : closing.terminal = .closeParen) :
    Spells .atom (word :: opening :: (tokens ++ [closing])) (.call (keyText word) values) := by
  obtain ⟨parts, hparts, hlisted⟩ := h
  obtain ⟨items, rfl, rfl, hitems⟩ := exists_items hparts
  exact .call items hword hopening hclosing hlisted hitems

theorem Series.map [CharNames] {pairs : List (String × Expr)} (h : Series SpellsEntry Listed tokens pairs)
    (hopening : opening.terminal = .openBrace) (hclosing : closing.terminal = .closeBrace) :
    Spells .atom (opening :: (tokens ++ [closing])) (.map pairs) := by
  obtain ⟨parts, hparts, hlisted⟩ := h
  obtain ⟨entries, rfl, rfl, hnamed, hvalues⟩ := exists_entries hparts
  exact .map entries hopening hclosing hlisted hnamed hvalues

end Brackets

/-- The states for the first item of a list, for the second, and for those after it. -/
def stages (first second later : List Nat) : Nat → List Nat
  | 0 => first
  | 1 => second
  | _ => later

theorem Row.stages {close : Terminal} {a b c a' b' c' final : List Nat}
    (hcomma : Automaton.shift? .comma 16 a' = some b ∧ Automaton.shift? .comma 16 b' = some c ∧
      Automaton.shift? .comma 16 c' = some c)
    (hclose : ∀ entered ∈ [a', b', c', b, c], Automaton.shift? close 16 entered = some final) :
    Row close (stages a b c) (stages a' b' c') final where
  comma n := match n with
    | 0 => .of_shift? 16 hcomma.1
    | 1 => .of_shift? 16 hcomma.2.1
    | _ + 2 => .of_shift? 16 hcomma.2.2
  closed n := match n with
    | 0 => .of_shift? 16 (hclose a' (by simp))
    | 1 => .of_shift? 16 (hclose b' (by simp))
    | _ + 2 => .of_shift? 16 (hclose c' (by simp))
  trailing n := match n with
    | 0 => .of_shift? 16 (hclose b (by simp))
    | _ + 1 => .of_shift? 16 (hclose c (by simp))

theorem Fills.stages {a b c a' b' c' : List Nat} {lexemes : List Lexeme} (hfirst : Fills a lexemes a')
    (hsecond : Fills b lexemes b') (hlater : Fills c lexemes c') (n : Nat) :
    Fills (Expr.stages a b c n) lexemes (Expr.stages a' b' c' n) :=
  match n with
  | 0 => hfirst
  | 1 => hsecond
  | _ + 2 => hlater

section Arguments

/-- The states in front of each expression of a list that starts in the outer states. -/
abbrev argumentSlot (outer : List Nat) : Nat → List Nat :=
  stages outer (57 :: 34 :: outer) (77 :: 58 :: 34 :: outer)

abbrev argumentSettled (outer : List Nat) : Nat → List Nat :=
  stages (34 :: outer) (76 :: 57 :: 34 :: outer) (82 :: 77 :: 58 :: 34 :: outer)

theorem row_list : Row .closeBracket (argumentSlot [5]) (argumentSettled [5]) [56, 33, 5] :=
  .stages (by decide) (by decide)

theorem row_call : Row .closeParen (argumentSlot [36, 7]) (argumentSettled [36, 7]) [78, 60, 36, 7] :=
  .stages (by decide) (by decide)

theorem exists_argument [CharNames] {source : String} {e : Expr} (h : parse source = .ok e) {outer : List Nat}
    (houter : Automaton.goto? (top outer) .conditional = some 34) :
    ∃ item : Item Expr, item.text = source.toList ∧ item.value = e ∧
      item.Fits (Spells .conditional) (argumentSlot outer) (argumentSettled outer) := by
  obtain ⟨lead, lexemes, hsource, hlead, hportable⟩ := exists_portable h
  have hsecond : Automaton.goto? 57 .conditional = some 76 := by decide
  have hlater : Automaton.goto? 77 .conditional = some 82 := by decide
  refine ⟨⟨lead, lexemes, e⟩, hsource.symm, rfl, hlead, ?_, hportable.spells⟩
  exact .stages (hportable.fills outer 34 houter) (hportable.fills _ 76 hsecond) (hportable.fills _ 82 hlater)

variable {items : List (String × Expr)} {comma : String}

theorem exists_arguments [CharNames] (h : ∀ item ∈ items, parse item.1 = .ok item.2) {outer : List Nat}
    (houter : Automaton.goto? (top outer) .conditional = some 34) :
    ∀ piece ∈ items.map (fun item => (item.1.toList, item.2)), ∃ item : Item Expr, (item.text, item.value) = piece ∧
      item.Fits (Spells .conditional) (argumentSlot outer) (argumentSettled outer) := by
  rw [List.forall_mem_map]
  intro item hitem
  obtain ⟨argument, htext, hvalue, hfits⟩ := exists_argument (h item hitem) houter
  exact ⟨argument, by rw [htext, hvalue], hfits⟩

theorem parse_list [CharNames] (h : ∀ item ∈ items, parse item.1 = .ok item.2) (hcomma : Trailing items comma) :
    parse ("[" ++ ", ".intercalate (items.map (·.1)) ++ comma ++ "]") = .ok (.list (items.map (·.2))) := by
  obtain ⟨trailing, htrailing, hcommas⟩ := hcomma.exists_commas
  have houter : Automaton.goto? 5 .conditional = some 34 := by decide
  have hclosing : (Terminal.closeBracket, ']') ∈ Lexer.closings := by decide
  have hempty : Shifts .closeBracket [5] [32, 5] := .of_step (by decide)
  have hopen : Shifts .openBracket [] [5] := .of_step (by decide)
  obtain ⟨lead, lexemes, last, hlead, htext, hreading, hspells⟩ :=
    exists_row row_list ⟨_, hempty⟩ hclosing (exists_arguments h houter) (by simpa using htrailing)
  have hwhole : Reading [] [] (⟨.openBracket, ['['], lead⟩ :: lexemes) last :=
    .readable (Lexeme.readable_plain (by simp [Terminal.signs]) (by decide) hlead _) hopen hreading
  refine hwhole.parse_at_start ?_ fun here => ?_
  · rw [Lexeme.text_cons, htext, hcommas]
    simp [Function.comp_def]
  · obtain ⟨tokens, token, hplace, hclose, hseries⟩ := hspells ((here.advance ['[']).advance lead)
    rw [List.map_map] at hseries
    rw [place, hplace]
    exact (hseries.list rfl hclose).conditional_of_atom

theorem parse_call [CharNames] {f : String} (hf : IsIdentifier f) (hkeyword : ¬ IsKeyword f)
    (h : ∀ item ∈ items, parse item.1 = .ok item.2) (hcomma : Trailing items comma) :
    parse (f ++ "(" ++ ", ".intercalate (items.map (·.1)) ++ comma ++ ")") = .ok (.call f (items.map (·.2))) := by
  obtain ⟨trailing, htrailing, hcommas⟩ := hcomma.exists_commas
  have houter : Automaton.goto? 36 .conditional = some 34 := by decide
  have hclosing : (Terminal.closeParen, ')') ∈ Lexer.closings := by decide
  have hempty : Shifts .closeParen [36, 7] [59, 36, 7] := .of_step (by decide)
  have hname : Shifts .name [] [7] := .of_step (by decide)
  have hopen : Shifts .openParen [7] [36, 7] := .of_step (by decide)
  obtain ⟨lead, lexemes, last, hlead, htext, hreading, hspells⟩ :=
    exists_row row_call ⟨_, hempty⟩ hclosing (exists_arguments h houter) (by simpa using htrailing)
  have hwhole : Reading [] [] (⟨.name, f.toList, []⟩ :: ⟨.openParen, ['('], lead⟩ :: lexemes) last := by
    refine .identifier hf (fun t _ ht => hkeyword ⟨t, ht⟩) blank_nil (by simp [Lexeme.text, Lexer.isNamePart]) hname ?_
    exact .readable (Lexeme.readable_plain (by simp [Terminal.signs]) (by decide) hlead _) hopen hreading
  refine hwhole.parse_at_start ?_ fun here => ?_
  · rw [Lexeme.text_cons, Lexeme.text_cons, htext, hcommas]
    simp [Function.comp_def]
  · obtain ⟨tokens, token, hplace, hclose, hseries⟩ :=
      hspells ((((here.advance f.toList).advance []).advance ['(']).advance lead)
    rw [List.map_map] at hseries
    rw [place, place, hplace]
    have hcall (word opening : Token) (hname : word.terminal = .name) (hopening : opening.terminal = .openParen)
        (hword : word.text = f.toList) :
        Spells .atom (word :: opening :: (tokens ++ [token])) (.call f (items.map (·.2))) := by
      rw [← keyText_eq hword]
      exact hseries.call hname hopening hclose
    exact (hcall _ _ rfl rfl rfl).conditional_of_atom

end Arguments

section Entries

abbrev entrySlot : Nat → List Nat :=
  stages [3] [52, 29, 3] [75, 53, 29, 3]

abbrev entrySettled : Nat → List Nat :=
  stages [72, 50, 26, 3] [72, 50, 26, 52, 29, 3] [72, 50, 26, 75, 53, 29, 3]

theorem row_map : Row .closeBrace entrySlot entrySettled [54, 30, 3] :=
  .stages (by decide) (by decide)

theorem Portable.fills_entry [CharNames] {key : String} {lead : List Char} {lexemes : List Lexeme} {e : Expr}
    {before : List Nat} (h : Portable lexemes e) (hkey : IsIdentifier key)
    (hlead : ∀ c ∈ lead, Lexer.isIgnored c = true) (hname : Automaton.step? (top before) (.terminal .name) = some 26)
    (hplain : ∀ t ∈ Automaton.accepted (top before), t.keyword? = none) :
    Fills before (⟨.name, key.toList, []⟩ :: ⟨.colon, [':'], ' ' :: lead⟩ :: lexemes) (72 :: 50 :: 26 :: before) := by
  have hgoto : Automaton.goto? 50 .conditional = some 72 := by decide
  have hcolon : Automaton.step? 26 (.terminal .colon) = some 50 := by decide
  obtain ⟨last, hreading, hsettled⟩ := h.fills (50 :: 26 :: before) 72 hgoto
  have hgap : ∀ c ∈ ' ' :: lead, Lexer.isIgnored c = true :=
    List.forall_mem_cons.mpr ⟨by simp [Lexer.isIgnored], hlead⟩
  refine ⟨last, fun following hfollowing => ?_, hsettled⟩
  -- where a key may stand, only names and texts are looked for, so that every word is a name
  refine .identifier hkey (fun t ht => by simp [hplain t ht]) blank_nil ?_ (.of_step hname) ?_
  · simp [Lexeme.text, Lexer.isNamePart]
  · exact .readable (Lexeme.readable_plain (by simp [Terminal.signs]) (by decide) hgap _) (.of_step hcolon)
      (hreading following hfollowing)

theorem exists_entry [CharNames] {key source : String} {e : Expr} (hkey : IsIdentifier key) (h : parse source = .ok e) :
    ∃ item : Item (String × Expr), item.text = key.toList ++ ':' :: ' ' :: source.toList ∧ item.value = (key, e) ∧
      item.Fits SpellsEntry entrySlot entrySettled := by
  obtain ⟨lead, lexemes, hsource, hlead, hportable⟩ := exists_portable h
  refine ⟨⟨[], ⟨.name, key.toList, []⟩ :: ⟨.colon, [':'], ' ' :: lead⟩ :: lexemes, (key, e)⟩, ?_, rfl, blank_nil, ?_,
    fun here => ?_⟩
  · simp [Item.text, Lexeme.text, hsource]
  · exact .stages (hportable.fills_entry hkey hlead (by decide) (by decide))
      (hportable.fills_entry hkey hlead (by decide) (by decide))
      (hportable.fills_entry hkey hlead (by decide) (by decide))
  · exact ⟨⟨_, _, _, key, e⟩, rfl, rfl, ⟨rfl, .inl ⟨rfl, (keyText_eq rfl).symm⟩⟩, hportable.spells _⟩

theorem parse_map [CharNames] {entries : List (String × String × Expr)} {comma : String}
    (h : ∀ entry ∈ entries, IsIdentifier entry.1 ∧ parse entry.2.1 = .ok entry.2.2) (hcomma : Trailing entries comma) :
    parse ("\x7b" ++ ", ".intercalate (entries.map fun entry => entry.1 ++ ": " ++ entry.2.1) ++ comma ++ "\x7d") =
      .ok (.map (entries.map fun entry => (entry.1, entry.2.2))) := by
  obtain ⟨trailing, htrailing, hcommas⟩ := hcomma.exists_commas
  have hclosing : (Terminal.closeBrace, '}') ∈ Lexer.closings := by decide
  have hempty : Shifts .closeBrace [3] [27, 3] := .of_step (by decide)
  have hopen : Shifts .openBrace [] [3] := .of_step (by decide)
  have hpieces : ∀ piece ∈ entries.map (fun entry =>
      (entry.1.toList ++ ':' :: ' ' :: entry.2.1.toList, entry.1, entry.2.2)),
      ∃ item : Item (String × Expr), (item.text, item.value) = piece ∧
        item.Fits SpellsEntry entrySlot entrySettled := by
    rw [List.forall_mem_map]
    intro entry hentry
    obtain ⟨hkey, hvalue⟩ := h entry hentry
    obtain ⟨item, htext, hitem, hfits⟩ := exists_entry hkey hvalue
    exact ⟨item, by rw [htext, hitem], hfits⟩
  obtain ⟨lead, lexemes, last, hlead, htext, hreading, hspells⟩ :=
    exists_row row_map ⟨_, hempty⟩ hclosing hpieces (by simpa using htrailing)
  have hwhole : Reading [] [] (⟨.openBrace, ['{'], lead⟩ :: lexemes) last :=
    .readable (Lexeme.readable_plain (by simp [Terminal.signs]) (by decide) hlead _) hopen hreading
  refine hwhole.parse_at_start ?_ fun here => ?_
  · rw [Lexeme.text_cons, htext, hcommas]
    simp [Function.comp_def]
  · obtain ⟨tokens, token, hplace, hclose, hseries⟩ := hspells ((here.advance ['{']).advance lead)
    rw [List.map_map] at hseries
    rw [place, hplace]
    exact (hseries.map rfl hclose).conditional_of_atom

end Entries

end RoutineFlow.Expr
