import RoutineFlow.Expr.Code
import RoutineFlow.Proofs.Keyed
import RoutineFlow.Proofs.Layout

/-!
A document is an expression for itself: what is written for a value is read as a literal, and has the value whatever
the names in the environment mean.
-/

namespace RoutineFlow

namespace Value

mutual

/-- The numbers within a value. -/
def numbers : Value → List Number
  | .num n => [n]
  | .list items => itemsNumbers items
  | .map entries => entriesNumbers entries
  | _ => []

def itemsNumbers : List Value → List Number
  | [] => []
  | v :: rest => numbers v ++ itemsNumbers rest

def entriesNumbers : List (Key × Value) → List Number
  | [] => []
  | (_, v) :: rest => numbers v ++ entriesNumbers rest

end

theorem numbers_of_mem_items {items : List Value} {v : Value} {n : Number} (hv : v ∈ items)
    (hn : n ∈ v.numbers) : n ∈ (Value.list items).numbers := by
  rw [numbers]
  induction items with
  | nil => cases hv
  | cons w items ih =>
    rw [itemsNumbers, List.mem_append]
    rcases List.mem_cons.mp hv with rfl | hv
    · exact .inl hn
    · exact .inr (ih hv)

theorem numbers_of_mem_fields {fields : Mapping String Value} {entry : String × Value} {n : Number}
    (hentry : entry ∈ fields) (hn : n ∈ entry.2.numbers) : n ∈ (Value.record fields).numbers := by
  rw [record, numbers]
  induction fields with
  | nil => cases hentry
  | cons other fields ih =>
    have hcons :
        Environment.ofNamed (other :: fields) = (.text other.1, other.2) :: Environment.ofNamed fields := rfl
    rw [hcons, entriesNumbers, List.mem_append]
    rcases List.mem_cons.mp hentry with rfl | hentry
    · exact .inl hn
    · exact .inr (ih hentry)

end Value

namespace Expr

open Lexeme (place AllReadable enclosed)

/-- A value, the lexemes that are written for it, and the expression that these spell. -/
structure Member where
  value : Value
  lexemes : List Lexeme
  expr : Expr

variable {bindings : Environment}

/-- The member is written as it says, read as it says, and evaluated to its value. -/
structure Member.Faithful [CharNames] (bindings : Environment) (m : Member) : Prop where
  written : ∀ depth, Json.write .line depth m.value = .ok (Lexeme.text m.lexemes)
  readable : ∀ rest, Delimited rest → AllReadable m.lexemes rest
  spelled : ∀ here, Spells .conditional (place here m.lexemes) m.expr
  evaluated : eval bindings m.expr = .ok m.value

theorem Spells.conditional_of_unary [CharNames] {tokens : List Token} {e : Expr} (h : Spells .unary tokens e) :
    Spells .conditional tokens e := by
  have hproduct : Spells .product tokens e := .pass rfl h
  have hsum : Spells .sum tokens e := .pass rfl hproduct
  have hcomparison : Spells .comparison tokens e := .pass rfl hsum
  have hnegation : Spells .negation tokens e := .pass rfl hcomparison
  have hconjunction : Spells .conjunction tokens e := .pass rfl hnegation
  have hdisjunction : Spells .disjunction tokens e := .pass rfl hconjunction
  exact .pass rfl hdisjunction

theorem Spells.unary_of_atom [CharNames] {tokens : List Token} {e : Expr} (h : Spells .atom tokens e) :
    Spells .unary tokens e := by
  have hsuffixed : Spells .suffixed tokens e := .pass rfl h
  exact .pass rfl hsuffixed

theorem Spells.conditional_of_atom [CharNames] {tokens : List Token} {e : Expr} (h : Spells .atom tokens e) :
    Spells .conditional tokens e :=
  h.unary_of_atom.conditional_of_unary

namespace Member

theorem word [CharNames] {v : Value} {t : Terminal} {spelling : List Char} {e : Expr}
    (hword : (t, spelling) ∈ Lexer.words) (hwritten : ∀ depth, Json.write .line depth v = .ok spelling)
    (hspelled : ∀ here, Spells .atom [⟨t, spelling, here⟩] e) (hvalue : eval bindings e = .ok v) :
    Faithful bindings ⟨v, [⟨t, spelling, []⟩], e⟩ where
  written depth := by simp [hwritten depth, Lexeme.text]
  readable rest hrest := ⟨Lexeme.readable_word hword hrest, trivial⟩
  spelled here := (hspelled here).conditional_of_atom
  evaluated := hvalue

theorem text [CharNames] (s : String) :
    Faithful bindings ⟨.str s, [⟨.text, Json.writeText false s.toList, []⟩], .text s⟩ where
  written depth := by
    rw [Json.write]
    simp [Lexeme.text]
    rfl
  readable rest hrest := ⟨Lexeme.readable_text _ _, trivial⟩
  spelled here := by
    have hspells := @Spells.text _ ⟨.text, Json.writeText false s.toList, here⟩ s.toList rfl
      (Literal.text_writeText _)
    rw [String.ofList_toList] at hspells
    exact hspells.conditional_of_atom
  evaluated := rfl

theorem number [CharNames] {n : Number} (hexact : n.Exact)
    (hprint : ∀ x, n = .float x → Numeral.double? (Binary.text x) = some x) :
    ∃ m : Member, m.value = .num n ∧ m.Faithful bindings := by
  obtain ⟨w, k, hread, h⟩ := Number.written hexact hprint bindings
  have hnumeral : ∀ here, Spells .atom [⟨.numeral, w.text, here⟩] (.numeral k) := fun here =>
    .numeral rfl hread
  rcases h with ⟨hwritten, hvalue⟩ | ⟨hwritten, hvalue⟩
  · refine ⟨⟨.num n, [⟨.numeral, w.text, []⟩], .numeral k⟩, rfl, ?_⟩
    constructor
    · intro depth
      rw [Json.write, hwritten]
      simp [Lexeme.text]
    · intro rest hrest
      exact ⟨Lexeme.readable_numeral w hrest, trivial⟩
    · intro here
      exact (hnumeral here).conditional_of_atom
    · exact hvalue
  · refine ⟨⟨.num n, [.sign (.minus, '-'), ⟨.numeral, w.text, []⟩], .unary .negative (.numeral k)⟩, rfl, ?_⟩
    constructor
    · intro depth
      rw [Json.write, hwritten]
      simp [Lexeme.text, Lexeme.sign]
    · intro rest hrest
      exact ⟨Lexeme.readable_sign (by decide) (by simp) _, Lexeme.readable_numeral w hrest, trivial⟩
    · intro here
      apply Spells.conditional_of_unary
      exact .signed (.inl ⟨rfl, rfl⟩) (hnumeral _).unary_of_atom
    · exact hvalue

theorem writeItems [CharNames] {ms : List Member} (h : ∀ m ∈ ms, m.Faithful bindings) (depth : Nat) :
    Json.writeItems .line depth (ms.map (·.value)) = .ok (ms.map fun m => Lexeme.text m.lexemes) := by
  induction ms with
  | nil => rfl
  | cons m ms ih =>
    obtain ⟨hm, hms⟩ := List.forall_mem_cons.mp h
    rw [List.map_cons, Json.writeItems, hm.written, ih hms]
    rfl

theorem evalItems [CharNames] {ms : List Member} (h : ∀ m ∈ ms, m.Faithful bindings) :
    Expr.evalItems bindings (ms.map (·.expr)) = .ok (ms.map (·.value)) := by
  induction ms with
  | nil => rfl
  | cons m ms ih =>
    obtain ⟨hm, hms⟩ := List.forall_mem_cons.mp h
    rw [List.map_cons, Expr.evalItems, hm.evaluated, ih hms]
    rfl

theorem list [CharNames] {ms : List Member} (h : ∀ m ∈ ms, m.Faithful bindings) :
    Faithful bindings ⟨.list (ms.map (·.value)),
      enclosed (.openBracket, '[') (.closeBracket, ']') (ms.map (·.lexemes)), .list (ms.map (·.expr))⟩ where
  written depth := by
    rw [Json.write, writeItems h, Lexeme.text_enclosed _ _ _ depth, List.map_map]
    rfl
  readable rest hrest := by
    apply Lexeme.readable_enclosed (by decide) (by decide) (.inl rfl)
    intro part hpart
    obtain ⟨m, hm, rfl⟩ := List.mem_map.mp hpart
    exact (h m hm).readable
  spelled here := by
    have hplaced : ∀ m ∈ ms, ∀ here, ∃ item : List Token × Expr, item.1 = place here m.lexemes ∧
        item.2 = m.expr ∧ Spells .conditional item.1 item.2 :=
      fun m hm here => ⟨(_, _), rfl, rfl, (h m hm).spelled here⟩
    obtain ⟨inner, last, hplace⟩ :=
      Lexeme.place_enclosed (.openBracket, '[') (.closeBracket, ']') (ms.map (·.lexemes)) here
    obtain ⟨items, hlisted, hexprs, hspells⟩ := Lexeme.listed_of_placed hplaced inner
    rw [hplace, ← hexprs]
    exact (Spells.list items rfl rfl hlisted hspells).conditional_of_atom
  evaluated := by
    rw [eval, evalItems h]
    rfl

def entryLexemes (field : String × Member) : List Lexeme :=
  ⟨.text, Json.writeText false field.1.toList, []⟩ :: .colon :: field.2.lexemes

def placedEntry (here : Text.Position) (field : String × Member) : Entry :=
  let key := Json.writeText false field.1.toList
  let behind := (here.advance key).advance []
  ⟨⟨.text, key, here⟩, ⟨.colon, [':'], behind⟩, place ((behind.advance [':']).advance [' ']) field.2.lexemes,
    field.1, field.2.expr⟩

theorem text_entryLexemes (field : String × Member) :
    Lexeme.text (entryLexemes field) =
      Json.writeText false field.1.toList ++ [':', ' '] ++ Lexeme.text field.2.lexemes := by
  simp [entryLexemes, Lexeme.text, Lexeme.colon]

theorem writeEntries [CharNames] {fields : List (String × Member)} (h : ∀ field ∈ fields, field.2.Faithful bindings)
    (depth : Nat) :
    Json.writeEntries .line depth (Environment.ofNamed (fields.map fun field => (field.1, field.2.value))) =
      .ok (fields.map fun field => Lexeme.text (entryLexemes field)) := by
  induction fields with
  | nil => rfl
  | cons field fields ih =>
    obtain ⟨hfield, hfields⟩ := List.forall_mem_cons.mp h
    have hrest := ih hfields
    simp only [Environment.ofNamed, List.map_cons] at hrest ⊢
    rw [Json.writeEntries, hfield.written, hrest, text_entryLexemes]
    rfl

theorem evalEntries [CharNames] {fields : List (String × Member)} (h : ∀ field ∈ fields, field.2.Faithful bindings) :
    Expr.evalEntries bindings (fields.map fun field => (field.1, field.2.expr)) =
      .ok (Environment.ofNamed (fields.map fun field => (field.1, field.2.value))) := by
  induction fields with
  | nil => rfl
  | cons field fields ih =>
    obtain ⟨hfield, hfields⟩ := List.forall_mem_cons.mp h
    rw [List.map_cons, Expr.evalEntries, hfield.evaluated, ih hfields]
    rfl

theorem map [CharNames] {fields : List (String × Member)} (hdistinct : (Mapping.keys fields).Nodup)
    (h : ∀ field ∈ fields, field.2.Faithful bindings) :
    Faithful bindings ⟨.record (fields.map fun field => (field.1, field.2.value)),
      enclosed (.openBrace, '{') (.closeBrace, '}') (fields.map entryLexemes),
      .map (fields.map fun field => (field.1, field.2.expr))⟩ where
  written depth := by
    rw [Value.record, Json.write, writeEntries h, Lexeme.text_enclosed _ _ _ depth, List.map_map]
    rfl
  readable rest hrest := by
    apply Lexeme.readable_enclosed (by decide) (by decide) (.inr rfl)
    intro part hpart rest hrest
    obtain ⟨field, hfield, rfl⟩ := List.mem_map.mp hpart
    exact ⟨Lexeme.readable_text _ _, Lexeme.readable_colon _,
      (h field hfield).readable rest hrest⟩
  spelled here := by
    have hplaced : ∀ field ∈ fields, ∀ here, ∃ entry : Entry,
        entry.spelling = place here (entryLexemes field) ∧
          (entry.word, entry.value) = (field.1, field.2.expr) ∧
          (entry.Named ∧ Spells .conditional entry.tokens entry.value) := by
      intro field hfield here
      have hname : Literal.text (Json.writeText false field.1.toList) = .ok field.1.toList :=
        Literal.text_writeText _
      refine ⟨placedEntry here field, rfl, rfl, ?_, ?_⟩
      · exact ⟨rfl, .inr ⟨rfl, _, hname, String.ofList_toList.symm⟩⟩
      · exact (h field hfield).spelled _
    obtain ⟨inner, last, hplace⟩ :=
      Lexeme.place_enclosed (.openBrace, '{') (.closeBrace, '}') (fields.map entryLexemes) here
    obtain ⟨entries, hlisted, hexprs, hspells⟩ := Lexeme.listed_of_placed hplaced inner
    rw [hplace, ← hexprs]
    exact (Spells.map entries rfl rfl hlisted (fun entry hmem => (hspells entry hmem).1)
      fun entry hmem => (hspells entry hmem).2).conditional_of_atom
  evaluated := by
    have hkeys : Mapping.keys (fields.map fun field => (field.1, field.2.value)) = Mapping.keys fields := by
      simp [Mapping.keys]
    rw [← hkeys] at hdistinct
    rw [eval, evalEntries h]
    simp [Json.ofEntries_ofNamed hdistinct, Value.record]

end Member

theorem exists_map_eq {α β : Type} {f : α → β} {P : α → Prop} {bs : List β}
    (h : ∀ b ∈ bs, ∃ a, f a = b ∧ P a) : ∃ as : List α, as.map f = bs ∧ ∀ a ∈ as, P a := by
  induction bs with
  | nil => exact ⟨[], rfl, by simp⟩
  | cons b bs ih =>
    obtain ⟨hb, hbs⟩ := List.forall_mem_cons.mp h
    obtain ⟨a, ha, hP⟩ := hb
    obtain ⟨as, has, hall⟩ := ih hbs
    exact ⟨a :: as, by rw [List.map_cons, ha, has], List.forall_mem_cons.mpr ⟨hP, hall⟩⟩

theorem exists_faithful [CharNames] (bindings : Environment) {v : Value} (hkeyed : v.Keyed)
    (hnumbers : ∀ n ∈ v.numbers, n.Exact ∧ ∀ x, n = .float x → Numeral.double? (Binary.text x) = some x) :
    ∃ m : Member, m.value = v ∧ m.Faithful bindings := by
  -- The numbers of the members are among those of the whole, so what is known of all holds for each member.
  induction hkeyed with
  | null => exact ⟨_, rfl, Member.word (by decide) (fun _ => rfl) (fun _ => .nullWord rfl) rfl⟩
  | bool b =>
    cases b with
    | true => exact ⟨_, rfl, Member.word (by decide) (fun _ => rfl) (fun _ => .trueWord rfl) rfl⟩
    | false => exact ⟨_, rfl, Member.word (by decide) (fun _ => rfl) (fun _ => .falseWord rfl) rfl⟩
  | num n =>
    obtain ⟨hexact, hprint⟩ := hnumbers n (by simp [Value.numbers])
    exact Member.number hexact hprint
  | str s => exact ⟨_, rfl, Member.text s⟩
  | @list items _ ih =>
    have hmembers : ∀ v ∈ items, ∃ m : Member, m.value = v ∧ m.Faithful bindings := fun v hv =>
      ih v hv fun n hn => hnumbers n (Value.numbers_of_mem_items hv hn)
    obtain ⟨ms, rfl, hms⟩ := exists_map_eq hmembers
    exact ⟨_, rfl, Member.list hms⟩
  | @map fields hdistinct _ ih =>
    have hmembers : ∀ entry ∈ fields, ∃ field : String × Member,
        (field.1, field.2.value) = entry ∧ field.2.Faithful bindings := by
      intro entry hentry
      obtain ⟨m, hm, hfaithful⟩ :=
        ih entry hentry fun n hn => hnumbers n (Value.numbers_of_mem_fields hentry hn)
      exact ⟨(entry.1, m), by rw [hm], hfaithful⟩
    obtain ⟨members, rfl, hfaithful⟩ := exists_map_eq hmembers
    refine ⟨_, rfl, Member.map ?_ hfaithful⟩
    simpa [Mapping.keys, Function.comp_def] using hdistinct

/-- A document of exact numbers, written in one line, is an expression that evaluates to it in every environment, if
what is printed for its doubles is read back. -/
theorem document_evaluates_to_itself [CharNames] {v : Value} (hkeyed : v.Keyed) (hexact : ∀ n ∈ v.numbers, n.Exact)
    (hprint : ∀ x, .float x ∈ v.numbers → Numeral.double? (Binary.text x) = some x) (input : Value) :
    ∃ code, Json.render .line v = .ok code ∧ evaluate code input = .ok v := by
  have hnumbers : ∀ n ∈ v.numbers, n.Exact ∧ ∀ x, n = .float x → Numeral.double? (Binary.text x) = some x := by
    intro n hn
    refine ⟨hexact n hn, ?_⟩
    rintro x rfl
    exact hprint x hn
  obtain ⟨m, rfl, hm⟩ := exists_faithful [(.text inputName, input)] hkeyed hnumbers
  have hspells : Spells .whole (place .start m.lexemes) m.expr := .pass rfl (hm.spelled .start)
  have hreadable : AllReadable m.lexemes [] := hm.readable [] (by simp [Delimited])
  have hparse := parse_lexemes hreadable hspells
  refine ⟨String.ofList (Lexeme.text m.lexemes), ?_, ?_⟩
  · rw [Json.render, hm.written]
    rfl
  · rw [evaluate, hparse]
    simp only [hm.evaluated, Except.mapError]

/-- A document with both zeros in it, with escapes, and with nothing in some of its parts. -/
def crowded : Value :=
  .record [("\"é\n", .list [.num (.float (-0.0)), .num (.float 0.0), .num (.int (-7)), .num (.float 1e22)]),
    ("", .record [("z", .null), ("a", .bool true), ("empty", .list [])]),
    ("text", .str "\\u\t\x01"), ("nothing", .record [])]

theorem crowded_evaluates_to_itself :
    crowded.Keyed ∧ (∀ n ∈ crowded.numbers, n.Exact) ∧
      (∀ x, .float x ∈ crowded.numbers → Numeral.double? (Binary.text x) = some x) ∧
      ∃ code, Json.render .line crowded = .ok code ∧ evaluate code .null = .ok crowded := by
  have hkeyed : crowded.Keyed := by simp [crowded, Mapping.keys]
  have hnumbers : crowded.numbers = [.float (-0.0), .float 0.0, .int (-7), .float 1e22] := rfl
  have hexact : ∀ n ∈ crowded.numbers, n.Exact := by
    rw [hnumbers]
    decide +kernel
  have hprint : ∀ x, .float x ∈ crowded.numbers → Numeral.double? (Binary.text x) = some x := by
    rw [hnumbers]
    intro x hx
    simp only [List.mem_cons, Number.float.injEq, List.not_mem_nil, or_false, reduceCtorEq, false_or] at hx
    rcases hx with rfl | rfl | rfl <;> decide
  exact ⟨hkeyed, hexact, hprint, document_evaluates_to_itself hkeyed hexact hprint .null⟩

end Expr

end RoutineFlow
