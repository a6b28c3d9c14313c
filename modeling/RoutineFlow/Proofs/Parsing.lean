import RoutineFlow.Proofs.Deriving

namespace RoutineFlow.Expr

namespace Lexer

variable {accepted : List Terminal} {cs spelling : List Char} {t : Terminal}

theorem ne_nil_of_numeral (h : numeral? cs = some spelling) : spelling ≠ [] := by
  intro hnil
  subst hnil
  unfold numeral? at h
  simp only at h
  split at h
  · split at h <;> simp at h
  · split at h
    · simp at h
    · rename_i hwhole
      simp only [Option.some.injEq, List.append_eq_nil_iff] at h
      simp [h.1] at hwhole

theorem ne_nil_of_name (h : name? cs = some spelling) : spelling ≠ [] := by
  unfold name? at h
  split at h
  · simp at h
  · split at h
    · simp only [Option.some.injEq] at h
      simp [← h]
    · simp at h

theorem ne_nil_of_quoted (h : quoted? cs = some spelling) : spelling ≠ [] := by
  unfold quoted? at h
  split at h
  · obtain ⟨rest, -, rfl⟩ := Option.map_eq_some_iff.mp h
    simp
  · obtain ⟨rest, -, rfl⟩ := Option.map_eq_some_iff.mp h
    simp
  · simp at h

theorem ne_nil_of_keyword (h : t.keyword? = some spelling) : spelling ≠ [] := by
  intro hnil
  subst hnil
  cases t <;> simp [Terminal.keyword?] at h

theorem ne_nil_of_sign (h : spelling ∈ t.signs) : spelling ≠ [] := by
  intro hnil
  subst hnil
  cases t <;> simp [Terminal.signs] at h

theorem ne_nil_of_scan (h : scan? accepted cs = some (t, spelling)) : spelling ≠ [] := by
  rcases scan_eq_some h with ⟨-, -, h⟩ | ⟨-, -, h⟩ | ⟨-, -, h⟩ | h | h
  · exact ne_nil_of_numeral h
  · exact ne_nil_of_name h
  · exact ne_nil_of_quoted h
  · exact ne_nil_of_keyword (keyword_eq_some h).2.2.1
  · exact ne_nil_of_sign (punctuation_eq_some h).2.2.1

theorem scan_nil (accepted : List Terminal) : scan? accepted [] = none := by
  apply Option.eq_none_iff_forall_ne_some.mpr
  rintro ⟨t, spelling⟩ h
  have hne := ne_nil_of_scan h
  rcases scan_eq_some h with ⟨-, -, h⟩ | ⟨-, -, h⟩ | ⟨-, -, h⟩ | h | h
  · cases h
  · cases h
  · cases h
  · exact hne (List.prefix_nil.mp (keyword_eq_some h).2.2.2)
  · exact hne (List.prefix_nil.mp (punctuation_eq_some h).2.2.2)

end Lexer

/-- The tokens of a text, each read among those that the states before it lead to accept. -/
inductive Lexed : Stack → Text.Position → List Char → List Token → Prop
  | done {stack : Stack} {here : Text.Position} {cs : List Char} :
      cs.dropWhile Lexer.isIgnored = [] → Lexed stack here cs []
  | token {stack next : Stack} {here p : Text.Position} {cs rest spelling : List Char}
      {t : Terminal} {tokens : List Token} :
      cs.dropWhile Lexer.isIgnored = rest → here.advance (cs.takeWhile Lexer.isIgnored) = p →
      Lexer.scan? (Automaton.accepted stack.state) rest = some (t, spelling) →
      stack.feed ⟨t, spelling, p⟩ = .ok next →
      Lexed next (p.advance spelling) (rest.drop spelling.length) tokens →
        Lexed stack here cs (⟨t, spelling, p⟩ :: tokens)

theorem Lexed.delivered {stack : Stack} {here : Text.Position} {cs : List Char} {tokens : List Token}
    (h : Lexed stack here cs tokens) : ∀ token ∈ tokens, Delivered token := by
  induction h with
  | done => simp
  | token _ _ hscan _ _ ih =>
    rw [List.forall_mem_cons]
    exact ⟨⟨_, _, hscan⟩, ih⟩

theorem parseFrom_eq_ok {fuel : Nat} {stack : Stack} {last : Option Token} {here : Text.Position}
    {cs : List Char} {tree : Tree} (h : parseFrom fuel stack last here cs = .ok tree) :
    ∃ tokens, Lexed stack here cs tokens ∧ deriveFrom stack tokens = .ok tree := by
  induction fuel generalizing stack last here cs with
  | zero => simp [parseFrom] at h
  | succ fuel ih =>
    simp only [parseFrom] at h
    split at h
    · rename_i hend
      refine ⟨[], .done hend, ?_⟩
      split at h
      · rename_i tree' hfinish
        cases h
        exact hfinish
      · simp at h
    · rename_i c rest hrest
      split at h
      · rename_i t spelling hscan
        split at h
        · rename_i next hfeed
          obtain ⟨tokens, hlexed, hderive⟩ := ih h
          refine ⟨_, .token hrest rfl hscan hfeed hlexed, ?_⟩
          simp only [deriveFrom, hfeed, Except.bind, hderive]
        · simp at h
      · split at h <;> simp at h

/-- As much fuel as there are characters is enough, for no token is empty. -/
theorem parseFrom_of_lexed {fuel : Nat} {stack : Stack} {last : Option Token} {here : Text.Position}
    {cs : List Char} {tokens : List Token} {tree : Tree} (hlexed : Lexed stack here cs tokens)
    (hderive : deriveFrom stack tokens = .ok tree) (hfuel : cs.length < fuel) :
    parseFrom fuel stack last here cs = .ok tree := by
  induction hlexed generalizing fuel last with
  | done hend =>
    match fuel, hfuel with
    | fuel + 1, _ =>
      have hfinish : Stack.finish _ = .ok tree := hderive
      simp [parseFrom, hend, hfinish]
  | @token stack next here p cs rest spelling t tokens hrest hp hscan hfeed _ ih =>
    match fuel, hfuel with
    | fuel + 1, hfuel =>
      simp only [deriveFrom, hfeed, Except.bind] at hderive
      have hne := Lexer.ne_nil_of_scan hscan
      have hspelling : 0 < spelling.length := List.length_pos_iff.mpr hne
      have hle : rest.length ≤ cs.length := by
        rw [← hrest]
        exact (List.dropWhile_suffix _).length_le
      cases rest with
      | nil => simp [Lexer.scan_nil] at hscan
      | cons c rest =>
        simp only [List.length_cons] at hle
        have hshorter : ((c :: rest).drop spelling.length).length < fuel := by
          simp only [List.length_drop, List.length_cons]
          omega
        simp only [parseFrom, hrest, hscan, hp, hfeed]
        exact ih hderive hshorter

theorem deriveText_eq_ok {cs : List Char} {tree : Tree} :
    deriveText cs = .ok tree ↔ ∃ tokens, Lexed [] .start cs tokens ∧ Derives .whole tokens tree := by
  constructor
  · intro h
    obtain ⟨tokens, hlexed, hderive⟩ := parseFrom_eq_ok h
    have htokens : ∀ token ∈ tokens, token.terminal ≠ .finish :=
      fun token hmem => (hlexed.delivered token hmem).ne_finish
    exact ⟨tokens, hlexed, (derive_eq_ok htokens).mp hderive⟩
  · rintro ⟨tokens, hlexed, hderives⟩
    have hderive := derive_complete hderives
    exact parseFrom_of_lexed hlexed hderive (by omega)

theorem parse_eq_ok [CharNames] {source : String} {e : Expr} :
    parse source = .ok e ↔ ∃ tokens, Lexed [] .start source.toList tokens ∧ Spells .whole tokens e := by
  constructor
  · intro h
    unfold parse at h
    split at h
    · simp at h
    · rename_i tree hderive
      obtain ⟨tokens, hlexed, hderives⟩ := deriveText_eq_ok.mp hderive
      have hof : ofTree tree = .ok e := by
        cases hof : ofTree tree with
        | error problem => simp [hof, Except.mapError] at h
        | ok e' => simpa [hof, Except.mapError] using h
      exact ⟨tokens, hlexed, (hderives.ofTree_iff hlexed.delivered).mp hof⟩
  · rintro ⟨tokens, hlexed, hspells⟩
    obtain ⟨tree, hderives, hof⟩ := hspells.derived
    have hderive := deriveText_eq_ok.mpr ⟨tokens, hlexed, hderives⟩
    simp [parse, hderive, hof, Except.mapError]

/-- The parser accepts exactly the derivable sequences of tokens, each by its only derivation, and makes of
this the expression that the tokens spell by the levels of the operators. If it makes none, a literal has no
value. Of a text it takes the tokens that it looks for. -/
theorem parser_accepts_grammar [CharNames] :
    (∀ tokens : List Token, (∀ token ∈ tokens, Delivered token) →
      ((∃ tree, derive tokens = .ok tree) ↔ ∃ tree, Derives .whole tokens tree) ∧
      (∀ tree tree', Derives .whole tokens tree → Derives .whole tokens tree' → tree = tree') ∧
      ∀ tree, derive tokens = .ok tree → Derives .whole tokens tree ∧
        (∀ e, ofTree tree = .ok e ↔ Spells .whole tokens e) ∧
        ∀ problem, ofTree tree = .error problem → ∃ token ∈ tokens, Undecodable token problem) ∧
    ∀ source : String,
      (∀ tree, deriveText source.toList = .ok tree ↔
        ∃ tokens, Lexed [] .start source.toList tokens ∧ Derives .whole tokens tree) ∧
      ∀ e, parse source = .ok e ↔
        ∃ tokens, Lexed [] .start source.toList tokens ∧ Spells .whole tokens e := by
  refine ⟨?_, fun source => ⟨fun tree => deriveText_eq_ok, fun e => parse_eq_ok⟩⟩
  intro tokens hread
  have htokens : ∀ token ∈ tokens, token.terminal ≠ .finish :=
    fun token hmem => (hread token hmem).ne_finish
  refine ⟨exists_congr fun tree => derive_eq_ok htokens, fun _ _ h h' => h.unique h', ?_⟩
  intro tree hderive
  have hderives := (derive_eq_ok htokens).mp hderive
  refine ⟨hderives, fun e => hderives.ofTree_iff hread, ?_⟩
  intro problem hof
  have houtcome := hderives.outcome hread
  rw [hof] at houtcome
  exact houtcome

/-- The tokens of `a - b - c ? [x,] : not d`. -/
def leaning : List Token :=
  [⟨.name, ['a'], .start⟩, ⟨.minus, ['-'], .start⟩, ⟨.name, ['b'], .start⟩, ⟨.minus, ['-'], .start⟩,
    ⟨.name, ['c'], .start⟩, ⟨.question, ['?'], .start⟩, ⟨.openBracket, ['['], .start⟩,
    ⟨.name, ['x'], .start⟩, ⟨.comma, [','], .start⟩, ⟨.closeBracket, [']'], .start⟩,
    ⟨.colon, [':'], .start⟩, ⟨.notWord, ['n', 'o', 't'], .start⟩, ⟨.name, ['d'], .start⟩]

theorem leaning_parsed : (∀ token ∈ leaning, Delivered token) ∧
    Spells .whole leaning (.conditional
      (.binary .subtract (.binary .subtract (.name "a") (.name "b")) (.name "c"))
      (.list [.name "x"]) (.unary .not (.name "d"))) := by
  have hread : ∀ token ∈ leaning, Delivered token := by
    have hall : ∀ token ∈ leaning, Lexer.scan? [token.terminal] token.text =
        some (token.terminal, token.text) := by decide
    intro token hmem
    exact ⟨_, _, hall token hmem⟩
  refine ⟨hread, ?_⟩
  obtain ⟨tree, hderive, hof⟩ : ∃ tree, derive leaning = .ok tree ∧ ofTree tree = .ok (.conditional
      (.binary .subtract (.binary .subtract (.name "a") (.name "b")) (.name "c"))
      (.list [.name "x"]) (.unary .not (.name "d"))) := ⟨_, rfl, rfl⟩
  exact (((parser_accepts_grammar.1 leaning hread).2.2 tree hderive).2.1 _).mp hof

end RoutineFlow.Expr
