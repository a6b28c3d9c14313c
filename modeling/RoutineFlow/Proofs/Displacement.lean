import RoutineFlow.Proofs.Reading

/-!
What tokens spell does not depend on where they stand in a text.
-/

namespace RoutineFlow.Expr

/-- Tokens that differ in their places at most. -/
def Alike (token token' : Token) : Prop :=
  token'.terminal = token.terminal ∧ token'.text = token.text

open List (Forall₂)

theorem forall₂_append_left {α β : Type} {R : α → β → Prop} {as bs : List α} {cs : List β}
    (h : Forall₂ R (as ++ bs) cs) : ∃ as' bs', cs = as' ++ bs' ∧ Forall₂ R as as' ∧ Forall₂ R bs bs' := by
  induction as generalizing cs with
  | nil => exact ⟨[], cs, rfl, .nil, h⟩
  | cons a as ih =>
    obtain ⟨c, cs, hc, hrest, rfl⟩ := List.forall₂_cons_left_iff.mp h
    obtain ⟨as', bs', rfl, has, hbs⟩ := ih hrest
    exact ⟨c :: as', bs', rfl, .cons hc has, hbs⟩

variable {tokens tokens' left right : List Token} {token sign opening closing : Token}

theorem alike_one (h : Forall₂ Alike [token] tokens') : ∃ token', tokens' = [token'] ∧ Alike token token' := by
  obtain ⟨token', rest, htoken, hrest, rfl⟩ := List.forall₂_cons_left_iff.mp h
  cases hrest
  exact ⟨token', rfl, htoken⟩

theorem alike_cons (h : Forall₂ Alike (sign :: right) tokens') :
    ∃ sign' right', tokens' = sign' :: right' ∧ Alike sign sign' ∧ Forall₂ Alike right right' := by
  obtain ⟨sign', right', hsign, hright, rfl⟩ := List.forall₂_cons_left_iff.mp h
  exact ⟨sign', right', rfl, hsign, hright⟩

theorem alike_split (h : Forall₂ Alike (left ++ sign :: right) tokens') :
    ∃ left' sign' right', tokens' = left' ++ sign' :: right' ∧ Forall₂ Alike left left' ∧ Alike sign sign' ∧
      Forall₂ Alike right right' := by
  obtain ⟨left', rest, rfl, hleft, hrest⟩ := forall₂_append_left h
  obtain ⟨sign', right', rfl, hsign, hright⟩ := alike_cons hrest
  exact ⟨left', sign', right', rfl, hleft, hsign, hright⟩

theorem alike_closed (h : Forall₂ Alike (tokens ++ [closing]) tokens') :
    ∃ inner closing', tokens' = inner ++ [closing'] ∧ Forall₂ Alike tokens inner ∧ Alike closing closing' := by
  obtain ⟨inner, closing', rest, rfl, hinner, hclosing, hrest⟩ := alike_split h
  cases hrest
  exact ⟨inner, closing', rfl, hinner, hclosing⟩

variable {α : Type} {Item : List Token → α → Prop} {parts : List (List Token)} {values : List α}

/-- The value may be read from any tokens like these. -/
def Loosely (Item : List Token → α → Prop) (tokens : List Token) (value : α) : Prop :=
  ∀ tokens', Forall₂ Alike tokens tokens' → Item tokens' value

theorem Further.alike (h : Further parts tokens) (hitems : Forall₂ (Loosely Item) parts values)
    (htokens : Forall₂ Alike tokens tokens') : Series Item Further tokens' values := by
  induction h generalizing values tokens' with
  | none =>
    cases hitems
    cases htokens
    exact .none Item
  | next hcomma _ ih =>
    cases hitems with
    | cons hitem hitems =>
      obtain ⟨comma', rest, rfl, halike, hrest⟩ := alike_cons htokens
      obtain ⟨part', tokens', rfl, hpart, htokens'⟩ := forall₂_append_left hrest
      obtain ⟨parts', hparts, hfurther⟩ := ih hitems htokens'
      exact ⟨part' :: parts', .cons (hitem part' hpart) hparts, .next (halike.1.trans hcomma) hfurther⟩

theorem Listed.alike (h : Listed parts tokens) (hitems : Forall₂ (Loosely Item) parts values)
    (htokens : Forall₂ Alike tokens tokens') : Series Item Listed tokens' values := by
  cases h with
  | none =>
    cases hitems
    cases htokens
    exact ⟨[], .nil, .none⟩
  | plain hfurther =>
    cases hitems with
    | cons hitem hitems =>
      obtain ⟨part', rest, rfl, hpart, hrest⟩ := forall₂_append_left htokens
      exact .plain (hitem part' hpart) (hfurther.alike hitems hrest)
  | trailing hcomma hfurther =>
    cases hitems with
    | cons hitem hitems =>
      obtain ⟨inner, comma', rfl, hinner, halike⟩ := alike_closed htokens
      obtain ⟨part', rest, rfl, hpart, hrest⟩ := forall₂_append_left hinner
      exact .trailing (hitem part' hpart) (hfurther.alike hitems hrest) (halike.1.trans hcomma)

theorem Alike.keyText {token' : Token} (h : Alike token token') : keyText token' = keyText token := by
  rw [Expr.keyText, Expr.keyText, h.2]

theorem Entry.loosely [CharNames] {entry : Entry} (hnamed : entry.Named)
    (hvalue : Loosely (Spells .conditional) entry.tokens entry.value) :
    Loosely SpellsEntry entry.spelling (entry.word, entry.value) := by
  intro tokens' htokens
  obtain ⟨key, rest, rfl, hkey, hrest⟩ := alike_cons htokens
  obtain ⟨colon, tokens, rfl, hcolon, htokens⟩ := alike_cons hrest
  refine ⟨⟨key, colon, tokens, entry.word, entry.value⟩, rfl, rfl, ?_, hvalue tokens htokens⟩
  obtain ⟨hsign, hname⟩ := hnamed
  refine ⟨hcolon.1.trans hsign, ?_⟩
  simp only [hkey.1, hkey.2, hkey.keyText]
  exact hname

theorem Listed.items_alike [CharNames] {items : List (List Token × Expr)} (h : Listed (items.map (·.1)) tokens)
    (hitems : ∀ item ∈ items, Loosely (Spells .conditional) item.1 item.2) (htokens : Forall₂ Alike tokens tokens') :
    ∃ items' : List (List Token × Expr), Listed (items'.map (·.1)) tokens' ∧ items'.map (·.2) = items.map (·.2) ∧
      ∀ item ∈ items', Spells .conditional item.1 item.2 := by
  have hparts : Forall₂ (Loosely (Spells .conditional)) (items.map (·.1)) (items.map (·.2)) := by
    rw [List.forall₂_map_left_iff, List.forall₂_map_right_iff, List.forall₂_same]
    exact hitems
  obtain ⟨parts, hspells, hlisted⟩ := h.alike hparts htokens
  obtain ⟨items', rfl, hvalues, hitems'⟩ := exists_items hspells
  exact ⟨items', hlisted, hvalues, hitems'⟩

theorem Spells.alike [CharNames] {p : Phrase} {e : Expr} (h : Spells p tokens e)
    (htokens : Forall₂ Alike tokens tokens') : Spells p tokens' e := by
  induction h generalizing tokens' with
  | pass htighter _ ih => exact .pass htighter (ih htokens)
  | conditional hquestion hcolon _ _ _ ihtest ihtrue ihfalse =>
    obtain ⟨test, question, rest, rfl, htest, hsign, hrest⟩ := alike_split htokens
    obtain ⟨whenTrue, colon, whenFalse, rfl, htrue, hsign', hfalse⟩ := alike_split hrest
    exact .conditional (hsign.1.trans hquestion) (hsign'.1.trans hcolon) (ihtest htest) (ihtrue htrue) (ihfalse hfalse)
  | or hor _ _ ihleft ihright =>
    obtain ⟨left, sign, right, rfl, hleft, hsign, hright⟩ := alike_split htokens
    exact .or (by rwa [hsign.1]) (ihleft hleft) (ihright hright)
  | and hand _ _ ihleft ihright =>
    obtain ⟨left, sign, right, rfl, hleft, hsign, hright⟩ := alike_split htokens
    exact .and (by rwa [hsign.1]) (ihleft hleft) (ihright hright)
  | not hnot _ ih =>
    obtain ⟨word, operand, rfl, hword, hoperand⟩ := alike_cons htokens
    exact .not (hword.1.trans hnot) (ih hoperand)
  | comparison hterminal hop _ _ ihleft ihright =>
    obtain ⟨left, sign, right, rfl, hleft, hsign, hright⟩ := alike_split htokens
    exact .comparison (hsign.1.trans hterminal) (by rwa [hsign.2]) (ihleft hleft) (ihright hright)
  | sum hop _ _ ihleft ihright =>
    obtain ⟨left, sign, right, rfl, hleft, hsign, hright⟩ := alike_split htokens
    exact .sum (by rwa [hsign.1]) (ihleft hleft) (ihright hright)
  | product hterminal hop _ _ ihleft ihright =>
    obtain ⟨left, sign, right, rfl, hleft, hsign, hright⟩ := alike_split htokens
    exact .product (hsign.1.trans hterminal) (by rwa [hsign.2]) (ihleft hleft) (ihright hright)
  | bang hterminal _ ih =>
    obtain ⟨sign, operand, rfl, hsign, hoperand⟩ := alike_cons htokens
    exact .bang (hsign.1.trans hterminal) (ih hoperand)
  | signed hop _ ih =>
    obtain ⟨sign, operand, rfl, hsign, hoperand⟩ := alike_cons htokens
    exact .signed (by rwa [hsign.1]) (ih hoperand)
  | member hdot hname _ ih =>
    obtain ⟨target, dot, rest, rfl, htarget, hsign, hrest⟩ := alike_split htokens
    obtain ⟨word, rfl, hword⟩ := alike_one hrest
    rw [← hword.keyText]
    exact .member (hsign.1.trans hdot) (hword.1.trans hname) (ih htarget)
  | index hopening hclosing _ _ ihtarget ihplace =>
    obtain ⟨target, opening, rest, rfl, htarget, hsign, hrest⟩ := alike_split htokens
    obtain ⟨place, closing, rfl, hplace, hsign'⟩ := alike_closed hrest
    exact .index (hsign.1.trans hopening) (hsign'.1.trans hclosing) (ihtarget htarget) (ihplace hplace)
  | numeral hterminal hnumber =>
    obtain ⟨token, rfl, htoken⟩ := alike_one htokens
    exact .numeral (htoken.1.trans hterminal) (by rwa [htoken.2])
  | text hterminal htext =>
    obtain ⟨token, rfl, htoken⟩ := alike_one htokens
    exact .text (htoken.1.trans hterminal) (by rwa [htoken.2])
  | trueWord hterminal =>
    obtain ⟨token, rfl, htoken⟩ := alike_one htokens
    exact .trueWord (htoken.1.trans hterminal)
  | falseWord hterminal =>
    obtain ⟨token, rfl, htoken⟩ := alike_one htokens
    exact .falseWord (htoken.1.trans hterminal)
  | nullWord hterminal =>
    obtain ⟨token, rfl, htoken⟩ := alike_one htokens
    exact .nullWord (htoken.1.trans hterminal)
  | name hterminal =>
    obtain ⟨token, rfl, htoken⟩ := alike_one htokens
    rw [← htoken.keyText]
    exact .name (htoken.1.trans hterminal)
  | call items hname hopening hclosing hlisted _ ih =>
    obtain ⟨word, rest, rfl, hword, hrest⟩ := alike_cons htokens
    obtain ⟨opening, rest, rfl, hsign, hrest⟩ := alike_cons hrest
    obtain ⟨inner, closing, rfl, hinner, hsign'⟩ := alike_closed hrest
    obtain ⟨items', hlisted', hvalues, hitems⟩ := hlisted.items_alike (fun item hmem _ => ih item hmem) hinner
    rw [← hvalues, ← hword.keyText]
    exact .call items' (hword.1.trans hname) (hsign.1.trans hopening) (hsign'.1.trans hclosing) hlisted' hitems
  | list items hopening hclosing hlisted _ ih =>
    obtain ⟨opening, rest, rfl, hsign, hrest⟩ := alike_cons htokens
    obtain ⟨inner, closing, rfl, hinner, hsign'⟩ := alike_closed hrest
    obtain ⟨items', hlisted', hvalues, hitems⟩ := hlisted.items_alike (fun item hmem _ => ih item hmem) hinner
    rw [← hvalues]
    exact .list items' (hsign.1.trans hopening) (hsign'.1.trans hclosing) hlisted' hitems
  | map entries hopening hclosing hlisted hnamed _ ih =>
    obtain ⟨opening, rest, rfl, hsign, hrest⟩ := alike_cons htokens
    obtain ⟨inner, closing, rfl, hinner, hsign'⟩ := alike_closed hrest
    have hparts : Forall₂ (Loosely SpellsEntry) (entries.map Entry.spelling)
        (entries.map fun entry => (entry.word, entry.value)) := by
      rw [List.forall₂_map_left_iff, List.forall₂_map_right_iff, List.forall₂_same]
      intro entry hmem
      exact Entry.loosely (hnamed entry hmem) fun _ => ih entry hmem
    obtain ⟨parts, hspells, hlisted'⟩ := hlisted.alike hparts hinner
    obtain ⟨entries', rfl, hpairs, hnamed', hvalues⟩ := exists_entries hspells
    rw [← hpairs]
    exact .map entries' (hsign.1.trans hopening) (hsign'.1.trans hclosing) hlisted' hnamed' hvalues
  | group hopening hclosing _ ih =>
    obtain ⟨opening, rest, rfl, hsign, hrest⟩ := alike_cons htokens
    obtain ⟨inner, closing, rfl, hinner, hsign'⟩ := alike_closed hrest
    exact .group (hsign.1.trans hopening) (hsign'.1.trans hclosing) (ih hinner)

end RoutineFlow.Expr
