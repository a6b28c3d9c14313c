import Mathlib.Data.List.Forall2
import RoutineFlow.Proofs.Grammar
import RoutineFlow.Proofs.Spelling

namespace RoutineFlow.Expr

theorem Further.append {parts parts' : List (List Token)} {tokens tokens' : List Token}
    (h : Further parts tokens) (h' : Further parts' tokens') :
    Further (parts ++ parts') (tokens ++ tokens') := by
  induction h with
  | none => exact h'
  | @next part tokens parts comma hcomma _ ih =>
    have hnext := @Further.next part _ _ comma hcomma ih
    simpa using hnext

/-- The tokens are parts that spell the values one by one. -/
def Series {α : Type} (Item : List Token → α → Prop) (Parts : List (List Token) → List Token → Prop)
    (tokens : List Token) (values : List α) : Prop :=
  ∃ parts, List.Forall₂ Item parts values ∧ Parts parts tokens

namespace Series

variable {α : Type} {Item : List Token → α → Prop} {part tokens : List Token} {value : α}
  {values : List α} {comma : Token}

theorem none (Item : List Token → α → Prop) : Series Item Further [] [] :=
  ⟨[], .nil, .none⟩

theorem later (h : Series Item Further tokens values) (hcomma : comma.terminal = .comma)
    (hitem : Item part value) : Series Item Further (tokens ++ comma :: part) (values ++ [value]) := by
  obtain ⟨parts, hparts, hfurther⟩ := h
  have hone : List.Forall₂ Item [part] [value] := .cons hitem .nil
  have hlast := @Further.next part _ _ comma hcomma .none
  rw [List.append_nil] at hlast
  exact ⟨parts ++ [part], List.rel_append hparts hone, hfurther.append hlast⟩

theorem plain (hitem : Item part value) (h : Series Item Further tokens values) :
    Series Item Listed (part ++ tokens) (value :: values) := by
  obtain ⟨parts, hparts, hfurther⟩ := h
  exact ⟨part :: parts, .cons hitem hparts, .plain hfurther⟩

theorem trailing (hitem : Item part value) (h : Series Item Further tokens values)
    (hcomma : comma.terminal = .comma) :
    Series Item Listed (part ++ tokens ++ [comma]) (value :: values) := by
  obtain ⟨parts, hparts, hfurther⟩ := h
  exact ⟨part :: parts, .cons hitem hparts, .trailing hcomma hfurther⟩

end Series

/-- The tokens spell a key and its value. -/
def SpellsEntry [CharNames] (tokens : List Token) (pair : String × Expr) : Prop :=
  ∃ entry : Entry, entry.spelling = tokens ∧ (entry.word, entry.value) = pair ∧ entry.Named ∧
    Spells .conditional entry.tokens entry.value

theorem exists_items [CharNames] {parts : List (List Token)} {values : List Expr}
    (h : List.Forall₂ (Spells .conditional) parts values) :
    ∃ items : List (List Token × Expr), items.map (·.1) = parts ∧ items.map (·.2) = values ∧
      ∀ item ∈ items, Spells .conditional item.1 item.2 := by
  induction h with
  | nil => exact ⟨[], rfl, rfl, by simp⟩
  | @cons part value parts values hitem _ ih =>
    obtain ⟨items, rfl, rfl, hitems⟩ := ih
    refine ⟨(part, value) :: items, rfl, rfl, ?_⟩
    rw [List.forall_mem_cons]
    exact ⟨hitem, hitems⟩

theorem exists_entries [CharNames] {parts : List (List Token)} {pairs : List (String × Expr)}
    (h : List.Forall₂ SpellsEntry parts pairs) :
    ∃ entries : List Entry, entries.map Entry.spelling = parts ∧
      entries.map (fun entry => (entry.word, entry.value)) = pairs ∧
      (∀ entry ∈ entries, entry.Named) ∧
      ∀ entry ∈ entries, Spells .conditional entry.tokens entry.value := by
  induction h with
  | nil => exact ⟨[], rfl, rfl, by simp, by simp⟩
  | cons hentry _ ih =>
    obtain ⟨entry, rfl, rfl, hnamed, hspells⟩ := hentry
    obtain ⟨entries, rfl, rfl, hall, hvalues⟩ := ih
    refine ⟨entry :: entries, rfl, rfl, ?_, ?_⟩
    · rw [List.forall_mem_cons]
      exact ⟨hnamed, hall⟩
    · rw [List.forall_mem_cons]
      exact ⟨hspells, hvalues⟩

section Results

variable {α β γ : Type} {x : Except Literal.Problem α} {y : Except Literal.Problem β}

def each (f : α → γ) (x : Except Literal.Problem α) : Except Literal.Problem γ := do
  return f (← x)

def both (f : α → β → γ) (x : Except Literal.Problem α) (y : Except Literal.Problem β) :
    Except Literal.Problem γ := do
  return f (← x) (← y)

/-- The token is a literal without a value. -/
def Undecodable [CharNames] (token : Token) (problem : Literal.Problem) : Prop :=
  (token.terminal = .numeral ∧ Literal.number token.text = .error problem) ∨
    (token.terminal = .text ∧ Literal.text token.text = .error problem)

/-- A value that is good, or a problem with one of the tokens. -/
def Outcome [CharNames] (tokens : List Token) (Good : α → Prop) : Except Literal.Problem α → Prop
  | .ok a => Good a
  | .error problem => ∃ token ∈ tokens, Undecodable token problem

variable {tokens tokens' all : List Token} {Good : α → Prop} {Good' : β → Prop} {Result : γ → Prop}

theorem Outcome.each [CharNames] {f : α → γ} (h : Outcome tokens Good x) (hall : tokens ⊆ all)
    (hgood : ∀ a, Good a → Result (f a)) : Outcome all Result (each f x) := by
  cases x with
  | error problem =>
    obtain ⟨token, hmem, hproblem⟩ := h
    exact ⟨token, hall hmem, hproblem⟩
  | ok a => exact hgood a h

theorem Outcome.both [CharNames] {f : α → β → γ} (h : Outcome tokens Good x) (h' : Outcome tokens' Good' y)
    (hall : tokens ⊆ all) (hall' : tokens' ⊆ all)
    (hgood : ∀ a b, Good a → Good' b → Result (f a b)) : Outcome all Result (both f x y) := by
  cases x with
  | error problem =>
    obtain ⟨token, hmem, hproblem⟩ := h
    exact ⟨token, hall hmem, hproblem⟩
  | ok a => cases y with
    | error problem =>
      obtain ⟨token, hmem, hproblem⟩ := h'
      exact ⟨token, hall' hmem, hproblem⟩
    | ok b => exact hgood a b h h'

end Results

theorem Tree.tokens_subset {rule : Rule} {children : List Tree} {child : Tree}
    (hmem : child ∈ children) : child.tokens ⊆ (Tree.node rule children).tokens := by
  rw [Tree.tokens_node]
  induction children with
  | nil => simp at hmem
  | cons first children ih =>
    simp only [Tree.tokensOf, List.mem_cons] at hmem ⊢
    rcases hmem with rfl | hmem
    · exact List.subset_append_left _ _
    · exact List.Subset.trans (ih hmem) (List.subset_append_right _ _)

/-- What the derivation of a symbol stands for, its tokens spell; else one of them is to blame. -/
def Reads [CharNames] (tree : Tree) : Symbol → Prop
  | .terminal t => ∃ token, tree = .leaf token ∧ token.terminal = t ∧ Delivered token
  | .phrase .arguments =>
    Outcome tree.tokens (Series (Spells .conditional) Listed tree.tokens) (argumentsOfTree tree)
  | .phrase .moreArguments =>
    Outcome tree.tokens (Series (Spells .conditional) Further tree.tokens) (argumentsOfTree tree)
  | .phrase .entries =>
    Outcome tree.tokens (Series SpellsEntry Listed tree.tokens) (entriesOfTree tree)
  | .phrase .moreEntries =>
    Outcome tree.tokens (Series SpellsEntry Further tree.tokens) (entriesOfTree tree)
  | .phrase .entry => Outcome tree.tokens (SpellsEntry tree.tokens) (entryOfTree tree)
  | .phrase p => Outcome tree.tokens (Spells p tree.tokens) (ofTree tree)

section Nodes

variable {children : List Tree} {A B C D : Symbol}

theorem reads_one [CharNames] (h : List.Forall₂ Reads children [A]) : ∃ a, children = [a] ∧ Reads a A := by
  rcases h with _ | ⟨ha, _ | _⟩
  exact ⟨_, rfl, ha⟩

theorem reads_two [CharNames] (h : List.Forall₂ Reads children [A, B]) :
    ∃ a b, children = [a, b] ∧ Reads a A ∧ Reads b B := by
  rcases h with _ | ⟨ha, _ | ⟨hb, _ | _⟩⟩
  exact ⟨_, _, rfl, ha, hb⟩

theorem reads_three [CharNames] (h : List.Forall₂ Reads children [A, B, C]) :
    ∃ a b c, children = [a, b, c] ∧ Reads a A ∧ Reads b B ∧ Reads c C := by
  rcases h with _ | ⟨ha, _ | ⟨hb, _ | ⟨hc, _ | _⟩⟩⟩
  exact ⟨_, _, _, rfl, ha, hb, hc⟩

theorem reads_four [CharNames] (h : List.Forall₂ Reads children [A, B, C, D]) :
    ∃ a b c d, children = [a, b, c, d] ∧ Reads a A ∧ Reads b B ∧ Reads c C ∧ Reads d D := by
  rcases h with _ | ⟨ha, _ | ⟨hb, _ | ⟨hc, _ | ⟨hd, _ | _⟩⟩⟩⟩
  exact ⟨_, _, _, _, rfl, ha, hb, hc, hd⟩

end Nodes

theorem tokens_enclosed (rule : Rule) (opening closing : Token) (inner : Tree) :
    (Tree.node rule [.leaf opening, inner, .leaf closing]).tokens =
      opening :: (inner.tokens ++ [closing]) := by
  simp [Tree.tokens, Tree.tokensOf]

section Shapes

variable {rule : Rule} {p q : Phrase} {left right : Tree}

theorem infix_reads [CharNames] {sign : Token} {f : Expr → Expr → Expr}
    (hspells : ∀ {tokens tokens' a b}, Spells p tokens a → Spells q tokens' b →
      Spells p (tokens ++ sign :: tokens') (f a b))
    (hleft : Outcome left.tokens (Spells p left.tokens) (ofTree left))
    (hright : Outcome right.tokens (Spells q right.tokens) (ofTree right)) :
    Outcome (Tree.node rule [left, .leaf sign, right]).tokens
      (Spells p (Tree.node rule [left, .leaf sign, right]).tokens)
      (both f (ofTree left) (ofTree right)) := by
  apply hleft.both hright (Tree.tokens_subset (by simp)) (Tree.tokens_subset (by simp))
  intro a b ha hb
  have h := hspells ha hb
  simpa [Tree.tokens, Tree.tokensOf] using h

theorem prefixed_reads [CharNames] {sign : Token} {f : Expr → Expr}
    (hspells : ∀ {tokens a}, Spells q tokens a → Spells p (sign :: tokens) (f a))
    (hright : Outcome right.tokens (Spells q right.tokens) (ofTree right)) :
    Outcome (Tree.node rule [.leaf sign, right]).tokens
      (Spells p (Tree.node rule [.leaf sign, right]).tokens) (each f (ofTree right)) := by
  apply hright.each (Tree.tokens_subset (by simp))
  intro a ha
  have h := hspells ha
  simpa [Tree.tokens, Tree.tokensOf] using h

theorem conditional_reads [CharNames] {test whenTrue whenFalse : Tree} {question colon : Token}
    (hquestion : question.terminal = .question) (hcolon : colon.terminal = .colon)
    (htest : Outcome test.tokens (Spells .disjunction test.tokens) (ofTree test))
    (htrue : Outcome whenTrue.tokens (Spells .conditional whenTrue.tokens) (ofTree whenTrue))
    (hfalse : Outcome whenFalse.tokens (Spells .conditional whenFalse.tokens) (ofTree whenFalse)) :
    Reads (.node .conditional [test, .leaf question, whenTrue, .leaf colon, whenFalse])
      (.phrase .conditional) := by
  have hof : ofTree (.node .conditional [test, .leaf question, whenTrue, .leaf colon, whenFalse]) =
      both (fun f c => f c) (both Expr.conditional (ofTree test) (ofTree whenTrue))
        (ofTree whenFalse) := by
    simp only [ofTree, both, bind_assoc, pure_bind]
  simp only [Reads, hof]
  have hfirst : Outcome (test.tokens ++ whenTrue.tokens)
      (fun f => ∃ a b, f = Expr.conditional a b ∧ Spells .disjunction test.tokens a ∧
        Spells .conditional whenTrue.tokens b)
      (both Expr.conditional (ofTree test) (ofTree whenTrue)) := by
    apply htest.both htrue (List.subset_append_left _ _) (List.subset_append_right _ _)
    intro a b ha hb
    exact ⟨a, b, rfl, ha, hb⟩
  apply hfirst.both hfalse _ (Tree.tokens_subset (by simp))
  · rintro _ c ⟨a, b, rfl, ha, hb⟩ hc
    have h := Spells.conditional hquestion hcolon ha hb hc
    simpa [Tree.tokens, Tree.tokensOf] using h
  · apply List.append_subset.mpr
    exact ⟨Tree.tokens_subset (by simp), Tree.tokens_subset (by simp)⟩

theorem passed_reads [CharNames] {child : Tree} (htighter : p.tighter? = some q)
    (h : Outcome child.tokens (Spells q child.tokens) (ofTree child)) :
    Outcome (Tree.node rule [child]).tokens (Spells p (Tree.node rule [child]).tokens)
      (ofTree child) := by
  rw [Tree.tokens_node, Tree.tokensOf_singleton]
  cases hof : ofTree child with
  | error problem =>
    rw [hof] at h
    exact h
  | ok e =>
    rw [hof] at h
    exact .pass htighter h

theorem group_reads [CharNames] {inner : Tree} {opening closing : Token} (hopening : opening.terminal = .openParen)
    (hclosing : closing.terminal = .closeParen)
    (h : Outcome inner.tokens (Spells .conditional inner.tokens) (ofTree inner)) :
    Reads (.node .group [.leaf opening, inner, .leaf closing]) (.phrase .atom) := by
  have hof : ofTree (.node .group [.leaf opening, inner, .leaf closing]) = ofTree inner := rfl
  simp only [Reads, hof, tokens_enclosed]
  cases hof : ofTree inner with
  | error problem =>
    rw [hof] at h
    obtain ⟨token, hmem, hproblem⟩ := h
    exact ⟨token, by simp [hmem], hproblem⟩
  | ok e =>
    rw [hof] at h
    exact .group hopening hclosing h

end Shapes

section Lists

variable [CharNames] {α : Type} {rule : Rule} {Item : List Token → α → Prop} {item more : Tree} {comma : Token}
  {x : Except Literal.Problem α} {xs : Except Literal.Problem (List α)}
  (hcomma : comma.terminal = .comma) (hitem : Outcome item.tokens (Item item.tokens) x)
  (hmore : Outcome more.tokens (Series Item Further more.tokens) xs)

include hitem

theorem one_reads : Outcome (Tree.node rule [item]).tokens
    (Series Item Listed (Tree.node rule [item]).tokens) (each (fun a => [a]) x) := by
  apply hitem.each (Tree.tokens_subset (by simp))
  intro a ha
  have hseries := Series.plain ha (.none _)
  simpa [Tree.tokens, Tree.tokensOf] using hseries

include hcomma in
theorem oneComma_reads : Outcome (Tree.node rule [item, .leaf comma]).tokens
    (Series Item Listed (Tree.node rule [item, .leaf comma]).tokens) (each (fun a => [a]) x) := by
  apply hitem.each (Tree.tokens_subset (by simp))
  intro a ha
  have hseries := Series.trailing ha (.none _) hcomma
  simpa [Tree.tokens, Tree.tokensOf] using hseries

include hcomma in
theorem next_reads : Outcome (Tree.node rule [.leaf comma, item]).tokens
    (Series Item Further (Tree.node rule [.leaf comma, item]).tokens) (each (fun a => [a]) x) := by
  apply hitem.each (Tree.tokens_subset (by simp))
  intro a ha
  have hseries := (Series.none Item).later hcomma ha
  simpa [Tree.tokens, Tree.tokensOf] using hseries

include hmore

theorem several_reads : Outcome (Tree.node rule [item, more]).tokens
    (Series Item Listed (Tree.node rule [item, more]).tokens) (both List.cons x xs) := by
  apply hitem.both hmore (Tree.tokens_subset (by simp)) (Tree.tokens_subset (by simp))
  intro a rest ha hrest
  have hseries := Series.plain ha hrest
  simpa [Tree.tokens, Tree.tokensOf] using hseries

include hcomma

theorem severalComma_reads : Outcome (Tree.node rule [item, more, .leaf comma]).tokens
    (Series Item Listed (Tree.node rule [item, more, .leaf comma]).tokens)
    (both List.cons x xs) := by
  apply hitem.both hmore (Tree.tokens_subset (by simp)) (Tree.tokens_subset (by simp))
  intro a rest ha hrest
  have hseries := Series.trailing ha hrest hcomma
  simpa [Tree.tokens, Tree.tokensOf] using hseries

theorem later_reads : Outcome (Tree.node rule [more, .leaf comma, item]).tokens
    (Series Item Further (Tree.node rule [more, .leaf comma, item]).tokens)
    (both (fun rest a => rest ++ [a]) xs x) := by
  apply hmore.both hitem (Tree.tokens_subset (by simp)) (Tree.tokens_subset (by simp))
  intro rest a hrest ha
  have hseries := hrest.later hcomma ha
  simpa [Tree.tokens, Tree.tokensOf] using hseries

end Lists

variable {children : List Tree}

theorem reads_conditional [CharNames] (h : List.Forall₂ Reads children Rule.conditional.body) :
    Reads (.node .conditional children) (.phrase .conditional) := by
  rcases h with _ | ⟨htest, _ | ⟨⟨question, rfl, hquestion, _⟩, _ | ⟨htrue, hrest⟩⟩⟩
  obtain ⟨_, whenFalse, rfl, ⟨colon, rfl, hcolon, _⟩, hfalse⟩ := reads_two hrest
  exact conditional_reads hquestion hcolon htest htrue hfalse

theorem reads_member [CharNames] (h : List.Forall₂ Reads children Rule.member.body) :
    Reads (.node .member children) (.phrase .suffixed) := by
  obtain ⟨target, _, _, rfl, htarget, ⟨dot, rfl, hdot, _⟩, word, rfl, hword, _⟩ := reads_three h
  have hof : ofTree (.node .member [target, .leaf dot, .leaf word]) =
      each (fun e => .member e (keyText word)) (ofTree target) := rfl
  simp only [Reads, hof]
  apply htarget.each (Tree.tokens_subset (by simp))
  intro a ha
  have hspells := Spells.member hdot hword ha
  simpa [Tree.tokens, Tree.tokensOf] using hspells

theorem reads_index [CharNames] (h : List.Forall₂ Reads children Rule.index.body) :
    Reads (.node .index children) (.phrase .suffixed) := by
  obtain ⟨target, _, place, _, rfl, htarget, ⟨opening, rfl, hopening, _⟩, hplace,
    closing, rfl, hclosing, _⟩ := reads_four h
  have hof : ofTree (.node .index [target, .leaf opening, place, .leaf closing]) =
      both .index (ofTree target) (ofTree place) := rfl
  simp only [Reads, hof]
  apply htarget.both hplace (Tree.tokens_subset (by simp)) (Tree.tokens_subset (by simp))
  intro a b ha hb
  have hspells := Spells.index hopening hclosing ha hb
  simpa [Tree.tokens, Tree.tokensOf] using hspells

theorem reads_call [CharNames] (h : List.Forall₂ Reads children Rule.call.body) :
    Reads (.node .call children) (.phrase .atom) := by
  obtain ⟨_, _, arguments, _, rfl, ⟨word, rfl, hword, _⟩, ⟨opening, rfl, hopening, _⟩, harguments,
    closing, rfl, hclosing, _⟩ := reads_four h
  have hof : ofTree (.node .call [.leaf word, .leaf opening, arguments, .leaf closing]) =
      each (.call (keyText word)) (argumentsOfTree arguments) := rfl
  simp only [Reads, hof]
  apply harguments.each (Tree.tokens_subset (by simp))
  rintro values ⟨parts, hparts, hlisted⟩
  obtain ⟨items, rfl, rfl, hitems⟩ := exists_items hparts
  have hspells := Spells.call items hword hopening hclosing hlisted hitems
  simpa [Tree.tokens, Tree.tokensOf] using hspells

theorem reads_list [CharNames] (h : List.Forall₂ Reads children Rule.list.body) :
    Reads (.node .list children) (.phrase .atom) := by
  obtain ⟨_, arguments, _, rfl, ⟨opening, rfl, hopening, _⟩, harguments,
    closing, rfl, hclosing, _⟩ := reads_three h
  have hof : ofTree (.node .list [.leaf opening, arguments, .leaf closing]) =
      each .list (argumentsOfTree arguments) := rfl
  simp only [Reads, hof]
  apply harguments.each (Tree.tokens_subset (by simp))
  rintro values ⟨parts, hparts, hlisted⟩
  obtain ⟨items, rfl, rfl, hitems⟩ := exists_items hparts
  rw [tokens_enclosed]
  exact .list items hopening hclosing hlisted hitems

theorem reads_map [CharNames] (h : List.Forall₂ Reads children Rule.map.body) :
    Reads (.node .map children) (.phrase .atom) := by
  obtain ⟨_, entries, _, rfl, ⟨opening, rfl, hopening, _⟩, hentries,
    closing, rfl, hclosing, _⟩ := reads_three h
  have hof : ofTree (.node .map [.leaf opening, entries, .leaf closing]) =
      each .map (entriesOfTree entries) := rfl
  simp only [Reads, hof]
  apply hentries.each (Tree.tokens_subset (by simp))
  rintro pairs ⟨parts, hparts, hlisted⟩
  obtain ⟨entries, rfl, rfl, hnamed, hvalues⟩ := exists_entries hparts
  rw [tokens_enclosed]
  exact .map entries hopening hclosing hlisted hnamed hvalues

theorem reads_numeral [CharNames] (h : List.Forall₂ Reads children Rule.numeral.body) :
    Reads (.node .numeral children) (.phrase .atom) := by
  obtain ⟨_, rfl, token, rfl, htoken, _⟩ := reads_one h
  have hof : ofTree (.node .numeral [.leaf token]) = (Literal.number token.text).map .numeral := rfl
  simp only [Reads, hof, Tree.tokens_node, Tree.tokensOf_singleton, Tree.tokens_leaf]
  cases hnumber : Literal.number token.text with
  | error problem => exact ⟨token, List.mem_singleton_self _, .inl ⟨htoken, hnumber⟩⟩
  | ok n => exact .numeral htoken hnumber

theorem reads_text [CharNames] (h : List.Forall₂ Reads children Rule.text.body) :
    Reads (.node .text children) (.phrase .atom) := by
  obtain ⟨_, rfl, token, rfl, htoken, _⟩ := reads_one h
  have hof : ofTree (.node .text [.leaf token]) =
      (Literal.text token.text).map fun cs => .text (String.ofList cs) := rfl
  simp only [Reads, hof, Tree.tokens_node, Tree.tokensOf_singleton, Tree.tokens_leaf]
  cases htext : Literal.text token.text with
  | error problem => exact ⟨token, List.mem_singleton_self _, .inr ⟨htoken, htext⟩⟩
  | ok cs => exact .text htoken htext

theorem reads_nameEntry [CharNames] (h : List.Forall₂ Reads children Rule.nameEntry.body) :
    Reads (.node .nameEntry children) (.phrase .entry) := by
  obtain ⟨_, _, value, rfl, ⟨key, rfl, hkey, _⟩, ⟨colon, rfl, hcolon, _⟩, hvalue⟩ := reads_three h
  have hof : entryOfTree (.node .nameEntry [.leaf key, .leaf colon, value]) =
      each (fun e => (keyText key, e)) (ofTree value) := rfl
  simp only [Reads, hof]
  apply hvalue.each (Tree.tokens_subset (by simp))
  intro a ha
  refine ⟨⟨key, colon, value.tokens, keyText key, a⟩, ?_, rfl, ?_, ha⟩
  · simp [Entry.spelling, Tree.tokens, Tree.tokensOf]
  · exact ⟨hcolon, .inl ⟨hkey, rfl⟩⟩

theorem reads_textEntry [CharNames] (h : List.Forall₂ Reads children Rule.textEntry.body) :
    Reads (.node .textEntry children) (.phrase .entry) := by
  obtain ⟨_, _, value, rfl, ⟨key, rfl, hkey, _⟩, ⟨colon, rfl, hcolon, _⟩, hvalue⟩ := reads_three h
  have hof : entryOfTree (.node .textEntry [.leaf key, .leaf colon, value]) =
      both (fun cs e => (String.ofList cs, e)) (Literal.text key.text) (ofTree value) := rfl
  simp only [Reads, hof]
  have htext : Outcome [key] (fun cs => Literal.text key.text = .ok cs) (Literal.text key.text) := by
    cases htext : Literal.text key.text with
    | error problem => exact ⟨key, List.mem_singleton_self _, .inr ⟨hkey, htext⟩⟩
    | ok cs => rfl
  rw [← Tree.tokens_leaf] at htext
  apply htext.both hvalue (Tree.tokens_subset (by simp)) (Tree.tokens_subset (by simp))
  intro cs a hcs ha
  refine ⟨⟨key, colon, value.tokens, String.ofList cs, a⟩, ?_, rfl, ?_, ha⟩
  · simp [Entry.spelling, Tree.tokens, Tree.tokensOf]
  · exact ⟨hcolon, .inr ⟨hkey, cs, hcs, rfl⟩⟩

theorem reads_node [CharNames] (rule : Rule) (h : List.Forall₂ Reads children rule.body) :
    Reads (.node rule children) (.phrase rule.head) := by
  cases rule
  case whole | plainConditional | plainDisjunction | plainConjunction | plainNegation
      | plainComparison | plainSum | plainProduct | plainUnary | plainPostfix =>
    obtain ⟨operand, rfl, hoperand⟩ := reads_one h
    exact passed_reads rfl hoperand
  case conditional => exact reads_conditional h
  case orWord | orSign =>
    obtain ⟨left, _, right, rfl, hleft, ⟨sign, rfl, hsign, _⟩, hright⟩ := reads_three h
    exact infix_reads (.or (by simp [hsign])) hleft hright
  case andWord | andSign =>
    obtain ⟨left, _, right, rfl, hleft, ⟨sign, rfl, hsign, _⟩, hright⟩ := reads_three h
    exact infix_reads (.and (by simp [hsign])) hleft hright
  case notWord =>
    obtain ⟨_, operand, rfl, ⟨word, rfl, hword, _⟩, hoperand⟩ := reads_two h
    exact prefixed_reads (.not hword) hoperand
  case comparison =>
    obtain ⟨left, _, right, rfl, hleft, ⟨sign, rfl, hsign, hread⟩, hright⟩ := reads_three h
    have hsymbol := hread.symbol_operator (.inl hsign)
    exact infix_reads (.comparison hsign hsymbol) hleft hright
  case plus =>
    obtain ⟨left, _, right, rfl, hleft, ⟨sign, rfl, hsign, _⟩, hright⟩ := reads_three h
    exact infix_reads (.sum (.inl ⟨hsign, rfl⟩)) hleft hright
  case minus =>
    obtain ⟨left, _, right, rfl, hleft, ⟨sign, rfl, hsign, _⟩, hright⟩ := reads_three h
    exact infix_reads (.sum (.inr ⟨hsign, rfl⟩)) hleft hright
  case product =>
    obtain ⟨left, _, right, rfl, hleft, ⟨sign, rfl, hsign, hread⟩, hright⟩ := reads_three h
    have hsymbol := hread.symbol_operator (.inr hsign)
    exact infix_reads (.product hsign hsymbol) hleft hright
  case bang =>
    obtain ⟨_, operand, rfl, ⟨sign, rfl, hsign, _⟩, hoperand⟩ := reads_two h
    exact prefixed_reads (.bang hsign) hoperand
  case negative =>
    obtain ⟨_, operand, rfl, ⟨sign, rfl, hsign, _⟩, hoperand⟩ := reads_two h
    exact prefixed_reads (.signed (.inl ⟨hsign, rfl⟩)) hoperand
  case positive =>
    obtain ⟨_, operand, rfl, ⟨sign, rfl, hsign, _⟩, hoperand⟩ := reads_two h
    exact prefixed_reads (.signed (.inr ⟨hsign, rfl⟩)) hoperand
  case member => exact reads_member h
  case index => exact reads_index h
  case numeral => exact reads_numeral h
  case text => exact reads_text h
  case trueWord =>
    obtain ⟨_, rfl, token, rfl, htoken, _⟩ := reads_one h
    exact .trueWord htoken
  case falseWord =>
    obtain ⟨_, rfl, token, rfl, htoken, _⟩ := reads_one h
    exact .falseWord htoken
  case nullWord =>
    obtain ⟨_, rfl, token, rfl, htoken, _⟩ := reads_one h
    exact .nullWord htoken
  case name =>
    obtain ⟨_, rfl, token, rfl, htoken, _⟩ := reads_one h
    exact .name htoken
  case emptyCall =>
    obtain ⟨_, _, _, rfl, ⟨word, rfl, hword, _⟩, ⟨opening, rfl, hopening, _⟩,
      closing, rfl, hclosing, _⟩ := reads_three h
    exact .call [] hword hopening hclosing .none (by simp)
  case call => exact reads_call h
  case emptyList =>
    obtain ⟨_, _, rfl, ⟨opening, rfl, hopening, _⟩, closing, rfl, hclosing, _⟩ := reads_two h
    exact .list [] hopening hclosing .none (by simp)
  case list => exact reads_list h
  case emptyMap =>
    obtain ⟨_, _, rfl, ⟨opening, rfl, hopening, _⟩, closing, rfl, hclosing, _⟩ := reads_two h
    exact .map [] hopening hclosing .none (by simp) (by simp)
  case map => exact reads_map h
  case group =>
    obtain ⟨_, inner, _, rfl, ⟨opening, rfl, hopening, _⟩, hinner,
      closing, rfl, hclosing, _⟩ := reads_three h
    exact group_reads hopening hclosing hinner
  case argument | entry =>
    obtain ⟨first, rfl, hfirst⟩ := reads_one h
    exact one_reads hfirst
  case argumentComma | entryComma =>
    obtain ⟨first, _, rfl, hfirst, comma, rfl, hcomma, _⟩ := reads_two h
    exact oneComma_reads hcomma hfirst
  case arguments | entries =>
    obtain ⟨first, more, rfl, hfirst, hmore⟩ := reads_two h
    exact several_reads hfirst hmore
  case argumentsComma | entriesComma =>
    obtain ⟨first, more, _, rfl, hfirst, hmore, comma, rfl, hcomma, _⟩ := reads_three h
    exact severalComma_reads hcomma hfirst hmore
  case nextArgument | nextEntry =>
    obtain ⟨_, last, rfl, ⟨comma, rfl, hcomma, _⟩, hlast⟩ := reads_two h
    exact next_reads hcomma hlast
  case laterArgument | laterEntry =>
    obtain ⟨more, _, last, rfl, hmore, ⟨comma, rfl, hcomma, _⟩, hlast⟩ := reads_three h
    exact later_reads hcomma hlast hmore
  case nameEntry => exact reads_nameEntry h
  case textEntry => exact reads_textEntry h

theorem Forest.reads [CharNames] {trees : List Tree} {symbols : List Symbol} (h : Forest trees symbols)
    (hread : ∀ token ∈ Tree.tokensOf trees, Delivered token) : List.Forall₂ Reads trees symbols := by
  induction h with
  | nil => exact .nil
  | leaf token _ ih =>
    simp only [Tree.tokensOf, Tree.tokens, List.cons_append, List.nil_append, List.forall_mem_cons]
      at hread
    exact .cons ⟨token, rfl, rfl, hread.1⟩ (ih hread.2)
  | node rule _ _ ihbody ih =>
    simp only [Tree.tokensOf, Tree.tokens, List.forall_mem_append] at hread
    exact .cons (reads_node rule (ihbody hread.1)) (ih hread.2)

theorem Derives.outcome [CharNames] {tokens : List Token} {tree : Tree} (h : Derives .whole tokens tree)
    (hread : ∀ token ∈ tokens, Delivered token) : Outcome tokens (Spells .whole tokens) (ofTree tree) := by
  obtain ⟨hforest, rfl⟩ := h
  rw [← Tree.tokensOf_singleton] at hread
  rcases hforest.reads hread with _ | ⟨hwhole, _⟩
  exact hwhole

end RoutineFlow.Expr
