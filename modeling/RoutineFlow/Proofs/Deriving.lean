import RoutineFlow.Proofs.Reading
import RoutineFlow.Proofs.ShiftReduce

namespace RoutineFlow.Expr

/-- A derivation of the tokens from the phrase of which `of` makes the value. -/
def Derived {α : Type} (of : Tree → Except Literal.Problem α) (p : Phrase) (tokens : List Token)
    (value : α) : Prop :=
  ∃ tree, Derives p tokens tree ∧ of tree = .ok value

theorem derives_node {rule : Rule} {children : List Tree} {p : Phrase} {tokens : List Token}
    (hforest : Forest children rule.body) (hhead : rule.head = p)
    (htokens : Tree.tokensOf children = tokens) : Derives p tokens (.node rule children) := by
  subst hhead
  refine ⟨.node rule hforest .nil, ?_⟩
  rw [Tree.tokens_node, htokens]

theorem Forest.leaf_one {token : Token} {t : Terminal} (h : token.terminal = t) :
    Forest [.leaf token] [.terminal t] := by
  subst h
  exact .leaf token .nil

/-- The rules by which a phrase lists items, and what is made of their derivations. -/
structure Listing (α : Type) where
  item : Phrase
  more : Phrase
  list : Phrase
  one : Rule
  oneComma : Rule
  several : Rule
  severalComma : Rule
  next : Rule
  later : Rule
  ofItem : Tree → Except Literal.Problem α
  ofList : Tree → Except Literal.Problem (List α)
  heads : one.head = list ∧ oneComma.head = list ∧ several.head = list ∧ severalComma.head = list ∧
    next.head = more ∧ later.head = more
  one_body : one.body = [.phrase item]
  oneComma_body : oneComma.body = [.phrase item, .terminal .comma]
  several_body : several.body = [.phrase item, .phrase more]
  severalComma_body : severalComma.body = [.phrase item, .phrase more, .terminal .comma]
  next_body : next.body = [.terminal .comma, .phrase item]
  later_body : later.body = [.phrase more, .terminal .comma, .phrase item]
  of_one : ∀ a, ofList (.node one [a]) = each (fun x => [x]) (ofItem a)
  of_oneComma : ∀ a c, ofList (.node oneComma [a, c]) = each (fun x => [x]) (ofItem a)
  of_several : ∀ a m, ofList (.node several [a, m]) = both List.cons (ofItem a) (ofList m)
  of_severalComma : ∀ a m c,
    ofList (.node severalComma [a, m, c]) = both List.cons (ofItem a) (ofList m)
  of_next : ∀ c a, ofList (.node next [c, a]) = each (fun x => [x]) (ofItem a)
  of_later : ∀ m c a,
    ofList (.node later [m, c, a]) = both (fun rest x => rest ++ [x]) (ofList m) (ofItem a)

namespace Listing

def arguments [CharNames] : Listing Expr where
  item := .conditional
  more := .moreArguments
  list := .arguments
  one := .argument
  oneComma := .argumentComma
  several := .arguments
  severalComma := .argumentsComma
  next := .nextArgument
  later := .laterArgument
  ofItem := ofTree
  ofList := argumentsOfTree
  heads := by simp [Rule.head]
  one_body := rfl
  oneComma_body := rfl
  several_body := rfl
  severalComma_body := rfl
  next_body := rfl
  later_body := rfl
  of_one := fun _ => rfl
  of_oneComma := fun _ _ => rfl
  of_several := fun _ _ => rfl
  of_severalComma := fun _ _ _ => rfl
  of_next := fun _ _ => rfl
  of_later := fun _ _ _ => rfl

def entries [CharNames] : Listing (String × Expr) where
  item := .entry
  more := .moreEntries
  list := .entries
  one := .entry
  oneComma := .entryComma
  several := .entries
  severalComma := .entriesComma
  next := .nextEntry
  later := .laterEntry
  ofItem := entryOfTree
  ofList := entriesOfTree
  heads := by simp [Rule.head]
  one_body := rfl
  oneComma_body := rfl
  several_body := rfl
  severalComma_body := rfl
  next_body := rfl
  later_body := rfl
  of_one := fun _ => rfl
  of_oneComma := fun _ _ => rfl
  of_several := fun _ _ => rfl
  of_severalComma := fun _ _ _ => rfl
  of_next := fun _ _ => rfl
  of_later := fun _ _ _ => rfl

variable {α : Type} (L : Listing α) {part tokens before : List Token} {parts : List (List Token)}
  {value : α} {values firsts : List α}

theorem derived_next {comma : Token} (hcomma : comma.terminal = .comma)
    (hitem : Derived L.ofItem L.item part value) :
    Derived L.ofList L.more (comma :: part) [value] := by
  obtain ⟨tree, ⟨hforest, htokens⟩, hof⟩ := hitem
  refine ⟨.node L.next [.leaf comma, tree], derives_node ?_ L.heads.2.2.2.2.1 ?_, ?_⟩
  · rw [L.next_body]
    exact (Forest.leaf_one hcomma).cons hforest
  · simp [Tree.tokensOf, Tree.tokens, htokens]
  · rw [L.of_next, hof]
    rfl

theorem derived_later {comma : Token} (hbefore : Derived L.ofList L.more before firsts)
    (hcomma : comma.terminal = .comma) (hitem : Derived L.ofItem L.item part value) :
    Derived L.ofList L.more (before ++ comma :: part) (firsts ++ [value]) := by
  obtain ⟨tree, ⟨hforest, htokens⟩, hof⟩ := hitem
  obtain ⟨first, ⟨hfirst, hfirsttokens⟩, hoffirst⟩ := hbefore
  refine ⟨.node L.later [first, .leaf comma, tree], derives_node ?_ L.heads.2.2.2.2.2 ?_, ?_⟩
  · rw [L.later_body]
    exact hfirst.cons ((Forest.leaf_one hcomma).cons hforest)
  · simp [Tree.tokensOf, Tree.tokens, htokens, hfirsttokens]
  · rw [L.of_later, hof, hoffirst]
    rfl

/-- Further items go on with a derivation of some: the list leans to the left. -/
theorem derived_on (hparts : List.Forall₂ (Derived L.ofItem L.item) parts values)
    (hfurther : Further parts tokens) (hbefore : Derived L.ofList L.more before firsts) :
    Derived L.ofList L.more (before ++ tokens) (firsts ++ values) := by
  induction hparts generalizing before firsts tokens with
  | nil =>
    cases hfurther
    simpa using hbefore
  | cons hitem _ ih =>
    cases hfurther with
    | next hcomma hfurther =>
      have hnext := L.derived_later hbefore hcomma hitem
      have hall := ih hfurther hnext
      simpa using hall

theorem derived_more (hparts : List.Forall₂ (Derived L.ofItem L.item) parts values)
    (hfurther : Further parts tokens) :
    (parts = [] ∧ values = [] ∧ tokens = []) ∨ Derived L.ofList L.more tokens values := by
  cases hfurther with
  | none =>
    cases hparts
    exact .inl ⟨rfl, rfl, rfl⟩
  | next hcomma hfurther =>
    cases hparts with
    | cons hitem hparts =>
      have hnext := L.derived_next hcomma hitem
      have hall := L.derived_on hparts hfurther hnext
      exact .inr (by simpa using hall)

theorem derived_list (hparts : List.Forall₂ (Derived L.ofItem L.item) parts values)
    (hlisted : Listed parts tokens) (hne : parts ≠ []) : Derived L.ofList L.list tokens values := by
  obtain ⟨hone, honeComma, hseveral, hseveralComma, -, -⟩ := L.heads
  cases hlisted with
  | none => exact absurd rfl hne
  | plain hfurther =>
    cases hparts with
    | cons hitem hparts =>
      obtain ⟨tree, ⟨hforest, htokens⟩, hof⟩ := hitem
      rcases L.derived_more hparts hfurther with ⟨rfl, rfl, rfl⟩ | ⟨more, ⟨hmore, hmoretokens⟩, hofmore⟩
      · refine ⟨.node L.one [tree], derives_node ?_ hone ?_, ?_⟩
        · rw [L.one_body]
          exact hforest
        · simp [Tree.tokensOf, htokens]
        · rw [L.of_one, hof]
          rfl
      · refine ⟨.node L.several [tree, more], derives_node ?_ hseveral ?_, ?_⟩
        · rw [L.several_body]
          exact hforest.cons hmore
        · simp [Tree.tokensOf, htokens, hmoretokens]
        · rw [L.of_several, hof, hofmore]
          rfl
  | @trailing _ _ _ comma hcomma hfurther =>
    cases hparts with
    | cons hitem hparts =>
      obtain ⟨tree, ⟨hforest, htokens⟩, hof⟩ := hitem
      rcases L.derived_more hparts hfurther with ⟨rfl, rfl, rfl⟩ | ⟨more, ⟨hmore, hmoretokens⟩, hofmore⟩
      · refine ⟨.node L.oneComma [tree, .leaf comma], derives_node ?_ honeComma ?_, ?_⟩
        · rw [L.oneComma_body]
          exact hforest.cons (Forest.leaf_one hcomma)
        · simp [Tree.tokensOf, Tree.tokens, htokens]
        · rw [L.of_oneComma, hof]
          rfl
      · refine ⟨.node L.severalComma [tree, more, .leaf comma], derives_node ?_ hseveralComma ?_, ?_⟩
        · rw [L.severalComma_body]
          exact hforest.cons (hmore.cons (Forest.leaf_one hcomma))
        · simp [Tree.tokensOf, Tree.tokens, htokens, hmoretokens]
        · rw [L.of_severalComma, hof, hofmore]
          rfl

end Listing

/-- The rule that only passes the next tighter phrase on. -/
def Phrase.plainRule : Phrase → Rule
  | .whole => .whole
  | .conditional => .plainConditional
  | .disjunction => .plainDisjunction
  | .conjunction => .plainConjunction
  | .negation => .plainNegation
  | .comparison => .plainComparison
  | .sum => .plainSum
  | .product => .plainProduct
  | .unary => .plainUnary
  | _ => .plainPostfix

theorem derived_pass [CharNames] {loose tight : Phrase} {tokens : List Token} {e : Expr}
    (htighter : loose.tighter? = some tight) (h : Derived ofTree tight tokens e) : Derived ofTree loose tokens e := by
  obtain ⟨tree, ⟨hforest, htokens⟩, hof⟩ := h
  have hrule : loose.plainRule.body = [.phrase tight] ∧ loose.plainRule.head = loose ∧
      ofTree (.node loose.plainRule [tree]) = ofTree tree := by
    cases loose <;> cases htighter <;> exact ⟨rfl, rfl, rfl⟩
  obtain ⟨hbody, hhead, hofrule⟩ := hrule
  refine ⟨.node loose.plainRule [tree], derives_node ?_ hhead ?_, ?_⟩
  · rw [hbody]
    exact hforest
  · rw [Tree.tokensOf_singleton, htokens]
  · rw [hofrule, hof]

theorem derived_infix [CharNames] (rule : Rule) {left right : Phrase} {tokens tokens' : List Token} {sign : Token}
    {f : Expr → Expr → Expr} {a b : Expr} (hbody : rule.body = [.phrase left, .terminal sign.terminal, .phrase right])
    (hof : ∀ l r, ofTree (.node rule [l, .leaf sign, r]) = both f (ofTree l) (ofTree r))
    (hleft : Derived ofTree left tokens a) (hright : Derived ofTree right tokens' b) :
    Derived ofTree rule.head (tokens ++ sign :: tokens') (f a b) := by
  obtain ⟨l, ⟨hl, hltokens⟩, hofl⟩ := hleft
  obtain ⟨r, ⟨hr, hrtokens⟩, hofr⟩ := hright
  refine ⟨.node rule [l, .leaf sign, r], derives_node ?_ rfl ?_, ?_⟩
  · rw [hbody]
    exact hl.cons (.leaf sign hr)
  · simp [Tree.tokensOf, Tree.tokens, hltokens, hrtokens]
  · rw [hof, hofl, hofr]
    rfl

theorem derived_prefixed [CharNames] (rule : Rule) {operand : Phrase} {tokens : List Token} {sign : Token}
    {f : Expr → Expr} {a : Expr} (hbody : rule.body = [.terminal sign.terminal, .phrase operand])
    (hof : ∀ r, ofTree (.node rule [.leaf sign, r]) = each f (ofTree r)) (hoperand : Derived ofTree operand tokens a) :
    Derived ofTree rule.head (sign :: tokens) (f a) := by
  obtain ⟨r, ⟨hr, hrtokens⟩, hofr⟩ := hoperand
  refine ⟨.node rule [.leaf sign, r], derives_node ?_ rfl ?_, ?_⟩
  · rw [hbody]
    exact .leaf sign hr
  · simp [Tree.tokensOf, Tree.tokens, hrtokens]
  · rw [hof, hofr]
    rfl

theorem derived_enclosed [CharNames] {α : Type} {of : Tree → Except Literal.Problem α} (rule : Rule) {p : Phrase}
    {tokens : List Token} {opening closing : Token} {a : α} {e : Expr}
    (hbody : rule.body = [.terminal opening.terminal, .phrase p, .terminal closing.terminal])
    (hof : ∀ r, of r = .ok a → ofTree (.node rule [.leaf opening, r, .leaf closing]) = .ok e)
    (h : Derived of p tokens a) : Derived ofTree rule.head (opening :: (tokens ++ [closing])) e := by
  obtain ⟨r, ⟨hr, hrtokens⟩, hofr⟩ := h
  refine ⟨.node rule [.leaf opening, r, .leaf closing], derives_node ?_ rfl ?_, hof r hofr⟩
  · rw [hbody]
    exact .leaf opening (hr.cons (.leaf closing .nil))
  · simp [Tree.tokensOf, Tree.tokens, hrtokens]

theorem operator_of_symbol {op : BinaryOp} {sign : List Char} (h : op.symbol = String.ofList sign) :
    operator sign = op := by
  unfold operator
  rw [← h]
  revert op
  intro op _
  have hall : ∀ op ∈ BinaryOp.all, (BinaryOp.ofSymbol? op.symbol).getD .add = op := by decide
  apply hall
  rcases op with _ | _ | _ | _ | _ | _ | _ | _ | _ | c
  all_goals try simp [BinaryOp.all]
  cases c <;> simp

theorem derived_conditional [CharNames] {test whenTrue whenFalse : List Token} {question colon : Token} {e a b : Expr}
    (hquestion : question.terminal = .question) (hcolon : colon.terminal = .colon)
    (htest : Derived ofTree .disjunction test e) (htrue : Derived ofTree .conditional whenTrue a)
    (hfalse : Derived ofTree .conditional whenFalse b) :
    Derived ofTree .conditional (test ++ question :: (whenTrue ++ colon :: whenFalse))
      (.conditional e a b) := by
  obtain ⟨c, ⟨hc, hctokens⟩, hofc⟩ := htest
  obtain ⟨l, ⟨hl, hltokens⟩, hofl⟩ := htrue
  obtain ⟨r, ⟨hr, hrtokens⟩, hofr⟩ := hfalse
  refine ⟨.node .conditional [c, .leaf question, l, .leaf colon, r], derives_node ?_ rfl ?_, ?_⟩
  · have hlater := (Forest.leaf_one hcolon).cons hr
    exact hc.cons ((Forest.leaf_one hquestion).cons (hl.cons hlater))
  · simp [Tree.tokensOf, Tree.tokens, hctokens, hltokens, hrtokens]
  · simp only [ofTree, hofc, hofl, hofr]
    rfl

theorem derived_member [CharNames] {target : List Token} {dot word : Token} {e : Expr} (hdot : dot.terminal = .dot)
    (hword : word.terminal = .name) (htarget : Derived ofTree .suffixed target e) :
    Derived ofTree .suffixed (target ++ [dot, word]) (.member e (keyText word)) := by
  obtain ⟨t, ⟨ht, httokens⟩, hoft⟩ := htarget
  refine ⟨.node .member [t, .leaf dot, .leaf word], derives_node ?_ rfl ?_, ?_⟩
  · exact ht.cons ((Forest.leaf_one hdot).cons (Forest.leaf_one hword))
  · simp [Tree.tokensOf, Tree.tokens, httokens]
  · simp only [ofTree, hoft]
    rfl

theorem derived_index [CharNames] {target place : List Token} {opening closing : Token} {e i : Expr}
    (hopening : opening.terminal = .openBracket) (hclosing : closing.terminal = .closeBracket)
    (htarget : Derived ofTree .suffixed target e) (hplace : Derived ofTree .conditional place i) :
    Derived ofTree .suffixed (target ++ opening :: (place ++ [closing])) (.index e i) := by
  obtain ⟨t, ⟨ht, httokens⟩, hoft⟩ := htarget
  obtain ⟨r, ⟨hr, hrtokens⟩, hofr⟩ := hplace
  refine ⟨.node .index [t, .leaf opening, r, .leaf closing], derives_node ?_ rfl ?_, ?_⟩
  · have hlater := hr.cons (Forest.leaf_one hclosing)
    exact ht.cons ((Forest.leaf_one hopening).cons hlater)
  · simp [Tree.tokensOf, Tree.tokens, httokens, hrtokens]
  · simp only [ofTree, hoft, hofr]
    rfl

theorem derived_leaf [CharNames] (rule : Rule) {token : Token} {t : Terminal} {e : Expr}
    (htoken : token.terminal = t) (hbody : rule.body = [.terminal t]) (hhead : rule.head = .atom)
    (hof : ofTree (.node rule [.leaf token]) = .ok e) : Derived ofTree .atom [token] e := by
  refine ⟨.node rule [.leaf token], derives_node ?_ hhead ?_, hof⟩
  · rw [hbody]
    exact Forest.leaf_one htoken
  · simp [Tree.tokensOf, Tree.tokens]

theorem derived_call [CharNames] {tokens : List Token} {word opening closing : Token} {values : List Expr}
    (hword : word.terminal = .name) (hopening : opening.terminal = .openParen)
    (hclosing : closing.terminal = .closeParen) (h : Derived argumentsOfTree .arguments tokens values) :
    Derived ofTree .atom (word :: opening :: (tokens ++ [closing])) (.call (keyText word) values) := by
  obtain ⟨t, ⟨ht, httokens⟩, hoft⟩ := h
  refine ⟨.node .call [.leaf word, .leaf opening, t, .leaf closing], derives_node ?_ rfl ?_, ?_⟩
  · have hlater := ht.cons (Forest.leaf_one hclosing)
    exact (Forest.leaf_one hword).cons ((Forest.leaf_one hopening).cons hlater)
  · simp [Tree.tokensOf, Tree.tokens, httokens]
  · simp only [ofTree, hoft]
    rfl

theorem derived_entry [CharNames] {entry : Entry} (hnamed : entry.Named)
    (hvalue : Derived ofTree .conditional entry.tokens entry.value) :
    Derived entryOfTree .entry entry.spelling (entry.word, entry.value) := by
  obtain ⟨r, ⟨hr, hrtokens⟩, hofr⟩ := hvalue
  obtain ⟨hcolon, ⟨hkey, hword⟩ | ⟨hkey, cs, htext, hword⟩⟩ := hnamed
  · refine ⟨.node .nameEntry [.leaf entry.key, .leaf entry.colon, r], derives_node ?_ rfl ?_, ?_⟩
    · exact (Forest.leaf_one hkey).cons ((Forest.leaf_one hcolon).cons hr)
    · simp [Tree.tokensOf, Tree.tokens, hrtokens, Entry.spelling]
    · simp only [entryOfTree, hofr, hword]
      rfl
  · refine ⟨.node .textEntry [.leaf entry.key, .leaf entry.colon, r], derives_node ?_ rfl ?_, ?_⟩
    · exact (Forest.leaf_one hkey).cons ((Forest.leaf_one hcolon).cons hr)
    · simp [Tree.tokensOf, Tree.tokens, hrtokens, Entry.spelling]
    · simp only [entryOfTree, hofr, htext, hword]
      rfl

theorem derived_items [CharNames] {items : List (List Token × Expr)} {tokens : List Token}
    (hlisted : Listed (items.map (·.1)) tokens)
    (hitems : ∀ item ∈ items, Derived ofTree .conditional item.1 item.2) (hne : items ≠ []) :
    Derived argumentsOfTree .arguments tokens (items.map (·.2)) := by
  have hparts : List.Forall₂ (Derived ofTree .conditional) (items.map (·.1)) (items.map (·.2)) := by
    rw [List.forall₂_map_left_iff, List.forall₂_map_right_iff, List.forall₂_same]
    exact hitems
  apply Listing.arguments.derived_list hparts hlisted
  simpa using hne

theorem derived_entries [CharNames] {entries : List Entry} {tokens : List Token}
    (hlisted : Listed (entries.map Entry.spelling) tokens) (hnamed : ∀ entry ∈ entries, entry.Named)
    (hvalues : ∀ entry ∈ entries, Derived ofTree .conditional entry.tokens entry.value) (hne : entries ≠ []) :
    Derived entriesOfTree .entries tokens (entries.map fun entry => (entry.word, entry.value)) := by
  have hparts : List.Forall₂ (Derived entryOfTree .entry) (entries.map Entry.spelling)
      (entries.map fun entry => (entry.word, entry.value)) := by
    rw [List.forall₂_map_left_iff, List.forall₂_map_right_iff, List.forall₂_same]
    intro entry hmem
    exact derived_entry (hnamed entry hmem) (hvalues entry hmem)
  apply Listing.entries.derived_list hparts hlisted
  simpa using hne

theorem Spells.derived [CharNames] {p : Phrase} {tokens : List Token} {e : Expr} (h : Spells p tokens e) :
    Derived ofTree p tokens e := by
  induction h with
  | pass htighter _ ih => exact derived_pass htighter ih
  | conditional hquestion hcolon _ _ _ htest htrue hfalse =>
    exact derived_conditional hquestion hcolon htest htrue hfalse
  | or hsign _ _ hleft hright =>
    rcases hsign with hsign | hsign
    · exact derived_infix .orWord (by rw [hsign]; rfl) (fun _ _ => rfl) hleft hright
    · exact derived_infix .orSign (by rw [hsign]; rfl) (fun _ _ => rfl) hleft hright
  | and hsign _ _ hleft hright =>
    rcases hsign with hsign | hsign
    · exact derived_infix .andWord (by rw [hsign]; rfl) (fun _ _ => rfl) hleft hright
    · exact derived_infix .andSign (by rw [hsign]; rfl) (fun _ _ => rfl) hleft hright
  | not hword _ hoperand =>
    exact derived_prefixed .notWord (by rw [hword]; rfl) (fun _ => rfl) hoperand
  | comparison hsign hsymbol _ _ hleft hright =>
    have hop := operator_of_symbol hsymbol
    subst hop
    exact derived_infix .comparison (by rw [hsign]; rfl) (fun _ _ => rfl) hleft hright
  | sum hsign _ _ hleft hright =>
    rcases hsign with ⟨hsign, rfl⟩ | ⟨hsign, rfl⟩
    · exact derived_infix .plus (by rw [hsign]; rfl) (fun _ _ => rfl) hleft hright
    · exact derived_infix .minus (by rw [hsign]; rfl) (fun _ _ => rfl) hleft hright
  | product hsign hsymbol _ _ hleft hright =>
    have hop := operator_of_symbol hsymbol
    subst hop
    exact derived_infix .product (by rw [hsign]; rfl) (fun _ _ => rfl) hleft hright
  | bang hsign _ hoperand =>
    exact derived_prefixed .bang (by rw [hsign]; rfl) (fun _ => rfl) hoperand
  | signed hsign _ hoperand =>
    rcases hsign with ⟨hsign, rfl⟩ | ⟨hsign, rfl⟩
    · exact derived_prefixed .negative (by rw [hsign]; rfl) (fun _ => rfl) hoperand
    · exact derived_prefixed .positive (by rw [hsign]; rfl) (fun _ => rfl) hoperand
  | member hdot hword _ htarget => exact derived_member hdot hword htarget
  | index hopening hclosing _ _ htarget hplace =>
    exact derived_index hopening hclosing htarget hplace
  | numeral htoken hnumber =>
    apply derived_leaf .numeral htoken rfl rfl
    simp [ofTree, hnumber, Except.map]
  | text htoken htext =>
    apply derived_leaf .text htoken rfl rfl
    simp [ofTree, htext, Except.map]
  | trueWord htoken => exact derived_leaf .trueWord htoken rfl rfl rfl
  | falseWord htoken => exact derived_leaf .falseWord htoken rfl rfl rfl
  | nullWord htoken => exact derived_leaf .nullWord htoken rfl rfl rfl
  | name htoken => exact derived_leaf .name htoken rfl rfl rfl
  | @call tokens word opening closing items hword hopening hclosing hlisted _ hitems =>
    by_cases hne : items = []
    · subst hne
      cases hlisted
      refine ⟨.node .emptyCall [.leaf word, .leaf opening, .leaf closing], derives_node ?_ rfl ?_, rfl⟩
      · exact (Forest.leaf_one hword).cons ((Forest.leaf_one hopening).cons (Forest.leaf_one hclosing))
      · simp [Tree.tokensOf, Tree.tokens]
    · exact derived_call hword hopening hclosing (derived_items hlisted hitems hne)
  | @list tokens opening closing items hopening hclosing hlisted _ hitems =>
    by_cases hne : items = []
    · subst hne
      cases hlisted
      refine ⟨.node .emptyList [.leaf opening, .leaf closing], derives_node ?_ rfl ?_, rfl⟩
      · exact (Forest.leaf_one hopening).cons (Forest.leaf_one hclosing)
      · simp [Tree.tokensOf, Tree.tokens]
    · have hall := derived_items hlisted hitems hne
      apply derived_enclosed .list (by rw [hopening, hclosing]; rfl) _ hall
      intro r hof
      simp only [ofTree, hof]
      rfl
  | @map tokens opening closing entries hopening hclosing hlisted hnamed _ hvalues =>
    by_cases hne : entries = []
    · subst hne
      cases hlisted
      refine ⟨.node .emptyMap [.leaf opening, .leaf closing], derives_node ?_ rfl ?_, rfl⟩
      · exact (Forest.leaf_one hopening).cons (Forest.leaf_one hclosing)
      · simp [Tree.tokensOf, Tree.tokens]
    · have hall := derived_entries hlisted hnamed hvalues hne
      apply derived_enclosed .map (by rw [hopening, hclosing]; rfl) _ hall
      intro r hof
      simp only [ofTree, hof]
      rfl
  | group hopening hclosing _ hinner =>
    apply derived_enclosed .group (by rw [hopening, hclosing]; rfl) _ hinner
    intro r hof
    exact hof

theorem Derives.ofTree_iff [CharNames] {tokens : List Token} {tree : Tree} {e : Expr}
    (h : Derives .whole tokens tree) (hread : ∀ token ∈ tokens, Delivered token) :
    ofTree tree = .ok e ↔ Spells .whole tokens e := by
  constructor
  · intro hof
    have houtcome := h.outcome hread
    rw [hof] at houtcome
    exact houtcome
  · intro hspells
    obtain ⟨tree', hderives, hof⟩ := hspells.derived
    have hsame := h.unique hderives
    rw [hsame, hof]

end RoutineFlow.Expr
