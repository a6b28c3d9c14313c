import RoutineFlow.Expr.Parser
import RoutineFlow.Proofs.Grammar

namespace RoutineFlow.Expr

namespace Phrase

/-- The terminals that can stand behind a phrase. -/
def follow : Phrase → List Terminal
  | .whole => [.finish]
  | .conditional => Automaton.afterConditional
  | .disjunction => Automaton.afterConjunction
  | .conjunction | .negation => Automaton.afterNegation
  | .comparison => Automaton.afterSum
  | .sum => Automaton.afterProduct
  | .product | .unary => Automaton.afterUnary
  | .suffixed | .atom => Automaton.afterAtom
  | .arguments => [.closeParen, .closeBracket]
  | .moreArguments => [.comma, .closeParen, .closeBracket]
  | .entries => [.closeBrace]
  | .moreEntries | .entry => [.comma, .closeBrace]

def rules : Phrase → List Rule
  | .whole => [.whole]
  | .conditional => [.plainConditional, .conditional]
  | .disjunction => [.plainDisjunction, .orWord, .orSign]
  | .conjunction => [.plainConjunction, .andWord, .andSign]
  | .negation => [.plainNegation, .notWord]
  | .comparison => [.plainComparison, .comparison]
  | .sum => [.plainSum, .plus, .minus]
  | .product => [.plainProduct, .product]
  | .unary => [.plainUnary, .bang, .negative, .positive]
  | .suffixed => [.plainPostfix, .member, .index]
  | .atom => [.numeral, .text, .trueWord, .falseWord, .nullWord, .name, .emptyCall, .call,
      .emptyList, .list, .emptyMap, .map, .group]
  | .arguments => [.argument, .argumentComma, .arguments, .argumentsComma]
  | .moreArguments => [.nextArgument, .laterArgument]
  | .entries => [.entry, .entryComma, .entries, .entriesComma]
  | .moreEntries => [.nextEntry, .laterEntry]
  | .entry => [.nameEntry, .textEntry]

end Phrase

namespace Symbol

/-- A rule that passes a single symbol on lowers the rank. -/
def rank : Symbol → Nat
  | .terminal _ => 15
  | .phrase p => match p with
    | .atom => 12
    | .suffixed => 11
    | .unary => 10
    | .product => 9
    | .sum => 8
    | .comparison => 7
    | .negation => 6
    | .conjunction => 5
    | .disjunction => 4
    | .conditional => 3
    | .entry => 3
    | .whole | .arguments | .moreArguments | .entries | .moreEntries => 2

theorem rank_lt (X : Symbol) : X.rank < 16 := by
  match X with
  | .terminal _ => simp [rank]
  | .phrase p => cases p <;> simp [rank]

end Symbol

theorem Rule.mem_rules (rule : Rule) : rule ∈ rule.head.rules := by
  cases rule <;> simp [Rule.head, Phrase.rules]

theorem Rule.rank_head_lt {rule : Rule} {X : Symbol} (h : rule.body = [X]) :
    (Symbol.phrase rule.head).rank < X.rank := by
  cases rule <;> simp [Rule.body] at h <;> subst h <;> simp [Rule.head, Symbol.rank]

/-- Each phrase among the symbols is followed by a terminal that can stand behind it. -/
def Fits (after : Terminal) : List Symbol → Prop
  | [] => True
  | .terminal _ :: symbols => Fits after symbols
  | .phrase p :: symbols => (∀ t ∈ starts after symbols, t ∈ p.follow) ∧ Fits after symbols

instance decidableFits (after : Terminal) : (symbols : List Symbol) → Decidable (Fits after symbols)
  | [] => .isTrue trivial
  | .terminal _ :: symbols => decidableFits after symbols
  | .phrase p :: symbols =>
    have := decidableFits after symbols
    inferInstanceAs (Decidable ((∀ t ∈ starts after symbols, t ∈ p.follow) ∧ Fits after symbols))

theorem Rule.fits_body (rule : Rule) : ∀ t ∈ rule.head.follow, Fits t rule.body := by
  cases rule <;> decide

namespace Automaton

variable {s target : Nat}

/-- Where a symbol leads from a state. -/
def step? (s : Nat) : Symbol → Option Nat
  | .terminal t => (state s).shifts.lookup t
  | .phrase p => goto? s p

/-- Where the symbols lead from a state, one after the other. -/
def walk? (s : Nat) : List Symbol → Option Nat
  | [] => some s
  | X :: symbols => (step? s X).bind fun target => walk? target symbols

def steps (s : Nat) : List (Symbol × Nat) :=
  (state s).shifts.map (fun (t, target) => (.terminal t, target)) ++
    (state s).gotos.map fun (p, target) => (.phrase p, target)

/-- Every way into the state spells the symbols, the last one first. -/
def enters : List Symbol → Nat → Bool
  | [], _ => true
  | X :: symbols, s => s != 0 && (List.range states.size).all fun source =>
    (steps source).all fun (Y, target) => target != s || (Y == X && enters symbols source)

/-- Behind the body of the rule, read from the state, whatever can follow its phrase reduces it. -/
def completes (s : Nat) (rule : Rule) : Bool :=
  match walk? s rule.body with
  | some target => rule.head.follow.all fun t => action target t == .reduce rule
  | none => false

theorem state_of_le (h : states.size ≤ s) : state s = ⟨[], none, []⟩ := by
  simp [state, Array.getD, Nat.not_lt.mpr h]

theorem mem_of_lookup {α β : Type} [BEq α] [LawfulBEq α] {key : α} {value : β}
    {entries : List (α × β)} (h : entries.lookup key = some value) : (key, value) ∈ entries := by
  obtain ⟨before, after, rfl, _⟩ := List.lookup_eq_some_iff.mp h
  simp

theorem mem_steps {X : Symbol} (h : step? s X = some target) : (X, target) ∈ steps s := by
  match X with
  | .terminal t =>
    have hmem := mem_of_lookup h
    simp only [steps, List.mem_append, List.mem_map]
    exact .inl ⟨_, hmem, rfl⟩
  | .phrase p =>
    have hmem := mem_of_lookup h
    simp only [steps, List.mem_append, List.mem_map]
    exact .inr ⟨_, hmem, rfl⟩

theorem lt_of_step {X : Symbol} (h : step? s X = some target) : s < states.size := by
  have hmem := mem_steps h
  apply Nat.lt_of_not_le
  intro hs
  simp [steps, state_of_le hs] at hmem

theorem enters_step {X Y : Symbol} {symbols : List Symbol} (h : enters (X :: symbols) target = true)
    (hstep : step? s Y = some target) : Y = X ∧ enters symbols s = true := by
  simp only [enters, Bool.and_eq_true, List.all_eq_true, List.mem_range] at h
  have hs := lt_of_step hstep
  have hall := h.2 s hs (Y, target) (mem_steps hstep)
  simpa using hall

/-- The rules that states without a completed one have begun, and how many of their symbols have been read. -/
def begun : List (Nat × Rule × Nat) :=
  [(1, .bang, 1), (3, .emptyMap, 1), (4, .group, 1), (5, .emptyList, 1), (6, .negative, 1), (8, .notWord, 1),
    (11, .positive, 1), (26, .nameEntry, 1), (28, .textEntry, 1), (30, .map, 2), (31, .group, 2), (33, .list, 2),
    (36, .emptyCall, 2), (39, .andWord, 2), (40, .andSign, 2), (41, .comparison, 2), (42, .orWord, 2),
    (43, .conditional, 2), (44, .orSign, 2), (45, .member, 2), (46, .index, 2), (47, .product, 2), (48, .minus, 2),
    (49, .plus, 2), (50, .nameEntry, 2), (51, .textEntry, 2), (60, .call, 3), (65, .conditional, 3), (68, .index, 3),
    (79, .conditional, 4)]

/-- The rule that a state has completed or begun, and how many of its symbols have been read. -/
def reading? (s : Nat) : Option (Rule × Nat) :=
  match (state s).reduces with
  | some (rule, _) => some (rule, rule.body.length)
  | none => begun.lookup s

/-- What every way into the state spells at least, the last symbol first. -/
def spelled (s : Nat) : List Symbol :=
  match reading? s with
  | some (rule, k) => (rule.body.take k).reverse
  | none => []

theorem spelled_all : (List.range states.size).all (fun source => (steps source).all fun (X, target) =>
    (spelled target).isPrefixOf (X :: spelled source)) = true := by
  decide

theorem enters_of_spelled {symbols : List Symbol} (h : symbols <+: spelled s) : enters symbols s = true := by
  induction symbols generalizing s with
  | nil => rfl
  | cons X symbols ih =>
    have hne : s ≠ 0 := by
      rintro rfl
      exact List.cons_ne_nil X symbols (List.prefix_nil.mp h)
    simp only [enters, Bool.and_eq_true, bne_iff_ne, List.all_eq_true, List.mem_range, Bool.or_eq_true, beq_iff_eq]
    refine ⟨hne, fun source hsource (Y, target) hstep => ?_⟩
    by_cases htarget : target = s
    · subst htarget
      have hall := List.all_eq_true.mp (List.all_eq_true.mp spelled_all source (List.mem_range.mpr hsource)) _ hstep
      obtain ⟨rfl, hbefore⟩ := List.cons_prefix_cons.mp (h.trans (List.isPrefixOf_iff_prefix.mp hall))
      exact .inr ⟨rfl, ih hbefore⟩
    · exact .inl htarget

theorem completes_all : (List.range states.size).all (fun s =>
    (state s).gotos.all fun (p, _) => p.rules.all (completes s)) = true := by
  decide

theorem accepting_enters : enters [.phrase .whole] accepting = true := by
  decide

theorem enters_initial_all : (List.range states.size).all (fun source =>
    (steps source).all fun (_, target) => target != 0 && (target != accepting || source == 0)) =
      true := by
  decide

theorem no_finish_all : (List.range states.size).all (fun s =>
    (step? s (.terminal .finish)).isNone) = true := by
  decide

theorem action_shift_iff {t : Terminal} :
    action s t = .shift target ↔ step? s (.terminal t) = some target := by
  unfold action step?
  cases h : (state s).shifts.lookup t with
  | some n => simp [h]
  | none =>
    simp only [h, reduceCtorEq, iff_false]
    split
    · split <;> simp
    · split <;> simp

theorem reduces_of_action {t : Terminal} {rule : Rule} (h : action s t = .reduce rule) :
    ∃ before, (state s).reduces = some (rule, before) := by
  unfold action at h
  split at h
  · simp at h
  · split at h
    · rename_i rule' before hreduces
      split at h
      · simp only [Action.reduce.injEq] at h
        exact ⟨before, by rw [hreduces, h]⟩
      · simp at h
    · split at h <;> simp at h

theorem enters_of_action {t : Terminal} {rule : Rule} (h : action s t = .reduce rule) :
    enters rule.body.reverse s = true := by
  obtain ⟨before, hreduces⟩ := reduces_of_action h
  apply enters_of_spelled
  simp [spelled, reading?, hreduces]

theorem action_accept {t : Terminal} (h : action s t = .accept) : s = accepting ∧ t = .finish := by
  unfold action at h
  split at h
  · simp at h
  · split at h
    · split at h <;> simp at h
    · split at h
      · assumption
      · simp at h

theorem not_shift_finish : step? s (.terminal .finish) ≠ some target := by
  intro h
  have hall := List.all_eq_true.mp no_finish_all s (List.mem_range.mpr (lt_of_step h))
  simp [h] at hall

theorem ne_zero_of_step {X : Symbol} (h : step? s X = some target) : target ≠ 0 := by
  have hall := List.all_eq_true.mp enters_initial_all s (List.mem_range.mpr (lt_of_step h))
  have hall := List.all_eq_true.mp hall _ (mem_steps h)
  simp only [Bool.and_eq_true, bne_iff_ne] at hall
  exact hall.1

theorem eq_zero_of_step {X : Symbol} (h : step? s X = some accepting) : s = 0 := by
  have hall := List.all_eq_true.mp enters_initial_all s (List.mem_range.mpr (lt_of_step h))
  have hall := List.all_eq_true.mp hall _ (mem_steps h)
  simpa [accepting] using hall

theorem completes_of_goto {rule : Rule} (h : goto? s rule.head = some target) :
    ∃ last, walk? s rule.body = some last ∧
      ∀ t ∈ rule.head.follow, action last t = .reduce rule := by
  have hs := lt_of_step (X := .phrase rule.head) h
  have hall := List.all_eq_true.mp completes_all s (List.mem_range.mpr hs)
  have hall := List.all_eq_true.mp hall _ (mem_of_lookup h)
  have hall := List.all_eq_true.mp hall rule rule.mem_rules
  unfold completes at hall
  split at hall
  · rename_i last hwalk
    refine ⟨last, hwalk, ?_⟩
    simpa using hall
  · simp at hall

end Automaton

open Automaton

namespace Stack

/-- Every frame is entered by the symbol of its derivation. -/
inductive Path : Stack → Prop
  | empty : Path []
  | push {stack : Stack} {frame : Frame} (X : Symbol) : Path stack →
      step? (state stack) X = some frame.state → Forest [frame.tree] [X] → Path (frame :: stack)

/-- The derivations on a stack in the order of the tokens. -/
def trees (stack : Stack) : List Tree :=
  (stack.map (·.tree)).reverse

/-- Goes down with every reduction. -/
def weight : Stack → Nat
  | [] => 0
  | frame :: rest => 16 * (rest.length + 1) + frame.tree.symbol.rank

theorem trees_append (top rest : Stack) : trees (top ++ rest) = trees rest ++ trees top := by
  simp [trees]

theorem trees_cons (frame : Frame) (rest : Stack) :
    trees (frame :: rest) = trees rest ++ [frame.tree] := by
  simp [trees]

theorem length_trees (stack : Stack) : stack.trees.length = stack.length := by
  simp [trees]

theorem weight_lt_reductions (stack : Stack) : weight stack < reductions stack := by
  match stack with
  | [] => simp [weight, reductions]
  | frame :: rest =>
    have hrank := frame.tree.symbol.rank_lt
    simp only [weight, reductions, List.length_cons]
    omega

theorem Path.eq_nil {stack : Stack} (h : Path stack) (hstate : stack.state = 0) : stack = [] := by
  cases h with
  | empty => rfl
  | push X _ hstep _ =>
    have hne := ne_zero_of_step hstep
    exact absurd hstate hne

theorem Path.split {symbols : List Symbol} {stack : Stack} (hpath : Path stack)
    (henters : enters symbols stack.state = true) :
    ∃ top rest, stack = top ++ rest ∧ Path rest ∧ Forest (trees top) symbols.reverse := by
  induction symbols generalizing stack with
  | nil => exact ⟨[], stack, rfl, hpath, .nil⟩
  | cons X symbols ih =>
    cases hpath with
    | empty => simp [enters, state] at henters
    | @push stack frame Y hpath hstep htree =>
      obtain ⟨hsymbol, hbefore⟩ := enters_step henters hstep
      subst hsymbol
      obtain ⟨top, rest, rfl, hrest, htop⟩ := ih hpath hbefore
      refine ⟨frame :: top, rest, rfl, hrest, ?_⟩
      rw [trees_cons, List.reverse_cons]
      exact htop.append htree

variable {t : Terminal} {rule : Rule} {stack next top rest : Stack}

theorem reduce_append (hlength : top.length = rule.body.length) :
    reduce? (top ++ rest) rule = (goto? rest.state rule.head).map fun target =>
      ⟨target, .node rule (trees top)⟩ :: rest := by
  simp [reduce?, ← hlength, trees]

/-- One reduction: the body of the rule on top of the stack makes way for its phrase. -/
theorem Path.reduce (hpath : Path stack) (haction : action stack.state t = .reduce rule)
    (hnext : reduce? stack rule = some next) :
    Path next ∧ Tree.tokensOf next.trees = Tree.tokensOf stack.trees ∧ next.weight < stack.weight := by
  have henters := enters_of_action haction
  obtain ⟨top, rest, rfl, hrest, htop⟩ := hpath.split henters
  rw [List.reverse_reverse] at htop
  have hlength : top.length = rule.body.length := by
    rw [← length_trees, htop.length_eq]
  rw [reduce_append hlength, Option.map_eq_some_iff] at hnext
  obtain ⟨target, hgoto, rfl⟩ := hnext
  refine ⟨.push (.phrase rule.head) hrest hgoto (.node rule htop .nil), ?_, ?_⟩
  · simp [trees_cons, trees_append, Tree.tokensOf_append, Tree.tokensOf, Tree.tokens]
  · obtain _ | ⟨frame, _ | ⟨frame', top⟩⟩ := top
    · have hne := rule.body_ne_nil
      exact absurd (List.length_eq_zero_iff.mp hlength.symm) hne
    · obtain ⟨X, hbody⟩ := List.length_eq_one_iff.mp hlength.symm
      have hrank := rule.rank_head_lt hbody
      have hsymbol : frame.tree.symbol = X := by
        rw [hbody] at htop
        exact htop.symbol_eq
      simp only [weight, List.cons_append, List.nil_append, Tree.symbol_node, hsymbol]
      omega
    · have hrank := Symbol.rank_lt (.phrase rule.head)
      simp only [weight, List.cons_append, List.length_cons, List.length_append, Tree.symbol_node]
      omega

theorem settle_fuel {fuel fuel' : Nat} (hpath : Path stack) (h : stack.weight < fuel)
    (h' : stack.weight < fuel') : settle t fuel stack = settle t fuel' stack := by
  -- Every reduction lowers the weight, so fuel above it does not run out.
  induction fuel generalizing fuel' stack with
  | zero => omega
  | succ fuel ih =>
    match fuel', h' with
    | fuel' + 1, h' =>
      simp only [settle]
      cases haction : action stack.state t with
      | shift target => rfl
      | accept => rfl
      | refuse => rfl
      | reduce rule =>
        cases hnext : reduce? stack rule with
        | none => simp [hnext]
        | some next =>
          obtain ⟨hpath, _, hweight⟩ := hpath.reduce haction hnext
          simp only [hnext]
          apply ih hpath <;> omega

theorem settle_reduce (hpath : Path stack) (haction : action stack.state t = .reduce rule)
    (hnext : reduce? stack rule = some next) :
    settle t (reductions stack) stack = settle t (reductions next) next := by
  obtain ⟨hpath', _, hweight⟩ := hpath.reduce haction hnext
  have hfuel := weight_lt_reductions stack
  have hfuel' := weight_lt_reductions next
  obtain ⟨fuel, hsucc⟩ : ∃ fuel, reductions stack = fuel + 1 := ⟨reductions stack - 1, by omega⟩
  rw [hsucc]
  simp only [settle, haction, hnext]
  apply settle_fuel hpath' <;> omega

theorem settle_shift {target : Nat} (haction : action stack.state t = .shift target) :
    settle t (reductions stack) stack = .ok (target, stack) := by
  have hsucc : reductions stack = 16 * stack.length + 15 + 1 := by
    unfold reductions
    omega
  rw [hsucc]
  simp [settle, haction]

theorem settle_eq_ok {fuel target : Nat} (hpath : Path stack)
    (h : settle t fuel stack = .ok (target, rest)) :
    Path rest ∧ Tree.tokensOf rest.trees = Tree.tokensOf stack.trees ∧
      (action rest.state t = .shift target ∨ action rest.state t = .accept) := by
  induction fuel generalizing stack with
  | zero => simp [settle] at h
  | succ fuel ih =>
    simp only [settle] at h
    split at h
    · rename_i target' haction
      simp only [Except.ok.injEq, Prod.mk.injEq] at h
      obtain ⟨rfl, rfl⟩ := h
      exact ⟨hpath, rfl, .inl haction⟩
    · rename_i haction
      simp only [Except.ok.injEq, Prod.mk.injEq] at h
      obtain ⟨rfl, rfl⟩ := h
      exact ⟨hpath, rfl, .inr haction⟩
    · simp at h
    · rename_i rule haction
      cases hnext : reduce? stack rule with
      | none => simp [hnext] at h
      | some next =>
        rw [hnext] at h
        obtain ⟨hpath, htokens, _⟩ := hpath.reduce haction hnext
        have hrest := ih hpath h
        rw [htokens] at hrest
        exact hrest

theorem feed_eq_ok {token : Token} (hpath : Path stack) (htoken : token.terminal ≠ .finish)
    (h : stack.feed token = .ok next) :
    Path next ∧ Tree.tokensOf next.trees = Tree.tokensOf stack.trees ++ [token] := by
  unfold feed at h
  cases hsettle : settle token.terminal (reductions stack) stack with
  | error stuck => simp [hsettle, Except.map] at h
  | ok settled =>
    obtain ⟨target, rest⟩ := settled
    simp only [hsettle, Except.map, Except.ok.injEq] at h
    subst h
    obtain ⟨hrest, htokens, haction⟩ := settle_eq_ok hpath hsettle
    have hshift : action rest.state token.terminal = .shift target := by
      apply haction.resolve_right
      intro haccept
      exact htoken (action_accept haccept).2
    refine ⟨.push _ hrest (action_shift_iff.mp hshift) (.leaf token .nil), ?_⟩
    simp [trees_cons, Tree.tokensOf_append, Tree.tokensOf, Tree.tokens, htokens]

theorem finish_eq_ok {tree : Tree} (hpath : Path stack) (h : stack.finish = .ok tree) :
    Derives .whole (Tree.tokensOf stack.trees) tree := by
  unfold finish at h
  cases hsettle : settle .finish (reductions stack) stack with
  | error stuck => simp [hsettle, Except.bind] at h
  | ok settled =>
    obtain ⟨target, rest⟩ := settled
    simp only [hsettle, Except.bind] at h
    obtain ⟨hrest, htokens, haction⟩ := settle_eq_ok hpath hsettle
    have haccept : action rest.state .finish = .accept := by
      apply haction.resolve_left
      intro hshift
      exact not_shift_finish (action_shift_iff.mp hshift)
    have hstate := (action_accept haccept).1
    cases hrest with
    | empty => simp at h
    | @push rest frame X hrest hstep htree =>
      simp only [Except.ok.injEq] at h
      subst h
      have hframe : frame.state = accepting := hstate
      rw [hframe] at hstep
      obtain ⟨rfl, -⟩ := enters_step accepting_enters hstep
      have hnil := hrest.eq_nil (eq_zero_of_step hstep)
      subst hnil
      refine ⟨htree, ?_⟩
      simpa [trees, Tree.tokensOf] using htokens

end Stack

open Stack

theorem deriveFrom_sound {stack : Stack} {tokens : List Token} {tree : Tree} (hpath : Stack.Path stack)
    (htokens : ∀ token ∈ tokens, token.terminal ≠ .finish)
    (h : deriveFrom stack tokens = .ok tree) :
    Derives .whole (Tree.tokensOf stack.trees ++ tokens) tree := by
  induction tokens generalizing stack with
  | nil =>
    rw [List.append_nil]
    exact finish_eq_ok hpath h
  | cons token tokens ih =>
    simp only [deriveFrom] at h
    cases hfeed : stack.feed token with
    | error stuck => simp [hfeed, Except.bind] at h
    | ok next =>
      simp only [hfeed, Except.bind] at h
      obtain ⟨hnext, hread⟩ := feed_eq_ok hpath (htokens token (by simp)) hfeed
      have hderives := ih hnext (fun token hmem => htokens token (by simp [hmem])) h
      simpa [hread] using hderives

theorem deriveFrom_reduce {stack next : Stack} {rule : Rule} {rest : List Token} (hpath : Stack.Path stack)
    (haction : action stack.state (lookahead rest) = .reduce rule)
    (hnext : reduce? stack rule = some next) : deriveFrom stack rest = deriveFrom next rest := by
  have hsettle := settle_reduce hpath haction hnext
  match rest with
  | [] =>
    simp only [lookahead] at hsettle
    simp only [deriveFrom, finish, hsettle]
  | token :: rest =>
    simp only [lookahead] at hsettle
    simp only [deriveFrom, feed, hsettle]

theorem deriveFrom_shift {stack : Stack} {token : Token} {target : Nat}
    (haction : action stack.state token.terminal = .shift target) (rest : List Token) :
    deriveFrom stack (token :: rest) = deriveFrom (⟨target, .leaf token⟩ :: stack) rest := by
  have hsettle := settle_shift haction
  simp [deriveFrom, feed, hsettle, Except.map, Except.bind]

/-- Reading the tokens of derivations of symbols that the state looks for puts these derivations on the stack. -/
theorem deriveFrom_forest {trees : List Tree} {symbols : List Symbol} (h : Forest trees symbols)
    {stack : Stack} {rest : List Token} (hpath : Stack.Path stack)
    {target : Nat} (hwalk : walk? stack.state symbols = some target)
    (hfits : Fits (lookahead rest) symbols) :
    ∃ top : Stack, top.trees = trees ∧ Stack.Path (top ++ stack) ∧ Stack.state (top ++ stack) = target ∧
      deriveFrom stack (Tree.tokensOf trees ++ rest) = deriveFrom (top ++ stack) rest := by
  induction h generalizing stack rest target with
  | nil =>
    refine ⟨[], rfl, hpath, ?_, rfl⟩
    simpa [walk?] using hwalk
  | @leaf trees symbols token _ ih =>
    simp only [walk?, Option.bind_eq_some_iff] at hwalk
    obtain ⟨place, hstep, hwalk⟩ := hwalk
    have hpush : Stack.Path (⟨place, .leaf token⟩ :: stack) := .push _ hpath hstep (.leaf token .nil)
    obtain ⟨top, htop, hpath, hstate, hderive⟩ := ih hpush hwalk hfits
    refine ⟨top ++ [⟨place, .leaf token⟩], ?_, ?_, ?_, ?_⟩
    · rw [trees_append, htop]
      rfl
    · simpa using hpath
    · simpa using hstate
    · have haction := action_shift_iff.mpr hstep
      have hshift := deriveFrom_shift haction (Tree.tokensOf trees ++ rest)
      simp only [Tree.tokensOf, Tree.tokens, List.cons_append, List.nil_append, List.append_assoc]
      rw [hshift, hderive]
  | @node children trees symbols rule hbody htrees ihbody ih =>
    simp only [walk?, Option.bind_eq_some_iff] at hwalk
    obtain ⟨place, hgoto, hwalk⟩ := hwalk
    obtain ⟨hfollow, hfits⟩ := hfits
    have hnext := hfollow _ (htrees.lookahead_mem rest)
    obtain ⟨last, hlast, hreduce⟩ := completes_of_goto hgoto
    -- First the tokens of the children, up to the state that completes the rule.
    have hfitsbody := rule.fits_body _ hnext
    obtain ⟨body, hchildren, hpathbody, hstatebody, hderivebody⟩ := ihbody hpath hlast hfitsbody
    have hlength : body.length = rule.body.length := by
      rw [← length_trees, hchildren, hbody.length_eq]
    have hreduced : reduce? (body ++ stack) rule = some (⟨place, .node rule children⟩ :: stack) := by
      have hgoto' : goto? stack.state rule.head = some place := hgoto
      rw [reduce_append hlength, hgoto', hchildren]
      rfl
    have haction : action (Stack.state (body ++ stack)) (lookahead (Tree.tokensOf trees ++ rest)) =
        .reduce rule := by
      rw [hstatebody]
      exact hreduce _ hnext
    have hderivereduced := deriveFrom_reduce hpathbody haction hreduced
    -- Then the phrase in their place, and the tokens behind it.
    have hpush : Stack.Path (⟨place, .node rule children⟩ :: stack) :=
      .push _ hpath hgoto (.node rule hbody .nil)
    obtain ⟨top, htop, hpathtop, hstatetop, hderivetop⟩ := ih hpush hwalk hfits
    refine ⟨top ++ [⟨place, .node rule children⟩], ?_, ?_, ?_, ?_⟩
    · rw [trees_append, htop]
      rfl
    · simpa using hpathtop
    · simpa using hstatetop
    · simp only [Tree.tokensOf, Tree.tokens, List.append_assoc, List.cons_append, List.nil_append]
      rw [hderivebody, hderivereduced, hderivetop]

theorem derive_complete {tokens : List Token} {tree : Tree} (h : Derives .whole tokens tree) :
    derive tokens = .ok tree := by
  obtain ⟨hforest, rfl⟩ := h
  have hwalk : walk? (Stack.state []) [.phrase .whole] = some accepting := by decide
  have hfits : Fits (lookahead []) [.phrase .whole] := by decide
  obtain ⟨top, htop, _, hstate, hderive⟩ := deriveFrom_forest hforest .empty hwalk hfits
  rw [List.append_nil, Tree.tokensOf_singleton, List.append_nil] at hderive
  rw [derive, hderive]
  rw [List.append_nil] at hstate
  have hlength : top.length = 1 := by
    rw [← length_trees, htop]
    rfl
  obtain ⟨frame, rfl⟩ := List.length_eq_one_iff.mp hlength
  have htree : frame.tree = tree := by simpa [Stack.trees] using htop
  have haction : action (Stack.state [frame]) .finish = .accept := by
    rw [hstate]
    decide
  have hreductions : reductions [frame] = 31 + 1 := rfl
  simp only [deriveFrom, finish, hreductions, settle, haction, Except.bind, htree]

/-- The automaton accepts what the grammar derives, by the one derivation that there is. -/
theorem derive_eq_ok {tokens : List Token} {tree : Tree}
    (htokens : ∀ token ∈ tokens, token.terminal ≠ .finish) :
    derive tokens = .ok tree ↔ Derives .whole tokens tree := by
  constructor
  · intro h
    exact deriveFrom_sound .empty htokens h
  · exact derive_complete

theorem Derives.unique {tokens : List Token} {tree tree' : Tree} (h : Derives .whole tokens tree)
    (h' : Derives .whole tokens tree') : tree = tree' := by
  have hderive := derive_complete h
  rw [derive_complete h'] at hderive
  exact (Except.ok.inj hderive).symm

end RoutineFlow.Expr
