import RoutineFlow.Proofs.Portability

/-!
Whatever has been read so far can be completed. In every state some rule that was begun can be finished with names and
closing signs, which makes the stack smaller.
-/

namespace RoutineFlow.Expr

namespace Symbol

/-- The terminals that any rule can be finished with. -/
def fillers : List Terminal :=
  [.name, .colon, .closeParen, .closeBracket, .closeBrace]

/-- The terminal that stands for a symbol, for a phrase that of a name. -/
def filler : Symbol → Terminal
  | .terminal t => t
  | .phrase _ => .name

/-- Whether the symbol can be filled in by a single token. -/
def Filled : Symbol → Prop
  | .terminal t => t ∈ fillers
  | .phrase p => p ∈ [.whole, .conditional, .conjunction, .negation, .sum, .product, .unary]

instance (X : Symbol) : Decidable X.Filled := by
  unfold Filled
  cases X <;> infer_instance

theorem Filled.filler_mem {X : Symbol} (h : X.Filled) : X.filler ∈ fillers := by
  cases X with
  | terminal t => exact h
  | phrase p => simp [filler, fillers]

end Symbol

namespace Automaton

def phrases : List Phrase :=
  [.whole, .conditional, .disjunction, .conjunction, .negation, .comparison, .sum, .product, .unary, .suffixed, .atom,
    .arguments, .moreArguments, .entries, .moreEntries, .entry]

/-- In the state the first `k` symbols of the rule have been read, and the others can be filled in. The phrase of the rule is
looser than a symbol that it replaces alone. -/
def Finishes (s : Nat) (rule : Rule) (k : Nat) : Prop :=
  (∀ X ∈ rule.body.drop k, X.Filled) ∧
    (∀ X ∈ rule.body.take k, k = 1 → (Symbol.phrase rule.head).rank < X.rank) ∧
    (∀ t ∈ rule.head.follow, (walk? s (rule.body.drop k)).map (action · t) = some (.reduce rule)) ∧
    enters (rule.body.take k).reverse s = true

instance (s : Nat) (rule : Rule) (k : Nat) : Decidable (Finishes s rule k) := by
  unfold Finishes
  infer_instance

theorem finishes_all : (List.range states.size).all (fun s => s == 0 || s == accepting || (reading? s).any fun (rule, k) =>
    decide (0 < k ∧ k ≤ rule.body.length) && (rule.body.drop k).all (fun X => decide X.Filled) &&
    (rule.body.take k).all (fun X => k != 1 || decide ((Symbol.phrase rule.head).rank < X.rank)) &&
    rule.head.follow.all fun t => (walk? s (rule.body.drop k)).map (action · t) == some (.reduce rule)) = true := by
  decide

theorem closed_all : (List.range states.size).all (fun s => phrases.all fun p => p.rules.all fun rule =>
    match walk? s rule.body with
    | some last => (state last).reduces.all fun (completed, _) => completed != rule || (goto? s rule.head).isSome
    | none => true) = true := by
  decide

theorem follow_all : (List.range states.size).all (fun s => (state s).gotos.all fun (p, target) =>
    (accepted target).all (p.follow.contains ·) && (action target .finish == .refuse || p.follow.contains .finish)) =
      true := by
  decide

theorem targets_all : (List.range states.size).all (fun s =>
    (steps s).all fun (_, target) => decide (target < states.size)) = true := by
  decide

variable {s target : Nat}

theorem lt_of_target {X : Symbol} (h : step? s X = some target) : target < states.size := by
  have hall := List.all_eq_true.mp targets_all s (List.mem_range.mpr (lt_of_step h))
  simpa using List.all_eq_true.mp hall _ (mem_steps h)

theorem exists_finishes (hs : s < states.size) (hne : s ≠ 0) (haccepting : s ≠ accepting) :
    ∃ rule k, 0 < k ∧ k ≤ rule.body.length ∧ Finishes s rule k := by
  have hall := List.all_eq_true.mp finishes_all s (List.mem_range.mpr hs)
  simp only [Bool.or_eq_true, beq_iff_eq, hne, haccepting, false_or] at hall
  obtain ⟨⟨rule, k⟩, hreading, hfinishes⟩ := (Option.any_eq_true _ _).mp hall
  simp only [Bool.and_eq_true, decide_eq_true_eq, List.all_eq_true, Bool.or_eq_true, bne_iff_ne, beq_iff_eq]
    at hfinishes
  obtain ⟨⟨⟨⟨hpos, hk⟩, hfilled⟩, hrank⟩, hreduces⟩ := hfinishes
  have henters : enters (rule.body.take k).reverse s = true := by
    apply enters_of_spelled
    rw [spelled, hreading]
  exact ⟨rule, k, hpos, hk, hfilled, fun X hX hone => (hrank X hX).resolve_left (not_not_intro hone), hreduces, henters⟩

theorem lt_of_walk {symbols : List Symbol} (hne : symbols ≠ []) (h : walk? s symbols = some target) :
    s < states.size := by
  obtain ⟨X, rest, rfl⟩ := List.exists_cons_of_ne_nil hne
  obtain ⟨next, hstep, -⟩ := Option.bind_eq_some_iff.mp h
  exact lt_of_step hstep

/-- Where the body of a rule leads to its completion, its phrase leads on. -/
theorem goto_of_walk {rule : Rule} {last : Nat} {before : List Terminal} (hwalk : walk? s rule.body = some last)
    (hreduces : (state last).reduces = some (rule, before)) : ∃ target, goto? s rule.head = some target := by
  have hs := lt_of_walk rule.body_ne_nil hwalk
  have hall := List.all_eq_true.mp closed_all s (List.mem_range.mpr hs)
  have hphrase : rule.head ∈ phrases := by cases rule.head <;> decide
  have hrule := List.all_eq_true.mp (List.all_eq_true.mp hall _ hphrase) rule rule.mem_rules
  apply Option.isSome_iff_exists.mp
  simpa [hwalk, hreduces] using hrule

theorem walk?_append (s : Nat) (symbols symbols' : List Symbol) :
    walk? s (symbols ++ symbols') = (walk? s symbols).bind fun target => walk? target symbols' := by
  induction symbols generalizing s with
  | nil => rfl
  | cons X symbols ih =>
    rw [List.cons_append, walk?, walk?]
    cases step? s X with
    | none => rfl
    | some target => exact ih target

theorem mem_follow {p : Phrase} {t : Terminal} (hgoto : goto? s p = some target) (h : action target t ≠ .refuse) :
    t ∈ p.follow := by
  have hall := List.all_eq_true.mp follow_all s (List.mem_range.mpr (lt_of_step (X := .phrase p) hgoto))
  have hentry := List.all_eq_true.mp hall _ (mem_of_lookup hgoto)
  simp only [Bool.and_eq_true, List.all_eq_true, List.contains_iff_mem, Bool.or_eq_true, beq_iff_eq] at hentry
  by_cases ht : t = .finish
  · subst ht
    exact hentry.2.resolve_left h
  · exact hentry.1 t (mem_accepted ht h)

end Automaton

open Automaton

theorem Fits.drop {after : Terminal} {symbols : List Symbol} (h : Fits after symbols) (k : Nat) :
    Fits after (symbols.drop k) := by
  induction symbols generalizing k with
  | nil =>
    rw [List.drop_nil]
    exact h
  | cons X symbols ih =>
    cases k with
    | zero => exact h
    | succ k =>
      rw [List.drop_succ_cons]
      cases X with
      | terminal t => exact ih h k
      | phrase p => exact ih h.2 k

theorem Forest.symbols_eq {trees : List Tree} {symbols : List Symbol} (h : Forest trees symbols) :
    trees.map Tree.symbol = symbols := by
  induction h with
  | nil => rfl
  | leaf token _ ih => rw [List.map_cons, ih]; rfl
  | node rule _ _ _ ih => rw [List.map_cons, ih]; rfl

theorem Symbol.Filled.exists_spells [CharNames] {p : Phrase} (h : (Symbol.phrase p).Filled) {token : Token}
    (htoken : token.terminal = .name) : ∃ e, Spells p [token] e := by
  have hname : Spells .atom [token] (.name (keyText token)) := .name htoken
  simp only [Symbol.Filled, List.mem_cons, List.not_mem_nil, or_false] at h
  obtain rfl | rfl | rfl | rfl | rfl | rfl | rfl := h
  · exact ⟨_, hname.loosen 10 rfl⟩
  · exact ⟨_, hname.loosen 9 rfl⟩
  · exact ⟨_, hname.loosen 7 rfl⟩
  · exact ⟨_, hname.loosen 6 rfl⟩
  · exact ⟨_, hname.loosen 4 rfl⟩
  · exact ⟨_, hname.loosen 3 rfl⟩
  · exact ⟨_, hname.loosen 2 rfl⟩

theorem exists_filling {symbols : List Symbol} (h : ∀ X ∈ symbols, X.Filled) {tokens : List Token}
    (htokens : tokens.map (·.terminal) = symbols.map Symbol.filler) :
    ∃ trees, Forest trees symbols ∧ Tree.tokensOf trees = tokens := by
  induction symbols generalizing tokens with
  | nil =>
    obtain rfl := List.map_eq_nil_iff.mp htokens
    exact ⟨[], .nil, rfl⟩
  | cons X symbols ih =>
    obtain ⟨hX, hsymbols⟩ := List.forall_mem_cons.mp h
    obtain ⟨token, rest, rfl, htoken, hrest⟩ := List.map_eq_cons_iff.mp htokens
    obtain ⟨trees, hforest, rfl⟩ := ih hsymbols hrest
    cases X with
    | terminal t =>
      obtain rfl : token.terminal = t := htoken
      exact ⟨.leaf token :: trees, .leaf token hforest, by simp [Tree.tokensOf, Tree.tokens]⟩
    | phrase p =>
      obtain ⟨e, hspells⟩ := hX.exists_spells htoken
      obtain ⟨tree, ⟨htree, htreetokens⟩, -⟩ := hspells.derived
      exact ⟨tree :: trees, htree.cons hforest, by simp [Tree.tokensOf, htreetokens]⟩

theorem Phrase.follow_ne_nil (p : Phrase) : p.follow ≠ [] := by
  cases p <;> nofun

namespace Stack

variable {stack top rest : Stack} {k : Nat}

theorem Path.walk (h : Path (top ++ rest)) :
    walk? rest.state (top.trees.map Tree.symbol) = some (state (top ++ rest)) := by
  induction top with
  | nil => rfl
  | cons frame top ih =>
    cases h with
    | push X hpath hstep htree =>
      have hstep : step? (state (top ++ rest)) X = some frame.state := hstep
      rw [trees_cons, List.map_append, walk?_append, ih hpath, Option.bind_some, List.map_singleton, htree.symbol_eq,
        walk?, hstep]
      rfl

theorem Path.state_lt (h : Path stack) (hne : stack.state ≠ 0) : stack.state < Automaton.states.size := by
  cases h with
  | empty => exact absurd rfl hne
  | push X _ hstep _ => exact lt_of_target hstep

theorem action_ne_refuse {tokens : List Token} {tree : Tree} (h : deriveFrom stack tokens = .ok tree) :
    Automaton.action stack.state (lookahead tokens) ≠ .refuse := by
  intro hrefuse
  cases tokens with
  | nil =>
    rw [lookahead] at hrefuse
    simp [deriveFrom, finish, reductions, Nat.mul_add, settle, hrefuse, Except.bind] at h
  | cons token tokens =>
    rw [lookahead] at hrefuse
    simp [deriveFrom, feed, reductions, Nat.mul_add, settle, hrefuse, Except.map, Except.bind] at h

theorem Path.exists_target {rule : Rule} (h : Path (top ++ rest)) (hforest : Forest top.trees (rule.body.take k))
    (hreduces : ∀ t ∈ rule.head.follow,
      (walk? (state (top ++ rest)) (rule.body.drop k)).map (Automaton.action · t) = some (.reduce rule)) :
    ∃ last target, walk? (state (top ++ rest)) (rule.body.drop k) = some last ∧
      (∀ t ∈ rule.head.follow, Automaton.action last t = .reduce rule) ∧ goto? rest.state rule.head = some target := by
  obtain ⟨t, ht⟩ := List.exists_mem_of_ne_nil _ rule.head.follow_ne_nil
  obtain ⟨last, hlast, haction⟩ := Option.map_eq_some_iff.mp (hreduces t ht)
  have hwalk : walk? rest.state rule.body = some last := by
    have htop := h.walk
    rw [hforest.symbols_eq] at htop
    rw [← List.take_append_drop k rule.body, walk?_append, htop, Option.bind_some, hlast]
  obtain ⟨before, hbefore⟩ := reduces_of_action haction
  obtain ⟨target, hgoto⟩ := goto_of_walk hwalk hbefore
  exact ⟨last, target, hlast, fun t ht => by simpa [hlast] using hreduces t ht, hgoto⟩

/-- A frame in place of several, or of one with a tighter symbol, makes the stack lighter. -/
theorem weight_lt {frame : Frame} (hne : top ≠ [])
    (h : ∀ X ∈ top.trees.map Tree.symbol, top.length = 1 → frame.tree.symbol.rank < X.rank) :
    weight (frame :: rest) < weight (top ++ rest) := by
  have hrank := frame.tree.symbol.rank_lt
  cases top with
  | nil => exact absurd rfl hne
  | cons first top =>
    simp only [weight, List.cons_append, List.length_append]
    cases top with
    | nil =>
      have hlower := h first.tree.symbol (List.mem_singleton_self _) rfl
      simp only [List.length_nil]
      omega
    | cons second top =>
      simp only [List.length_cons]
      omega

/-- Tokens for the symbols of a rule that have not been read put its phrase in place of those that have. -/
theorem Path.finish_rule {rule : Rule} {tokens : List Token} (h : Path stack) (hpos : 0 < k)
    (hk : k ≤ rule.body.length) (hfinishes : Finishes stack.state rule k)
    (htokens : tokens.map (·.terminal) = (rule.body.drop k).map Symbol.filler) :
    ∃ next target, Path next ∧ next.states = target :: stack.states.drop k ∧
      goto? (Automaton.top (stack.states.drop k)) rule.head = some target ∧ next.weight < stack.weight ∧
        ∀ tail, lookahead tail ∈ rule.head.follow → deriveFrom stack (tokens ++ tail) = deriveFrom next tail := by
  obtain ⟨hfilled, hrank, hreduces, henters⟩ := hfinishes
  obtain ⟨top, rest, rfl, hrest, hforest⟩ := h.split henters
  rw [List.reverse_reverse] at hforest
  have hlength : top.length = k := by
    rw [← length_trees, hforest.length_eq, List.length_take, Nat.min_eq_left hk]
  have hstates : (top ++ rest).states.drop k = rest.states := by
    rw [states, List.map_append, ← hlength, ← List.length_map]
    exact List.drop_left
  obtain ⟨last, target, hlast, hreduces, hgoto⟩ := h.exists_target hforest hreduces
  obtain ⟨children, hchildren, rfl⟩ := exists_filling hfilled htokens
  have hbody : Forest (trees top ++ children) rule.body := by
    rw [← List.take_append_drop k rule.body]
    exact hforest.append hchildren
  refine ⟨⟨target, .node rule (trees top ++ children)⟩ :: rest, target,
    .push (.phrase rule.head) hrest hgoto (.node rule hbody .nil), ?_, ?_, ?_, ?_⟩
  · rw [hstates]
    rfl
  · rw [hstates, top_states]
    exact hgoto
  · apply weight_lt
    · rintro rfl
      exact hpos.ne hlength
    · rw [hforest.symbols_eq, hlength]
      exact hrank
  · intro tail htail
    obtain ⟨filled, hfilled, hpath, hstate, hderive⟩ :=
      deriveFrom_forest hchildren h hlast ((rule.fits_body _ htail).drop k)
    rw [hderive]
    apply deriveFrom_reduce hpath
    · rw [hstate]
      exact hreduces _ htail
    · have hall : (filled ++ top).length = rule.body.length := by
        rw [List.length_append, hlength, ← length_trees, hfilled, hchildren.length_eq, List.length_drop]
        omega
      rw [← List.append_assoc, reduce_append hall, hgoto, trees_append, hfilled]
      rfl

/-- Any tokens of some terminals that rules can be finished with complete what led to the states. -/
def Completable (entered : List Nat) : Prop :=
  ∃ ts, (∀ t ∈ ts, t ∈ Symbol.fillers) ∧ ∀ stack : Stack, Path stack → stack.states = entered →
    ∀ tokens : List Token, tokens.map (·.terminal) = ts → ∃ tree, deriveFrom stack tokens = .ok tree

theorem completable_nil : Completable [] := by
  refine ⟨[.name], by simp [Symbol.fillers], fun stack hpath hstates tokens htokens => ?_⟩
  obtain rfl := List.map_eq_nil_iff.mp hstates
  obtain ⟨trees, hforest, rfl⟩ := @exists_filling [.phrase .whole] (by decide) tokens htokens
  obtain ⟨tree, rfl⟩ := List.length_eq_one_iff.mp hforest.length_eq
  exact ⟨tree, derive_complete ⟨hforest, (Tree.tokensOf_singleton tree).symm⟩⟩

theorem completable_of_accepting {entered : List Nat} (h : Automaton.top entered = accepting) : Completable entered := by
  refine ⟨[], by simp, fun stack hpath hstates tokens htokens => ?_⟩
  obtain rfl := List.map_eq_nil_iff.mp htokens
  cases stack with
  | nil =>
    rw [← hstates] at h
    cases h
  | cons frame rest =>
    have haction : Automaton.action (state (frame :: rest)) .finish = .accept := by
      rw [← top_states, hstates, h]
      decide
    refine ⟨frame.tree, ?_⟩
    simp [deriveFrom, finish, reductions, Nat.mul_add, settle, haction, Except.bind]

theorem Path.completable (h : Path stack) : Completable stack.states := by
  -- each rule that is finished makes the stack lighter
  induction hn : stack.weight using Nat.strong_induction_on generalizing stack with
  | _ n ih =>
    by_cases hzero : stack.state = 0
    · rw [h.eq_nil hzero]
      exact completable_nil
    by_cases haccepting : stack.state = accepting
    · exact completable_of_accepting (by rw [top_states, haccepting])
    obtain ⟨rule, k, hpos, hk, hfinishes⟩ := exists_finishes (h.state_lt hzero) hzero haccepting
    -- the states that the rule leads to are the same whatever tokens finish it
    have hsample : (((rule.body.drop k).map Symbol.filler).map fun t => (⟨t, [], .start⟩ : Token)).map (·.terminal) =
        (rule.body.drop k).map Symbol.filler := by
      rw [List.map_map]
      exact List.map_id _
    obtain ⟨next, target, hnext, hstates, hgoto, hweight, -⟩ := h.finish_rule hpos hk hfinishes hsample
    obtain ⟨ts, hts, hcomplete⟩ := ih _ (hn ▸ hweight) hnext rfl
    refine ⟨(rule.body.drop k).map Symbol.filler ++ ts, ?_, fun stack' hpath' hstates' tokens htokens => ?_⟩
    · intro t ht
      obtain ht | ht := List.mem_append.mp ht
      · obtain ⟨X, hX, rfl⟩ := List.mem_map.mp ht
        exact (hfinishes.1 X hX).filler_mem
      · exact hts t ht
    · obtain ⟨first, tail, rfl, hfirst, htail⟩ := List.map_eq_append_iff.mp htokens
      have hstate : stack'.state = stack.state := by rw [← top_states, hstates', top_states]
      rw [← hstate] at hfinishes
      obtain ⟨next', target', hnext', hnextstates, hgoto', -, hderive⟩ := hpath'.finish_rule hpos hk hfinishes hfirst
      rw [hstates'] at hgoto' hnextstates
      obtain rfl : target' = target := Option.some.inj (hgoto'.symm.trans hgoto)
      obtain ⟨tree, htree⟩ := hcomplete next' hnext' (hnextstates.trans hstates.symm) tail htail
      refine ⟨tree, ?_⟩
      rw [hderive tail ?_, htree]
      have haction := action_ne_refuse htree
      rw [← top_states, hnextstates] at haction
      exact mem_follow hgoto' haction

end Stack

end RoutineFlow.Expr
