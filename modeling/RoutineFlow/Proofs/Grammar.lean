import RoutineFlow.Expr.Grammar

namespace RoutineFlow.Expr

/-- Derivations side by side, one for each symbol. -/
inductive Forest : List Tree → List Symbol → Prop
  | nil : Forest [] []
  | leaf {trees : List Tree} {symbols : List Symbol} (token : Token) :
      Forest trees symbols → Forest (.leaf token :: trees) (.terminal token.terminal :: symbols)
  | node {children trees : List Tree} {symbols : List Symbol} (rule : Rule) :
      Forest children rule.body → Forest trees symbols →
        Forest (.node rule children :: trees) (.phrase rule.head :: symbols)

/-- The tree derives the tokens from the phrase. -/
def Derives (phrase : Phrase) (tokens : List Token) (tree : Tree) : Prop :=
  Forest [tree] [.phrase phrase] ∧ tree.tokens = tokens

namespace Tree

theorem tokensOf_append (left right : List Tree) :
    tokensOf (left ++ right) = tokensOf left ++ tokensOf right := by
  induction left with
  | nil => rfl
  | cons tree left ih => simp [tokensOf, ih]

theorem tokensOf_singleton (tree : Tree) : tokensOf [tree] = tree.tokens := by
  simp [tokensOf]

@[simp] theorem symbol_node (rule : Rule) (children : List Tree) :
    (node rule children).symbol = .phrase rule.head :=
  rfl

theorem tokens_leaf (token : Token) : (leaf token).tokens = [token] := by
  simp [tokens]

theorem tokens_node (rule : Rule) (children : List Tree) :
    (node rule children).tokens = tokensOf children := by
  simp [tokens]

end Tree

namespace Forest

variable {trees trees' : List Tree} {symbols symbols' : List Symbol}

theorem append (h : Forest trees symbols) (h' : Forest trees' symbols') :
    Forest (trees ++ trees') (symbols ++ symbols') := by
  induction h with
  | nil => exact h'
  | leaf token _ ih => exact .leaf token ih
  | node rule hbody _ _ ih => exact .node rule hbody ih

theorem length_eq (h : Forest trees symbols) : trees.length = symbols.length := by
  induction h with
  | nil => rfl
  | leaf _ _ ih => simp [ih]
  | node _ _ _ _ ih => simp [ih]

theorem cons {tree : Tree} {X : Symbol} (h : Forest [tree] [X]) (hrest : Forest trees symbols) :
    Forest (tree :: trees) (X :: symbols) :=
  h.append hrest

theorem symbol_eq {tree : Tree} {X : Symbol} (h : Forest [tree] [X]) : tree.symbol = X := by
  cases h <;> rfl

end Forest

/-- The terminal at which a rest of the tokens begins. -/
def lookahead : List Token → Terminal
  | [] => .finish
  | token :: _ => token.terminal

namespace Phrase

/-- Terminals that begin an operand of a sign. -/
def signedOperand : List Terminal :=
  [.bang, .falseWord, .openBrace, .openParen, .openBracket, .minus, .name, .nullWord, .numeral,
    .plus, .text, .trueWord]

/-- Terminals among which are all that can begin a phrase. -/
def first : Phrase → List Terminal
  | .comparison | .sum | .product | .unary | .suffixed | .atom => signedOperand
  | .moreArguments | .moreEntries => [.comma]
  | .entries | .entry => [.name, .text]
  | .whole | .conditional | .disjunction | .conjunction | .negation | .arguments =>
    .notWord :: signedOperand

end Phrase

/-- Terminals among which are all that can begin the symbols, with `after` behind them. -/
def starts (after : Terminal) : List Symbol → List Terminal
  | [] => [after]
  | .terminal t :: _ => [t]
  | .phrase p :: _ => p.first

theorem Rule.starts_body_subset (rule : Rule) (after : Terminal) :
    ∀ t ∈ starts after rule.body, t ∈ rule.head.first := by
  cases rule <;> simp [starts, Rule.body, Rule.head, Phrase.first, Phrase.signedOperand]

theorem Rule.body_ne_nil (rule : Rule) : rule.body ≠ [] := by
  cases rule <;> simp [Rule.body]

theorem Forest.lookahead_mem {trees : List Tree} {symbols : List Symbol} (h : Forest trees symbols)
    (rest : List Token) :
    lookahead (Tree.tokensOf trees ++ rest) ∈ starts (lookahead rest) symbols := by
  induction h generalizing rest with
  | nil => simp [Tree.tokensOf, starts]
  | leaf token _ _ => simp [Tree.tokensOf, Tree.tokens, lookahead, starts]
  | @node children trees symbols rule _ _ ihbody _ =>
    have h := ihbody (Tree.tokensOf trees ++ rest)
    have h := rule.starts_body_subset _ _ h
    simpa [Tree.tokensOf, Tree.tokens, starts] using h

end RoutineFlow.Expr
