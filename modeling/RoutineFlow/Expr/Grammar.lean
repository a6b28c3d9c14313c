import RoutineFlow.Expr.Token

namespace RoutineFlow.Expr

/-- The phrases of the expression language, from the loosest binding to the tightest, then the lists. -/
inductive Phrase where
  | whole
  | conditional
  | disjunction
  | conjunction
  | negation
  | comparison
  | sum
  | product
  | unary
  | suffixed
  | atom
  | arguments
  | moreArguments
  | entries
  | moreEntries
  | entry
  deriving DecidableEq, Repr

inductive Symbol where
  | terminal (t : Terminal)
  | phrase (p : Phrase)
  deriving DecidableEq, Repr

/-- The rules of the grammar. -/
inductive Rule where
  | whole
  | plainConditional
  | conditional
  | plainDisjunction
  | orWord
  | orSign
  | plainConjunction
  | andWord
  | andSign
  | plainNegation
  | notWord
  | plainComparison
  | comparison
  | plainSum
  | plus
  | minus
  | plainProduct
  | product
  | plainUnary
  | bang
  | negative
  | positive
  | plainPostfix
  | member
  | index
  | numeral
  | text
  | trueWord
  | falseWord
  | nullWord
  | name
  | emptyCall
  | call
  | emptyList
  | list
  | emptyMap
  | map
  | group
  | argument
  | argumentComma
  | arguments
  | argumentsComma
  | nextArgument
  | laterArgument
  | entry
  | entryComma
  | entries
  | entriesComma
  | nextEntry
  | laterEntry
  | nameEntry
  | textEntry
  deriving DecidableEq, Repr

namespace Rule

def head : Rule → Phrase
  | whole => .whole
  | plainConditional | conditional => .conditional
  | plainDisjunction | orWord | orSign => .disjunction
  | plainConjunction | andWord | andSign => .conjunction
  | plainNegation | notWord => .negation
  | plainComparison | comparison => .comparison
  | plainSum | plus | minus => .sum
  | plainProduct | product => .product
  | plainUnary | bang | negative | positive => .unary
  | plainPostfix | member | index => .suffixed
  | numeral | text | trueWord | falseWord | nullWord | name | emptyCall | call | emptyList | list
  | emptyMap | map | group => .atom
  | argument | argumentComma | arguments | argumentsComma => .arguments
  | nextArgument | laterArgument => .moreArguments
  | entry | entryComma | entries | entriesComma => .entries
  | nextEntry | laterEntry => .moreEntries
  | nameEntry | textEntry => .entry

/-- What a rule makes its phrase from. -/
def body : Rule → List Symbol
  | whole => [.phrase .conditional]
  | plainConditional => [.phrase .disjunction]
  | conditional => [.phrase .disjunction, .terminal .question, .phrase .conditional,
      .terminal .colon, .phrase .conditional]
  | plainDisjunction => [.phrase .conjunction]
  | orWord => [.phrase .disjunction, .terminal .orWord, .phrase .conjunction]
  | orSign => [.phrase .disjunction, .terminal .orSign, .phrase .conjunction]
  | plainConjunction => [.phrase .negation]
  | andWord => [.phrase .conjunction, .terminal .andWord, .phrase .negation]
  | andSign => [.phrase .conjunction, .terminal .andSign, .phrase .negation]
  | plainNegation => [.phrase .comparison]
  | notWord => [.terminal .notWord, .phrase .negation]
  | plainComparison => [.phrase .sum]
  | comparison => [.phrase .comparison, .terminal .comparison, .phrase .sum]
  | plainSum => [.phrase .product]
  | plus => [.phrase .sum, .terminal .plus, .phrase .product]
  | minus => [.phrase .sum, .terminal .minus, .phrase .product]
  | plainProduct => [.phrase .unary]
  | product => [.phrase .product, .terminal .product, .phrase .unary]
  | plainUnary => [.phrase .suffixed]
  | bang => [.terminal .bang, .phrase .unary]
  | negative => [.terminal .minus, .phrase .unary]
  | positive => [.terminal .plus, .phrase .unary]
  | plainPostfix => [.phrase .atom]
  | member => [.phrase .suffixed, .terminal .dot, .terminal .name]
  | index => [.phrase .suffixed, .terminal .openBracket, .phrase .conditional,
      .terminal .closeBracket]
  | numeral => [.terminal .numeral]
  | text => [.terminal .text]
  | trueWord => [.terminal .trueWord]
  | falseWord => [.terminal .falseWord]
  | nullWord => [.terminal .nullWord]
  | name => [.terminal .name]
  | emptyCall => [.terminal .name, .terminal .openParen, .terminal .closeParen]
  | call => [.terminal .name, .terminal .openParen, .phrase .arguments, .terminal .closeParen]
  | emptyList => [.terminal .openBracket, .terminal .closeBracket]
  | list => [.terminal .openBracket, .phrase .arguments, .terminal .closeBracket]
  | emptyMap => [.terminal .openBrace, .terminal .closeBrace]
  | map => [.terminal .openBrace, .phrase .entries, .terminal .closeBrace]
  | group => [.terminal .openParen, .phrase .conditional, .terminal .closeParen]
  | argument => [.phrase .conditional]
  | argumentComma => [.phrase .conditional, .terminal .comma]
  | arguments => [.phrase .conditional, .phrase .moreArguments]
  | argumentsComma => [.phrase .conditional, .phrase .moreArguments, .terminal .comma]
  | nextArgument => [.terminal .comma, .phrase .conditional]
  | laterArgument => [.phrase .moreArguments, .terminal .comma, .phrase .conditional]
  | entry => [.phrase .entry]
  | entryComma => [.phrase .entry, .terminal .comma]
  | entries => [.phrase .entry, .phrase .moreEntries]
  | entriesComma => [.phrase .entry, .phrase .moreEntries, .terminal .comma]
  | nextEntry => [.terminal .comma, .phrase .entry]
  | laterEntry => [.phrase .moreEntries, .terminal .comma, .phrase .entry]
  | nameEntry => [.terminal .name, .terminal .colon, .phrase .conditional]
  | textEntry => [.terminal .text, .terminal .colon, .phrase .conditional]

end Rule

/-- A derivation: tokens at the leaves, a rule at every node. -/
inductive Tree where
  | leaf (token : Token)
  | node (rule : Rule) (children : List Tree)

namespace Tree

def symbol : Tree → Symbol
  | .leaf token => .terminal token.terminal
  | .node rule _ => .phrase rule.head

mutual

def tokens : Tree → List Token
  | .leaf token => [token]
  | .node _ children => tokensOf children

def tokensOf : List Tree → List Token
  | [] => []
  | t :: rest => tokens t ++ tokensOf rest

end

end Tree

end RoutineFlow.Expr
