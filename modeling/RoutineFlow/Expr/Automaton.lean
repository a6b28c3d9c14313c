import RoutineFlow.Expr.Grammar

/-!
The states of the expression language's shift-reduce automaton. The tables are plain data, so that
what holds of every state can be checked state by state.
-/

namespace RoutineFlow.Expr.Automaton

/-- A state: where each terminal and phrase leads, and the rule it completes before certain terminals. -/
structure State where
  shifts : List (Terminal × Nat)
  reduces : Option (Rule × List Terminal)
  gotos : List (Phrase × Nat)

/-- Shifts at the start of an operand of a sign. -/
def unaryStarts : List (Terminal × Nat) :=
  [(.bang, 1), (.falseWord, 2), (.openBrace, 3), (.openParen, 4), (.openBracket, 5), (.minus, 6),
    (.name, 7), (.nullWord, 9), (.numeral, 10), (.plus, 11), (.text, 12), (.trueWord, 13)]

def operandStarts : List (Terminal × Nat) :=
  (.notWord, 8) :: unaryStarts

def afterConditional : List Terminal :=
  [.finish, .colon, .comma, .closeBrace, .closeParen, .closeBracket]

def afterConjunction : List Terminal :=
  [.finish, .colon, .comma, .orWord, .question, .closeBrace, .closeParen, .closeBracket, .orSign]

def afterNegation : List Terminal :=
  [.finish, .andWord, .colon, .comma, .orWord, .question, .closeBrace, .closeParen, .closeBracket,
    .orSign, .andSign]

def afterSum : List Terminal :=
  [.finish, .andWord, .colon, .comma, .comparison, .orWord, .question, .closeBrace, .closeParen,
    .closeBracket, .orSign, .andSign]

def afterProduct : List Terminal :=
  [.finish, .andWord, .colon, .comma, .comparison, .minus, .orWord, .plus, .question, .closeBrace,
    .closeParen, .closeBracket, .orSign, .andSign]

def afterUnary : List Terminal :=
  [.finish, .andWord, .colon, .comma, .comparison, .minus, .product, .orWord, .plus, .question,
    .closeBrace, .closeParen, .closeBracket, .orSign, .andSign]

def afterAtom : List Terminal :=
  [.finish, .andWord, .colon, .comma, .comparison, .dot, .openBracket, .minus, .product, .orWord,
    .plus, .question, .closeBrace, .closeParen, .closeBracket, .orSign, .andSign]

def belowUnary : List (Phrase × Nat) :=
  [(.atom, 15), (.suffixed, 20)]

def belowProduct : List (Phrase × Nat) :=
  (.unary, 24) :: belowUnary

def belowSum : List (Phrase × Nat) :=
  (.product, 21) :: belowProduct

def belowComparison : List (Phrase × Nat) :=
  (.sum, 23) :: belowSum

def belowNegation : List (Phrase × Nat) :=
  (.comparison, 16) :: belowComparison

def belowConjunction : List (Phrase × Nat) :=
  (.negation, 18) :: belowNegation

def belowDisjunction : List (Phrase × Nat) :=
  (.conjunction, 14) :: belowConjunction

def belowConditional : List (Phrase × Nat) :=
  (.disjunction, 19) :: belowDisjunction

/-- The states in the order of their numbers; the first is the initial one. -/
def states : Array State :=
  #[⟨operandStarts, none, (.conditional, 17) :: (.whole, 22) :: belowConditional⟩,
    ⟨unaryStarts, none, (.unary, 25) :: belowUnary⟩,
    ⟨[], some (.falseWord, afterAtom), []⟩,
    ⟨[(.name, 26), (.closeBrace, 27), (.text, 28)], none, [(.entry, 29), (.entries, 30)]⟩,
    ⟨operandStarts, none, (.conditional, 31) :: belowConditional⟩,
    ⟨(.closeBracket, 32) :: operandStarts, none,
      (.arguments, 33) :: (.conditional, 34) :: belowConditional⟩,
    ⟨unaryStarts, none, (.unary, 35) :: belowUnary⟩,
    ⟨[(.openParen, 36)], some (.name, afterAtom), []⟩,
    ⟨operandStarts, none, (.negation, 37) :: belowNegation⟩,
    ⟨[], some (.nullWord, afterAtom), []⟩,
    ⟨[], some (.numeral, afterAtom), []⟩,
    ⟨unaryStarts, none, (.unary, 38) :: belowUnary⟩,
    ⟨[], some (.text, afterAtom), []⟩,
    ⟨[], some (.trueWord, afterAtom), []⟩,
    ⟨[(.andWord, 39), (.andSign, 40)], some (.plainDisjunction, afterConjunction), []⟩,
    ⟨[], some (.plainPostfix, afterAtom), []⟩,
    ⟨[(.comparison, 41)], some (.plainNegation, afterNegation), []⟩,
    ⟨[], some (.whole, [.finish]), []⟩,
    ⟨[], some (.plainConjunction, afterNegation), []⟩,
    ⟨[(.orWord, 42), (.question, 43), (.orSign, 44)], some (.plainConditional, afterConditional),
      []⟩,
    ⟨[(.dot, 45), (.openBracket, 46)], some (.plainUnary, afterUnary), []⟩,
    ⟨[(.product, 47)], some (.plainSum, afterProduct), []⟩,
    ⟨[], none, []⟩,
    ⟨[(.minus, 48), (.plus, 49)], some (.plainComparison, afterSum), []⟩,
    ⟨[], some (.plainProduct, afterUnary), []⟩,
    ⟨[], some (.bang, afterUnary), []⟩,
    ⟨[(.colon, 50)], none, []⟩,
    ⟨[], some (.emptyMap, afterAtom), []⟩,
    ⟨[(.colon, 51)], none, []⟩,
    ⟨[(.comma, 52)], some (.entry, [.closeBrace]), [(.moreEntries, 53)]⟩,
    ⟨[(.closeBrace, 54)], none, []⟩,
    ⟨[(.closeParen, 55)], none, []⟩,
    ⟨[], some (.emptyList, afterAtom), []⟩,
    ⟨[(.closeBracket, 56)], none, []⟩,
    ⟨[(.comma, 57)], some (.argument, [.closeParen, .closeBracket]), [(.moreArguments, 58)]⟩,
    ⟨[], some (.negative, afterUnary), []⟩,
    ⟨(.closeParen, 59) :: operandStarts, none,
      (.arguments, 60) :: (.conditional, 34) :: belowConditional⟩,
    ⟨[], some (.notWord, afterNegation), []⟩,
    ⟨[], some (.positive, afterUnary), []⟩,
    ⟨operandStarts, none, (.negation, 61) :: belowNegation⟩,
    ⟨operandStarts, none, (.negation, 62) :: belowNegation⟩,
    ⟨unaryStarts, none, (.sum, 63) :: belowSum⟩,
    ⟨operandStarts, none, (.conjunction, 64) :: belowConjunction⟩,
    ⟨operandStarts, none, (.conditional, 65) :: belowConditional⟩,
    ⟨operandStarts, none, (.conjunction, 66) :: belowConjunction⟩,
    ⟨[(.name, 67)], none, []⟩,
    ⟨operandStarts, none, (.conditional, 68) :: belowConditional⟩,
    ⟨unaryStarts, none, (.unary, 69) :: belowUnary⟩,
    ⟨unaryStarts, none, (.product, 70) :: belowProduct⟩,
    ⟨unaryStarts, none, (.product, 71) :: belowProduct⟩,
    ⟨operandStarts, none, (.conditional, 72) :: belowConditional⟩,
    ⟨operandStarts, none, (.conditional, 73) :: belowConditional⟩,
    ⟨[(.name, 26), (.text, 28)], some (.entryComma, [.closeBrace]), [(.entry, 74)]⟩,
    ⟨[(.comma, 75)], some (.entries, [.closeBrace]), []⟩,
    ⟨[], some (.map, afterAtom), []⟩,
    ⟨[], some (.group, afterAtom), []⟩,
    ⟨[], some (.list, afterAtom), []⟩,
    ⟨operandStarts, some (.argumentComma, [.closeParen, .closeBracket]),
      (.conditional, 76) :: belowConditional⟩,
    ⟨[(.comma, 77)], some (.arguments, [.closeParen, .closeBracket]), []⟩,
    ⟨[], some (.emptyCall, afterAtom), []⟩,
    ⟨[(.closeParen, 78)], none, []⟩,
    ⟨[], some (.andWord, afterNegation), []⟩,
    ⟨[], some (.andSign, afterNegation), []⟩,
    ⟨[(.minus, 48), (.plus, 49)], some (.comparison, afterSum), []⟩,
    ⟨[(.andWord, 39), (.andSign, 40)], some (.orWord, afterConjunction), []⟩,
    ⟨[(.colon, 79)], none, []⟩,
    ⟨[(.andWord, 39), (.andSign, 40)], some (.orSign, afterConjunction), []⟩,
    ⟨[], some (.member, afterAtom), []⟩,
    ⟨[(.closeBracket, 80)], none, []⟩,
    ⟨[], some (.product, afterUnary), []⟩,
    ⟨[(.product, 47)], some (.minus, afterProduct), []⟩,
    ⟨[(.product, 47)], some (.plus, afterProduct), []⟩,
    ⟨[], some (.nameEntry, [.comma, .closeBrace]), []⟩,
    ⟨[], some (.textEntry, [.comma, .closeBrace]), []⟩,
    ⟨[], some (.nextEntry, [.comma, .closeBrace]), []⟩,
    ⟨[(.name, 26), (.text, 28)], some (.entriesComma, [.closeBrace]), [(.entry, 81)]⟩,
    ⟨[], some (.nextArgument, [.comma, .closeParen, .closeBracket]), []⟩,
    ⟨operandStarts, some (.argumentsComma, [.closeParen, .closeBracket]),
      (.conditional, 82) :: belowConditional⟩,
    ⟨[], some (.call, afterAtom), []⟩,
    ⟨operandStarts, none, (.conditional, 83) :: belowConditional⟩,
    ⟨[], some (.index, afterAtom), []⟩,
    ⟨[], some (.laterEntry, [.comma, .closeBrace]), []⟩,
    ⟨[], some (.laterArgument, [.comma, .closeParen, .closeBracket]), []⟩,
    ⟨[], some (.conditional, afterConditional), []⟩]

def state (s : Nat) : State :=
  states.getD s ⟨[], none, []⟩

/-- The state reached by the whole expression. -/
def accepting : Nat := 22

inductive Action where
  | shift (target : Nat)
  | reduce (rule : Rule)
  | accept
  | refuse
  deriving DecidableEq, Repr

def action (s : Nat) (t : Terminal) : Action :=
  match (state s).shifts.lookup t with
  | some target => .shift target
  | none =>
    match (state s).reduces with
    | some (rule, before) => if before.contains t then .reduce rule else .refuse
    | none => if s = accepting ∧ t = .finish then .accept else .refuse

def goto? (s : Nat) (p : Phrase) : Option Nat :=
  (state s).gotos.lookup p

/-- The terminals with an action in a state. -/
def accepted (s : Nat) : List Terminal :=
  (state s).shifts.map (·.1) ++
    match (state s).reduces with
    | some (_, before) => before
    | none => []

end RoutineFlow.Expr.Automaton
