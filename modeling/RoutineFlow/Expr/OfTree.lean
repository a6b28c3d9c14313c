import RoutineFlow.Expr.Grammar
import RoutineFlow.Expr.Literal
import RoutineFlow.Expr.Syntax

namespace RoutineFlow.Expr

open Literal (Problem)

def operator (sign : List Char) : BinaryOp :=
  (BinaryOp.ofSymbol? (String.ofList sign)).getD .add

def keyText (token : Token) : String :=
  String.ofList token.text

mutual

/-- The expression that a derivation stands for. Parentheses, and rules that only pass a phrase on, leave no
trace. -/
def ofTree [CharNames] : Tree → Except Problem Expr
  | .node .conditional [test, _, whenTrue, _, whenFalse] => do
    return .conditional (← ofTree test) (← ofTree whenTrue) (← ofTree whenFalse)
  | .node .orWord [left, _, right] => do return .logical .or (← ofTree left) (← ofTree right)
  | .node .orSign [left, _, right] => do return .logical .or (← ofTree left) (← ofTree right)
  | .node .andWord [left, _, right] => do return .logical .and (← ofTree left) (← ofTree right)
  | .node .andSign [left, _, right] => do return .logical .and (← ofTree left) (← ofTree right)
  | .node .notWord [_, operand] => do return .unary .not (← ofTree operand)
  | .node .comparison [left, .leaf sign, right] => do
    return .binary (operator sign.text) (← ofTree left) (← ofTree right)
  | .node .plus [left, _, right] => do return .binary .add (← ofTree left) (← ofTree right)
  | .node .minus [left, _, right] => do return .binary .subtract (← ofTree left) (← ofTree right)
  | .node .product [left, .leaf sign, right] => do
    return .binary (operator sign.text) (← ofTree left) (← ofTree right)
  | .node .bang [_, operand] => do return .unary .not (← ofTree operand)
  | .node .negative [_, operand] => do return .unary .negative (← ofTree operand)
  | .node .positive [_, operand] => do return .unary .positive (← ofTree operand)
  | .node .member [target, _, .leaf word] => do return .member (← ofTree target) (keyText word)
  | .node .index [target, _, place, _] => do return .index (← ofTree target) (← ofTree place)
  | .node .numeral [.leaf token] => (Literal.number token.text).map .numeral
  | .node .text [.leaf token] => (Literal.text token.text).map fun cs => .text (String.ofList cs)
  | .node .trueWord _ => .ok (.boolean true)
  | .node .falseWord _ => .ok (.boolean false)
  | .node .nullWord _ => .ok .null
  | .node .name [.leaf token] => .ok (.name (keyText token))
  | .node .emptyCall [.leaf word, _, _] => .ok (.call (keyText word) [])
  | .node .call [.leaf word, _, arguments, _] => do
    return .call (keyText word) (← argumentsOfTree arguments)
  | .node .emptyList _ => .ok (.list [])
  | .node .list [_, items, _] => do return .list (← argumentsOfTree items)
  | .node .emptyMap _ => .ok (.map [])
  | .node .map [_, entries, _] => do return .map (← entriesOfTree entries)
  | .node .group [_, inner, _] => ofTree inner
  | .node _ [inner] => ofTree inner
  | _ => .ok .null

def argumentsOfTree [CharNames] : Tree → Except Problem (List Expr)
  | .node .argument [first] => do return [← ofTree first]
  | .node .argumentComma [first, _] => do return [← ofTree first]
  | .node .arguments [first, more] => do return (← ofTree first) :: (← argumentsOfTree more)
  | .node .argumentsComma [first, more, _] => do
    return (← ofTree first) :: (← argumentsOfTree more)
  | .node .nextArgument [_, last] => do return [← ofTree last]
  | .node .laterArgument [more, _, last] => do
    return (← argumentsOfTree more) ++ [← ofTree last]
  | _ => .ok []

def entriesOfTree [CharNames] : Tree → Except Problem (List (String × Expr))
  | .node .entry [first] => do return [← entryOfTree first]
  | .node .entryComma [first, _] => do return [← entryOfTree first]
  | .node .entries [first, more] => do return (← entryOfTree first) :: (← entriesOfTree more)
  | .node .entriesComma [first, more, _] => do
    return (← entryOfTree first) :: (← entriesOfTree more)
  | .node .nextEntry [_, last] => do return [← entryOfTree last]
  | .node .laterEntry [more, _, last] => do
    return (← entriesOfTree more) ++ [← entryOfTree last]
  | _ => .ok []

def entryOfTree [CharNames] : Tree → Except Problem (String × Expr)
  | .node .nameEntry [.leaf key, _, value] => do return (keyText key, ← ofTree value)
  | .node .textEntry [.leaf key, _, value] => do
    return (String.ofList (← Literal.text key.text), ← ofTree value)
  | _ => .ok ("", .null)

end

end RoutineFlow.Expr
