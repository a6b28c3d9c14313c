import RoutineFlow.Value.Order

namespace RoutineFlow

inductive UnaryOp where
  | not
  | negative
  | positive
  deriving DecidableEq, Repr

inductive BinaryOp where
  | add
  | subtract
  | multiply
  | divide
  | modulo
  | equal
  | notEqual
  | strictEqual
  | strictNotEqual
  | order (c : Comparison)
  deriving DecidableEq, Repr

inductive LogicalOp where
  | and
  | or
  deriving DecidableEq, Repr

namespace UnaryOp

def symbol : UnaryOp → String
  | .not => "!"
  | .negative => "-"
  | .positive => "+"

end UnaryOp

namespace BinaryOp

def symbol : BinaryOp → String
  | .add => "+"
  | .subtract => "-"
  | .multiply => "*"
  | .divide => "/"
  | .modulo => "%"
  | .equal => "=="
  | .notEqual => "!="
  | .strictEqual => "==="
  | .strictNotEqual => "!=="
  | .order c => c.symbol

def all : List BinaryOp :=
  [.add, .subtract, .multiply, .divide, .modulo, .equal, .notEqual, .strictEqual, .strictNotEqual,
    .order .lt, .order .le, .order .gt, .order .ge]

def ofSymbol? (s : String) : Option BinaryOp :=
  all.find? (·.symbol == s)

end BinaryOp

def LogicalOp.symbol : LogicalOp → String
  | .and => "&&"
  | .or => "||"

inductive Expr where
  | numeral (n : Number)
  | text (s : String)
  | boolean (b : Bool)
  | null
  | name (word : String)
  | member (target : Expr) (word : String)
  | index (target place : Expr)
  | call (word : String) (arguments : List Expr)
  | unary (op : UnaryOp) (operand : Expr)
  | binary (op : BinaryOp) (left right : Expr)
  | logical (op : LogicalOp) (left right : Expr)
  | conditional (test whenTrue whenFalse : Expr)
  | list (items : List Expr)
  | map (entries : List (String × Expr))

namespace Expr

def node (type : String) (fields : Mapping String Value) : Value :=
  .record (("type", .str type) :: fields)

mutual

/-- An expression as a document, a mapping at every node. -/
def toDocument : Expr → Value
  | .numeral n => node "Number" [("value", .num n)]
  | .text s => node "String" [("value", .str s)]
  | .boolean b => node "Boolean" [("value", .bool b)]
  | .null => node "Null" []
  | .name word => node "Name" [("name", .str word)]
  | .member target word => node "Member" [("target", toDocument target), ("name", .str word)]
  | .index target place =>
    node "IndexExpr" [("target", toDocument target), ("index", toDocument place)]
  | .call word arguments =>
    node "Call" [("name", .str word), ("args", .list (documents arguments))]
  | .unary op operand =>
    node "UnaryExpr" [("operator", .str op.symbol), ("operand", toDocument operand)]
  | .binary op left right =>
    node "BinaryExpr" [("operator", .str op.symbol), ("left", toDocument left),
      ("right", toDocument right)]
  | .logical op left right =>
    node "LogicalExpr" [("operator", .str op.symbol), ("left", toDocument left),
      ("right", toDocument right)]
  | .conditional test whenTrue whenFalse =>
    node "Conditional" [("test", toDocument test), ("then", toDocument whenTrue),
      ("else", toDocument whenFalse)]
  | .list items => node "ArrayLiteral" [("elements", .list (documents items))]
  | .map entries => node "MapLiteral" [("entries", .list (entryDocuments entries))]

def documents : List Expr → List Value
  | [] => []
  | e :: rest => toDocument e :: documents rest

def entryDocuments : List (String × Expr) → List Value
  | [] => []
  | (key, e) :: rest => .record [("key", .str key), ("value", toDocument e)] :: entryDocuments rest

end

end Expr

end RoutineFlow
