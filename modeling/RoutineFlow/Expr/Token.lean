import RoutineFlow.Text.Position

namespace RoutineFlow.Expr

inductive Terminal where
  | numeral
  | name
  | text
  | orWord
  | andWord
  | notWord
  | trueWord
  | falseWord
  | nullWord
  | comparison
  | product
  | plus
  | minus
  | bang
  | question
  | colon
  | comma
  | dot
  | openParen
  | closeParen
  | openBracket
  | closeBracket
  | openBrace
  | closeBrace
  | orSign
  | andSign
  | finish
  deriving DecidableEq, Repr

namespace Terminal

def label : Terminal → String
  | .numeral => "NUMBER"
  | .name => "NAME"
  | .text => "STRING"
  | .orWord => "OR"
  | .andWord => "AND"
  | .notWord => "NOT"
  | .trueWord => "TRUE"
  | .falseWord => "FALSE"
  | .nullWord => "NULL"
  | .comparison => "COMP_OP"
  | .product => "MUL_OP"
  | .plus => "PLUS"
  | .minus => "MINUS"
  | .bang => "BANG"
  | .question => "QMARK"
  | .colon => "COLON"
  | .comma => "COMMA"
  | .dot => "DOT"
  | .openParen => "LPAR"
  | .closeParen => "RPAR"
  | .openBracket => "LSQB"
  | .closeBracket => "RSQB"
  | .openBrace => "LBRACE"
  | .closeBrace => "RBRACE"
  | .orSign => "__ANON_0"
  | .andSign => "__ANON_1"
  | .finish => "$END"

def keyword? : Terminal → Option (List Char)
  | .orWord => some ['o', 'r']
  | .andWord => some ['a', 'n', 'd']
  | .notWord => some ['n', 'o', 't']
  | .trueWord => some ['t', 'r', 'u', 'e']
  | .falseWord => some ['f', 'a', 'l', 's', 'e']
  | .nullWord => some ['n', 'u', 'l', 'l']
  | _ => none

def isKeyword (t : Terminal) : Bool :=
  t.keyword?.isSome

/-- The spellings of a sign, longer ones before their beginnings. -/
def signs : Terminal → List (List Char)
  | .comparison => [['=', '=', '='], ['!', '=', '='], ['=', '='], ['!', '='], ['<', '='], ['>', '='],
      ['<'], ['>']]
  | .product => [['*'], ['/'], ['%']]
  | .plus => [['+']]
  | .minus => [['-']]
  | .bang => [['!']]
  | .question => [['?']]
  | .colon => [[':']]
  | .comma => [[',']]
  | .dot => [['.']]
  | .openParen => [['(']]
  | .closeParen => [[')']]
  | .openBracket => [['[']]
  | .closeBracket => [[']']]
  | .openBrace => [['{']]
  | .closeBrace => [['}']]
  | .orSign => [['|', '|']]
  | .andSign => [['&', '&']]
  | _ => []

def keywords : List Terminal :=
  [.falseWord, .nullWord, .trueWord, .andWord, .notWord, .orWord]

/-- The signs in the order in which they are tried. -/
def punctuation : List Terminal :=
  [.comparison, .orSign, .andSign, .product, .plus, .minus, .bang, .question, .colon, .comma, .dot,
    .openParen, .closeParen, .openBracket, .closeBracket, .openBrace, .closeBrace]

end Terminal

/-- A terminal with its spelling and its place. -/
structure Token where
  terminal : Terminal
  text : List Char
  position : Text.Position

end RoutineFlow.Expr
