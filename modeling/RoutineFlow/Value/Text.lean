import RoutineFlow.Json.Writer

namespace RoutineFlow.Value

open Text (join quote)

/-- A double equal to an integer is written as that integer. -/
def numberText : Number → Except Cause (List Char)
  | .int i => Number.intText i
  | .float x => match Number.integral? x with
    | some i => Number.intText i
    | none => .ok (Binary.text x)
  | .unknown _ => .ok Binary.unknownText

mutual

/-- The text of a value where text is wanted: nothing for null, the members of a list between commas,
mappings as compact documents. -/
def textChars : Value → Except Cause (List Char)
  | .null => .ok []
  | .bool b => .ok (Json.boolWord b)
  | .num n => numberText n
  | .str s => .ok s.toList
  | .list items => (textItems items).map (join [','])
  | .map entries => Json.write .compact 0 (.map entries)

def textItems : List Value → Except Cause (List (List Char))
  | [] => .ok []
  | v :: rest => do
    let first ← textChars v
    let others ← textItems rest
    return first :: others

end

def toText (v : Value) : Except Cause String :=
  (textChars v).map String.ofList

/-- A number inside a message. Integers are written whole, even those too long for a text, which no document holds. -/
def numberLiteral : Number → List Char
  | .int i => (if i < 0 then ['-'] else []) ++ Text.decimalDigits i.natAbs
  | .float x => Binary.text x
  | .unknown _ => Binary.unknownText

def nullLiteral : List Char := ['N', 'o', 'n', 'e']

def boolLiteral (b : Bool) : List Char :=
  if b then ['T', 'r', 'u', 'e'] else ['F', 'a', 'l', 's', 'e']

def keyLiteral : Key → List Char
  | .null => nullLiteral
  | .bool b => boolLiteral b
  | .num n => numberLiteral n
  | .text s => quote s.toList

mutual

/-- A value as messages show it, with texts in quotation marks. -/
def literalChars : Value → List Char
  | .null => nullLiteral
  | .bool b => boolLiteral b
  | .num n => numberLiteral n
  | .str s => quote s.toList
  | .list items => '[' :: join [',', ' '] (literalItems items) ++ [']']
  | .map entries => '{' :: join [',', ' '] (literalEntries entries) ++ ['}']

def literalItems : List Value → List (List Char)
  | [] => []
  | v :: rest => literalChars v :: literalItems rest

def literalEntries : List (Key × Value) → List (List Char)
  | [] => []
  | (key, v) :: rest =>
    (keyLiteral key ++ ':' :: ' ' :: literalChars v) :: literalEntries rest

end

def literal (v : Value) : String :=
  String.ofList (literalChars v)

/-- A value as messages show it, a text by itself. -/
def label : Value → String
  | .str s => s
  | v => v.literal

end RoutineFlow.Value
