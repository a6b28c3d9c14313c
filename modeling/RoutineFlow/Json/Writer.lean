import RoutineFlow.Text.Split
import RoutineFlow.Value.Basic

namespace RoutineFlow.Json

/-- How a document is laid out: with an indent every member stands on a line of its own. -/
structure Layout where
  indent : Option Nat := none
  spaced : Bool := true
  ascii : Bool := false
  finiteOnly : Bool := false

namespace Layout

/-- One line, a blank after each comma and colon. -/
def line : Layout := {}

/-- One line without blanks, all characters in ASCII. -/
def compact : Layout := { spaced := false, ascii := true }

end Layout

def unicodeEscape (n : Nat) : List Char :=
  '\\' :: 'u' :: Text.hexDigits 4 n

/-- A character beyond ASCII by one escape, or by two beyond the first plane. -/
def asciiEscape (c : Char) : List Char :=
  let n := c.toNat
  if n < 0x10000 then unicodeEscape n
  else unicodeEscape (0xD800 + (n - 0x10000) / 0x400) ++
    unicodeEscape (0xDC00 + (n - 0x10000) % 0x400)

def escapeChar (ascii : Bool) (c : Char) : List Char :=
  if c = '"' ∨ c = '\\' then ['\\', c]
  else if c = '\n' then ['\\', 'n']
  else if c = '\r' then ['\\', 'r']
  else if c = '\t' then ['\\', 't']
  else if c = '\x08' then ['\\', 'b']
  else if c = '\x0c' then ['\\', 'f']
  else if c.toNat < 0x20 then unicodeEscape c.toNat
  else if ascii ∧ c.toNat ≥ 0x7F then asciiEscape c
  else [c]

def writeText (ascii : Bool) (cs : List Char) : List Char :=
  '"' :: cs.flatMap (escapeChar ascii) ++ ['"']

def nullWord : List Char := ['n', 'u', 'l', 'l']

def boolWord (b : Bool) : List Char :=
  if b then ['t', 'r', 'u', 'e'] else ['f', 'a', 'l', 's', 'e']

def unknownWord : List Char := ['N', 'a', 'N']

def specialWord? (x : Float) : Option (List Char) :=
  match Binary.ofFloat x with
  | .notNumber => some unknownWord
  | .infinite negative =>
    let word := ['I', 'n', 'f', 'i', 'n', 'i', 't', 'y']
    some (if negative then '-' :: word else word)
  | .finite _ _ _ => none

/-- What is not finite is refused where only finite doubles are allowed; with an indent the refusal shows it
as `literal`. -/
def writeSpecial (l : Layout) (word literal : List Char) : Except Cause (List Char) :=
  if l.finiteOnly then .error (.unwritableDouble (l.indent.map fun _ => String.ofList literal))
  else .ok word

def writeNumber (l : Layout) : Number → Except Cause (List Char)
  | .int i => Number.intText i
  | .float x => match specialWord? x with
    | none => .ok (Binary.text x)
    | some word => writeSpecial l word (Binary.text x)
  | .unknown _ => writeSpecial l unknownWord Binary.unknownText

namespace Layout

def comma (l : Layout) : List Char :=
  if l.spaced && l.indent.isNone then [',', ' '] else [',']

def colon (l : Layout) : List Char :=
  if l.spaced then [':', ' '] else [':']

/-- What stands before a member at the given depth. -/
def margin (l : Layout) (depth : Nat) : List Char :=
  match l.indent with
  | none => []
  | some width => '\n' :: List.replicate (width * depth) ' '

def enclose (l : Layout) (first last : Char) (depth : Nat) (members : List (List Char)) : List Char :=
  if members.isEmpty then [first, last]
  else
    let before := l.margin (depth + 1)
    first :: before ++ Text.join (l.comma ++ before) members ++ l.margin depth ++ [last]

end Layout

/-- What is written, as a text, for a key. -/
def keyWord (l : Layout) : Key → Except Cause (List Char)
  | .null => .ok nullWord
  | .bool b => .ok (boolWord b)
  | .num n => writeNumber l n
  | .text s => .ok s.toList

mutual

/-- The text of a value whose members stand one level deeper than `depth`. -/
def write (l : Layout) (depth : Nat) : Value → Except Cause (List Char)
  | .null => .ok nullWord
  | .bool b => .ok (boolWord b)
  | .num n => writeNumber l n
  | .str s => .ok (writeText l.ascii s.toList)
  | .list items => do
    let members ← writeItems l (depth + 1) items
    return l.enclose '[' ']' depth members
  | .map entries => do
    let members ← writeEntries l (depth + 1) entries
    return l.enclose '{' '}' depth members

def writeItems (l : Layout) (depth : Nat) : List Value → Except Cause (List (List Char))
  | [] => .ok []
  | v :: rest => do
    let member ← write l depth v
    let members ← writeItems l depth rest
    return member :: members

def writeEntries (l : Layout) (depth : Nat) : List (Key × Value) → Except Cause (List (List Char))
  | [] => .ok []
  | (key, v) :: rest => do
    let word ← keyWord l key
    let member ← write l depth v
    let members ← writeEntries l depth rest
    return (writeText l.ascii word ++ l.colon ++ member) :: members

end

def render (l : Layout) (v : Value) : Except Cause String :=
  (write l 0 v).map String.ofList

end RoutineFlow.Json
