import RoutineFlow.Expr.Token
import RoutineFlow.Number.Numeral

/-!
Tokens are read one at a time, each among the terminals that the parser accepts at that point. So a
keyword behind an operand ends where its letters end, and a name may be spelled like a keyword where
no such keyword can stand.
-/

namespace RoutineFlow.Expr.Lexer

open Numeral (digitRun)

/-- Characters that may stand between tokens. -/
def isIgnored (c : Char) : Bool :=
  c == ' ' || c == '\t' || c == '\x0c' || c == '\r' || c == '\n'

def isNameStart (c : Char) : Bool :=
  c.isAlpha || c == '_'

def isNamePart (c : Char) : Bool :=
  c.isAlphanum || c == '_'

def name? : List Char → Option (List Char)
  | [] => none
  | c :: cs => if isNameStart c then some (c :: cs.takeWhile isNamePart) else none

/-- The exponent part at the start of a text, empty if there is none. -/
def exponentPart : List Char → List Char
  | [] => []
  | e :: cs =>
    if e = 'e' ∨ e = 'E' then
      let (mark, after) := match cs with
        | '+' :: after => (['+'], after)
        | '-' :: after => (['-'], after)
        | _ => ([], cs)
      match (digitRun after).1 with
      | [] => []
      | digits => e :: mark ++ digits
    else []

/-- The numeral at the start of a text; a point needs a digit on one of its sides. -/
def numeral? (cs : List Char) : Option (List Char) :=
  let (whole, rest) := digitRun cs
  match rest with
  | '.' :: after =>
    let (fraction, rest) := digitRun after
    if whole.isEmpty && fraction.isEmpty then none
    else some (whole ++ '.' :: fraction ++ exponentPart rest)
  | _ => if whole.isEmpty then none else some (whole ++ exponentPart rest)

/-- The characters of a quoted text up to its closing mark; a backslash takes the next character with it,
unless that ends the line. -/
def quotedRest (mark : Char) : Bool → List Char → Option (List Char)
  | _, [] => none
  | true, c :: cs => if c = '\n' then none else (quotedRest mark false cs).map (c :: ·)
  | false, c :: cs =>
    if c = mark then some [c]
    else (quotedRest mark (c == '\\') cs).map (c :: ·)

def quoted? : List Char → Option (List Char)
  | '"' :: cs => (quotedRest '"' false cs).map ('"' :: ·)
  | '\'' :: cs => (quotedRest '\'' false cs).map ('\'' :: ·)
  | _ => none

def sign? (t : Terminal) (cs : List Char) : Option (List Char) :=
  t.signs.find? (·.isPrefixOf cs)

/-- A name, or the keyword that it spells where that is accepted. -/
def nameTerminal (accepted : List Terminal) (name : List Char) : Terminal :=
  (Terminal.keywords.find? fun t => accepted.contains t && t.keyword? == some name).getD .name

/-- Where no name is accepted, a keyword is read even at the start of a longer word. -/
def keyword? (accepted : List Terminal) (cs : List Char) : Option (Terminal × List Char) :=
  Terminal.keywords.findSome? fun t =>
    match t.keyword? with
    | some word => if accepted.contains t && word.isPrefixOf cs then some (t, word) else none
    | none => none

def punctuation? (accepted : List Terminal) (cs : List Char) : Option (Terminal × List Char) :=
  Terminal.punctuation.findSome? fun t =>
    if accepted.contains t then (sign? t cs).map (t, ·) else none

/-- The first accepted terminal that a text starts with, and its spelling. -/
def scan? (accepted : List Terminal) (cs : List Char) : Option (Terminal × List Char) :=
  let numeral := if accepted.contains .numeral then (numeral? cs).map (Terminal.numeral, ·) else none
  let name :=
    if accepted.contains .name then (name? cs).map fun word => (nameTerminal accepted word, word)
    else none
  let text := if accepted.contains .text then (quoted? cs).map (Terminal.text, ·) else none
  let keyword := if accepted.contains .name then none else keyword? accepted cs
  numeral <|> name <|> text <|> keyword <|> punctuation? accepted cs

def vocabulary : List Terminal :=
  [.numeral, .name, .text] ++ Terminal.keywords ++ Terminal.punctuation

end RoutineFlow.Expr.Lexer
