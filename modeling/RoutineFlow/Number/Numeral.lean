import RoutineFlow.Number.Binary
import RoutineFlow.Text.Blank
import RoutineFlow.Text.Digit

namespace RoutineFlow.Numeral

open Text

/-- The digits at the start of a text, and the rest. -/
def digitRun (cs : List Char) : List Char × List Char :=
  (cs.takeWhile Char.isDigit, cs.dropWhile Char.isDigit)

def valueOf (digits : List Char) : Nat :=
  digits.foldl (fun n c => 10 * n + (c.toNat - '0'.toNat)) 0

/-- Splits off a sign; true stands for minus. -/
def sign : List Char → Bool × List Char
  | '-' :: cs => (true, cs)
  | '+' :: cs => (false, cs)
  | cs => (false, cs)

/-- White space that may stand around a numeral. -/
def isSpace (c : Char) : Bool :=
  (9 ≤ c.toNat && c.toNat ≤ 13) || c == ' '

/-- Writes a character beyond ASCII as the ASCII blank or digit that it stands for. -/
def asciiForm (c : Char) : Char :=
  if c.toNat < 128 then c
  else if isBlank c then ' '
  else match digit? c with
    | some d => Char.ofNat ('0'.toNat + d)
    | none => '?'

def strip (cs : List Char) : List Char :=
  ((cs.dropWhile isSpace).reverse.dropWhile isSpace).reverse

/-- Leaves out single underscores between digits; no other underscore is allowed. -/
def ungroup : Bool → List Char → Option (List Char)
  | _, [] => some []
  | afterDigit, '_' :: cs =>
    if afterDigit && (cs.head?.map Char.isDigit).getD false then ungroup false cs else none
  | _, c :: cs => (ungroup c.isDigit cs).map (c :: ·)

/-- A numeral in ASCII without blanks around it and without groups. -/
def normalize (cs : List Char) : Option (List Char) :=
  ungroup false (strip (cs.map asciiForm))

/-- The sign and the digits of an integer numeral. -/
def integerParts? (cs : List Char) : Option (Bool × List Char) :=
  match normalize cs with
  | none => none
  | some numeral =>
    let (negative, digits) := sign numeral
    if digits.isEmpty || !digits.all Char.isDigit then none else some (negative, digits)

def signed (negative : Bool) (n : Nat) : Int :=
  if negative then -(n : Int) else n

/-- The exponent part at the end of a numeral; without one the exponent is zero. -/
def exponent? : List Char → Option Int
  | [] => some 0
  | e :: cs =>
    if e = 'e' ∨ e = 'E' then
      let (negative, digits) := sign cs
      if digits.isEmpty || !digits.all Char.isDigit then none
      else some (signed negative (valueOf digits))
    else none

/-- Digits with an optional point and exponent, as a whole number times a power of ten. -/
def decimal? (cs : List Char) : Option (Nat × Int) :=
  let (whole, rest) := digitRun cs
  let (fraction, rest) := match rest with
    | '.' :: after => digitRun after
    | _ => ([], rest)
  if whole.isEmpty && fraction.isEmpty then none
  else (exponent? rest).map fun e => (valueOf (whole ++ fraction), e - fraction.length)

/-- The double that an unsigned numeral names. -/
def magnitude? (negative : Bool) (cs : List Char) : Option Float :=
  let word := cs.map Char.toLower
  if word = ['i', 'n', 'f'] ∨ word = ['i', 'n', 'f', 'i', 'n', 'i', 't', 'y'] then
    some (Binary.nearest negative (Nat.pow 2 1024) 1)
  else if word = ['n', 'a', 'n'] then some (0.0 / 0.0)
  else (decimal? cs).map fun (digits, exponent) => Binary.nearestDecimal negative digits exponent

/-- The double nearest to what a numeral says. -/
def double? (cs : List Char) : Option Float :=
  (normalize cs).bind fun numeral =>
    let (negative, rest) := sign numeral
    magnitude? negative rest

end RoutineFlow.Numeral
