import RoutineFlow.Json.Error
import RoutineFlow.Value.Basic

/-!
Documents are read from characters. A problem is placed by how many characters remain, which turns
into line and column only at the end.
-/

namespace RoutineFlow.Json

open Numeral (digitRun)

/-- Why reading stops: a problem where `remaining` characters are left, or a number that cannot be held. -/
inductive Stop where
  | problem (problem : Problem) (remaining : Nat)
  | cause (cause : Cause)

/-- What was read, and the text behind it. -/
abbrev Reading (α : Type) := Except Stop (α × List Char)

def fault {α : Type} (p : Problem) (rest : List Char) : Reading α :=
  .error (.problem p rest.length)

def isGap (c : Char) : Bool :=
  c == ' ' || c == '\t' || c == '\n' || c == '\r'

def skipGap (cs : List Char) : List Char :=
  cs.dropWhile isGap

def simpleEscape? : Char → Option Char
  | '"' => some '"'
  | '\\' => some '\\'
  | '/' => some '/'
  | 'b' => some '\x08'
  | 'f' => some '\x0c'
  | 'n' => some '\n'
  | 'r' => some '\r'
  | 't' => some '\t'
  | _ => none

def hexQuad (a b c d : Char) : Option Nat := do
  return ((← Text.hexValue? a) * 16 + (← Text.hexValue? b)) * 256 +
    ((← Text.hexValue? c) * 16 + (← Text.hexValue? d))

def isHighHalf (n : Nat) : Bool := 0xD800 ≤ n && n < 0xDC00

def isLowHalf (n : Nat) : Bool := 0xDC00 ≤ n && n < 0xE000

def isHalf (n : Nat) : Bool := isHighHalf n || isLowHalf n

/-- The character with a number. Half of a pair on its own is none, so that no text can keep it: it is replaced. -/
def unitChar (n : Nat) : Char :=
  if isHalf n then Char.ofNat 0xFFFD else Char.ofNat n

def pairNumber (high low : Nat) : Nat :=
  0x10000 + (high - 0xD800) * 0x400 + (low - 0xDC00)

def prepend (c : Char) (r : Reading (List Char)) : Reading (List Char) :=
  r.map fun (cs, rest) => (c :: cs, rest)

/-- The low half of a pair written right behind its high half, with a character after it. -/
def readLowHalf (high : Nat) : List Char → Except Stop (Option Nat)
  | '\\' :: 'u' :: e :: f :: g :: h :: after =>
    if isHighHalf high && !after.isEmpty then
      match hexQuad e f g h with
      | none => .error (.problem .badUnicodeEscape (after.length + 5))
      | some low => .ok (if isLowHalf low then some low else none)
    else .ok none
  | _ => .ok none

/-- What is spelled behind `\\u`: the number of a character, or of a half, and how many characters spell it. -/
def readUnit : List Char → Except Stop (Nat × Nat)
  | a :: b :: c :: d :: rest =>
    match hexQuad a b c d with
    | none => .error (.problem .badUnicodeEscape (rest.length + 5))
    | some unit =>
      if rest.isEmpty then .error (.problem .badUnicodeEscape 5)
      else (readLowHalf unit rest).map fun
        | some low => (pairNumber unit low, 10)
        | none => (unit, 4)
  | cs => .error (.problem .badUnicodeEscape (cs.length + 1))

/-- What stands behind a backslash: its character, and how many characters spell it. -/
def readEscape (start : List Char) : List Char → Except Stop (Char × Nat)
  | [] => .error (.problem .unterminatedText start.length)
  | 'u' :: cs => (readUnit cs).map fun (n, size) => (unitChar n, size + 1)
  | c :: cs => match simpleEscape? c with
    | some x => .ok (x, 1)
    | none => .error (.problem .badEscape (cs.length + 2))

/-- The characters up to the closing quote. The text from the opening quote on is `start`, and `skip` counts
the characters of an escape still to be passed. -/
def readText (start : List Char) : Nat → List Char → Reading (List Char)
  | _, [] => fault .unterminatedText start
  | skip + 1, _ :: cs => readText start skip cs
  | 0, '"' :: cs => .ok ([], cs)
  | 0, '\\' :: cs => match readEscape start cs with
    | .ok (c, size) => prepend c (readText start size cs)
    | .error stop => .error stop
  | 0, c :: cs =>
    if c.toNat < 0x20 then fault .controlCharacter (c :: cs) else prepend c (readText start 0 cs)

/-- Splits off a fraction: a point with at least one digit behind it. -/
def readFraction : List Char → List Char × List Char
  | '.' :: cs => match digitRun cs with
    | ([], _) => ([], '.' :: cs)
    | (digits, rest) => ('.' :: digits, rest)
  | cs => ([], cs)

/-- Splits off an exponent, if at least one digit stands behind its letter and sign. -/
def readExponent : List Char → List Char × List Char
  | [] => ([], [])
  | e :: cs =>
    if e = 'e' ∨ e = 'E' then
      let (mark, after) := match cs with
        | '+' :: after => (['+'], after)
        | '-' :: after => (['-'], after)
        | _ => ([], cs)
      match digitRun after with
      | ([], _) => ([], e :: cs)
      | (digits, rest) => (e :: mark ++ digits, rest)
    else ([], e :: cs)

/-- A number without sign, once its whole digits are read. -/
def finishNumber (negative : Bool) (whole rest : List Char) : Reading Value :=
  let (fraction, rest) := readFraction rest
  let (exponent, rest) := readExponent rest
  if fraction.isEmpty && exponent.isEmpty then
    match Number.ofDigits negative whole with
    | .ok n => .ok (.num n, rest)
    | .error cause => .error (.cause cause)
  else
    let x := (Numeral.magnitude? negative (whole ++ fraction ++ exponent)).getD 0.0
    .ok (.num (.float x), rest)

def readNumber (cs : List Char) : Reading Value :=
  let (negative, unsigned) := match cs with
    | '-' :: rest => (true, rest)
    | _ => (false, cs)
  match unsigned with
  | '0' :: rest => finishNumber negative ['0'] rest
  | c :: rest =>
    if c.isDigit then
      let (digits, rest) := digitRun rest
      finishNumber negative (c :: digits) rest
    else fault .expectedValue cs
  | [] => fault .expectedValue cs

def infinity (negative : Bool) : Value :=
  .num (.float (Binary.nearest negative (Nat.pow 2 1024) 1))

/-- The words that are values. -/
def readWord? : List Char → Option (Value × List Char)
  | 'n' :: 'u' :: 'l' :: 'l' :: rest => some (.null, rest)
  | 't' :: 'r' :: 'u' :: 'e' :: rest => some (.bool true, rest)
  | 'f' :: 'a' :: 'l' :: 's' :: 'e' :: rest => some (.bool false, rest)
  | 'N' :: 'a' :: 'N' :: rest => some (.num (.float (0.0 / 0.0)), rest)
  | 'I' :: 'n' :: 'f' :: 'i' :: 'n' :: 'i' :: 't' :: 'y' :: rest => some (infinity false, rest)
  | '-' :: 'I' :: 'n' :: 'f' :: 'i' :: 'n' :: 'i' :: 't' :: 'y' :: rest => some (infinity true, rest)
  | _ => none

def readKey : List Char → Reading String
  | '"' :: cs =>
    match readText ('"' :: cs) 0 cs with
    | .error stop => .error stop
    | .ok (name, rest) =>
      match skipGap rest with
      | ':' :: rest => .ok (String.ofList name, skipGap rest)
      | rest => fault .expectedColon rest
  | cs => fault .expectedName cs

mutual

/-- A value at the start of a text; `fuel` bounds its members and their depth together. -/
def readValue : Nat → List Char → Reading Value
  | 0, cs => fault .expectedValue cs
  | fuel + 1, cs =>
    match cs with
    | '"' :: rest => (readText cs 0 rest).map fun (text, rest) => (.str (String.ofList text), rest)
    | '{' :: rest =>
      match skipGap rest with
      | '}' :: rest => .ok (.map [], rest)
      | rest => (readEntries fuel rest).map fun (entries, rest) =>
          (.map (Mapping.ofEntries entries), rest)
    | '[' :: rest =>
      match skipGap rest with
      | ']' :: rest => .ok (.list [], rest)
      | rest => (readItems fuel rest).map fun (items, rest) => (.list items, rest)
    | _ =>
      match readWord? cs with
      | some read => .ok read
      | none => readNumber cs

def readItems : Nat → List Char → Reading (List Value)
  | 0, cs => fault .expectedValue cs
  | fuel + 1, cs =>
    match readValue fuel cs with
    | .error stop => .error stop
    | .ok (v, rest) =>
      match skipGap rest with
      | ']' :: rest => .ok ([v], rest)
      | ',' :: rest => (readItems fuel (skipGap rest)).map fun (items, rest) => (v :: items, rest)
      | rest => fault .expectedComma rest

def readEntries : Nat → List Char → Reading (List (Key × Value))
  | 0, cs => fault .expectedName cs
  | fuel + 1, cs =>
    match readKey cs with
    | .error stop => .error stop
    | .ok (key, rest) =>
      match readValue fuel rest with
      | .error stop => .error stop
      | .ok (v, rest) =>
        match skipGap rest with
        | '}' :: rest => .ok ([(.text key, v)], rest)
        | ',' :: rest => (readEntries fuel (skipGap rest)).map fun (entries, rest) =>
            ((.text key, v) :: entries, rest)
        | rest => fault .expectedComma rest

end

/-- The document that a text holds, and nothing behind it. -/
def readDocument (cs : List Char) : Except Stop Value :=
  if cs.head? = some (Char.ofNat 0xFEFF) then .error (.problem .byteOrderMark cs.length)
  else
    match readValue (2 * cs.length + 2) (skipGap cs) with
    | .error stop => .error stop
    | .ok (v, rest) =>
      match skipGap rest with
      | [] => .ok v
      | rest => .error (.problem .extraData rest.length)

def read (text : String) : Except Error Value :=
  let cs := text.toList
  match readDocument cs with
  | .ok v => .ok v
  | .error (.cause cause) => .error (.failed cause)
  | .error (.problem p remaining) =>
    .error (.malformed p (Text.Position.start.advance (cs.take (cs.length - remaining))))

end RoutineFlow.Json
