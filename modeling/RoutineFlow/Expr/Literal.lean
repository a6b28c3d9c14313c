import RoutineFlow.Json.Reader
import RoutineFlow.Text.Lines

namespace RoutineFlow

/-- The names that characters have in escapes. -/
class CharNames where
  named? : String → Option Char

/-- Where no names are given, none is known. -/
instance : CharNames := ⟨fun _ => none⟩

namespace Expr.Literal

inductive Escape where
  | twoDigits
  | fourDigits
  | eightDigits
  | outOfRange
  | noName
  | unknownName
  deriving DecidableEq, Repr

def Escape.message : Escape → String
  | .twoDigits => "truncated \\xXX escape"
  | .fourDigits => "truncated \\uXXXX escape"
  | .eightDigits => "truncated \\UXXXXXXXX escape"
  | .outOfRange => "illegal Unicode character"
  | .noName => "malformed \\N character escape"
  | .unknownName => "unknown Unicode character name"

inductive Problem where
  | lineBreak (line : Nat)
  | escape (first last : Nat) (what : Escape) (line : Nat)
  | nullCharacter
  | number (cause : Cause)

def Problem.message : Problem → String
  | .lineBreak line =>
    s!"unterminated string literal (detected at line {line}) (<unknown>, line 1)"
  | .escape first last what line =>
    s!"(unicode error) 'unicodeescape' codec can't decode bytes in position {first}-{last}: " ++
      what.message ++ s!" (<unknown>, line {line})"
  | .nullCharacter => "source code string cannot contain null bytes"
  | .number cause => cause.message

/-- The line of the first line break without a backslash, counted from `line`. -/
def bareLineBreak? : Nat → Bool → List Char → Option Nat
  | _, _, [] => none
  | line, escaped, c :: cs =>
    if c = '\n' then (if escaped then bareLineBreak? (line + 1) false cs else some line)
    else bareLineBreak? line (!escaped && c == '\\') cs

/-- What a character counts in the places of escapes: as many as its own longest escape beyond ASCII. -/
def width (c : Char) : Nat :=
  if c.toNat < 128 then 1 else 10

def widths : List Char → Nat
  | [] => 0
  | c :: cs => width c + widths cs

def isOctal (c : Char) : Bool :=
  '0' ≤ c && c ≤ '7'

def octalValue (digits : List Char) : Nat :=
  digits.foldl (fun n c => 8 * n + (c.toNat - '0'.toNat)) 0

def hexNumber (digits : List Char) : Nat :=
  digits.foldl (fun n c => 16 * n + (Text.hexValue? c).getD 0) 0

/-- The characters that an escape stands for, and how many characters behind the backslash spell it; or what
is wrong, and how far it was read. -/
abbrev Escaped := Except (Escape × Nat) (List Char × Nat)

/-- An escape of exactly `count` hexadecimal digits behind its letter. As in documents, half of a pair is replaced. -/
def hexEscape (count : Nat) (what : Escape) (cs : List Char) : Escaped :=
  let digits := (cs.take count).takeWhile fun c => (Text.hexValue? c).isSome
  if digits.length < count then .error (what, digits.length + 1)
  else
    let n := hexNumber digits
    if n > 0x10FFFF then .error (.outOfRange, count + 1)
    else .ok ([Json.unitChar n], count + 1)

/-- An escape by name, as far as names are known. -/
def nameEscape [CharNames] : List Char → Escaped
  | '{' :: cs =>
    let name := cs.takeWhile (· != '}')
    if name.length = cs.length then .error (.noName, 2 + widths name)
    else if name.isEmpty then .error (.noName, 2)
    else match CharNames.named? (String.ofList name) with
      | some c => .ok ([c], name.length + 3)
      | none => .error (.unknownName, 3 + widths name)
  | _ => .error (.noName, 1)

def simple? : Char → Option Char
  | '\\' => some '\\'
  | '\'' => some '\''
  | '"' => some '"'
  | 'a' => some '\x07'
  | 'b' => some '\x08'
  | 'f' => some '\x0c'
  | 'n' => some '\n'
  | 'r' => some '\r'
  | 't' => some '\t'
  | 'v' => some '\x0b'
  | _ => none

/-- The escape behind a backslash; an unknown one keeps its backslash. -/
def escape [CharNames] (cs : List Char) : Escaped :=
  match cs with
  | [] => .ok (['\\'], 0)
  | '\n' :: _ => .ok ([], 1)
  | 'x' :: rest => hexEscape 2 .twoDigits rest
  | 'u' :: rest => hexEscape 4 .fourDigits rest
  | 'U' :: rest => hexEscape 8 .eightDigits rest
  | 'N' :: rest => nameEscape rest
  | c :: _ =>
    match simple? c with
    | some x => .ok ([x], 1)
    | none =>
      if isOctal c then
        let digits := (cs.take 3).takeWhile isOctal
        .ok ([Char.ofNat (octalValue digits)], digits.length)
      else .ok (['\\'], 0)

/-- Reads the escapes of a body. The place of the next character is `place`, and `skip` counts the characters of
an escape still to be passed. -/
def unescape [CharNames] (line : Nat) : Nat → Nat → List Char → Except Problem (List Char)
  | _, _, [] => .ok []
  | place, skip + 1, c :: cs => unescape line (place + width c) skip cs
  | place, 0, c :: cs =>
    if c = '\\' then
      match escape cs with
      | .error (what, read) => .error (.escape place (place + read) what line)
      | .ok (chars, size) =>
        let long := match cs with
          | [] => false
          | d :: _ => width d ≠ 1
        (unescape line (place + (if long then 6 else 1)) size cs).map (chars ++ ·)
    else (unescape line (place + width c) 0 cs).map (c :: ·)

def text [CharNames] (quoted : List Char) : Except Problem (List Char) :=
  let lines := Text.unifyLineEnds quoted
  if lines.contains '\x00' then .error .nullCharacter
  else match bareLineBreak? 1 false lines with
    | some line => .error (.lineBreak line)
    | none => unescape (1 + lines.count '\n') 0 0 (lines.drop 1).dropLast

/-- The number that a numeral stands for; one with a point or an exponent is a double. -/
def number (numeral : List Char) : Except Problem Number :=
  if numeral.any fun c => c == '.' || c == 'e' || c == 'E' then
    .ok (.float ((Numeral.magnitude? false numeral).getD 0.0))
  else match Number.ofDigits false numeral with
    | .ok n => .ok n
    | .error cause => .error (.number cause)

end Expr.Literal

end RoutineFlow
