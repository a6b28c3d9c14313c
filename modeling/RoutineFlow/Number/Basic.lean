import RoutineFlow.Cause
import RoutineFlow.Number.Numeral
import RoutineFlow.Number.Shortest

namespace RoutineFlow

/-- What tells apart the results that are no numbers: a new one is like none, and a kept one is like itself,
known by an age, the routine that it comes from, and its place there. -/
inductive Mark where
  | new
  | kept (age : Nat) (routine : String) (place : List Nat)
  deriving DecidableEq, Repr

/-- Numbers: whole ones of any size, doubles, and marked results that are no numbers. The double that is no
number stands for all that documents hold. -/
inductive Number where
  | int (i : Int)
  | float (x : Float)
  | unknown (mark : Mark)

namespace Number

def kind : Number → Kind
  | .int _ => .integer
  | .float _ => .double
  | .unknown _ => .double

def isFinite (x : Float) : Bool :=
  match Binary.ofFloat x with
  | .finite _ _ _ => true
  | _ => false

/-- A double as a result: only finite ones count. -/
def finite? (x : Float) : Option Number :=
  if isFinite x then some (.float x) else none

/-- A double as a number: one that is no number is new. -/
def ofResult (x : Float) : Number :=
  match Binary.ofFloat x with
  | .notNumber => .unknown .new
  | _ => .float x

/-- The double nearest to a number; none for an integer beyond the doubles. -/
def toFloat? : Number → Option Float
  | .int i =>
    let x := Binary.nearestInt i
    if isFinite x then some x else none
  | .float x => some x
  | .unknown _ => some (0.0 / 0.0)

/-- The whole part of a finite double. -/
def wholePart (negative : Bool) (mantissa : Nat) (exponent : Int) : Int :=
  Numeral.signed negative (mantissa * Power.numerator 2 exponent / Power.denominator 2 exponent)

/-- The integer that a double equals, if there is one. -/
def integral? (x : Float) : Option Int :=
  match Binary.ofFloat x with
  | .finite negative mantissa exponent =>
    if mantissa * Power.numerator 2 exponent % Power.denominator 2 exponent = 0 then
      some (wholePart negative mantissa exponent)
    else none
  | _ => none

/-- Cuts off the digits after the point. -/
def truncate : Number → Except Cause Int
  | .int i => .ok i
  | .float x => match Binary.ofFloat x with
    | .notNumber => .error .integerOfNotNumber
    | .infinite _ => .error .integerOfInfinity
    | .finite negative mantissa exponent => .ok (wholePart negative mantissa exponent)
  | .unknown _ => .error .integerOfNotNumber

/-- Orders an integer and a finite double by their exact values. -/
def compareExact (i : Int) (negative : Bool) (mantissa : Nat) (exponent : Int) : Ordering :=
  compare (i * Power.denominator 2 exponent)
    (Numeral.signed negative (mantissa * Power.numerator 2 exponent))

def compareIntFloat (i : Int) (x : Float) : Option Ordering :=
  match Binary.ofFloat x with
  | .notNumber => none
  | .infinite negative => some (if negative then .gt else .lt)
  | .finite negative mantissa exponent => some (compareExact i negative mantissa exponent)

/-- The order of two numbers by value; none if one of them is no number. -/
def compare? : Number → Number → Option Ordering
  | .int i, .int j => some (compare i j)
  | .int i, .float y => compareIntFloat i y
  | .float x, .int j => (compareIntFloat j x).map Ordering.swap
  | .float x, .float y =>
    if x < y then some .lt else if x == y then some .eq else if y < x then some .gt else none
  | _, _ => none

def isZero : Number → Bool
  | .int i => i == 0
  | .float x => x == 0.0
  | .unknown _ => false

def isNaN : Number → Bool
  | .int _ => false
  | .float x => match Binary.ofFloat x with
    | .notNumber => true
    | _ => false
  | .unknown _ => true

/-- Whether two of what is no number are one and the same. -/
def coincides : Number → Number → Bool
  | .float x, .float y => (Number.float x).isNaN && (Number.float y).isNaN
  | .unknown (.kept age routine place), .unknown mark => mark == .kept age routine place
  | _, _ => false

def negate : Number → Number
  | .int i => .int (-i)
  | .float x => ofResult (-x)
  | .unknown _ => .unknown .new

def absolute : Number → Number
  | .int i => .int i.natAbs
  | .float x => ofResult x.abs
  | .unknown _ => .unknown .new

/-- Applies an operation on doubles; none when the result is not finite. -/
def onFloats (f : Float → Float → Float) (a b : Number) : Option Number := do
  let x ← a.toFloat?
  let y ← b.toFloat?
  finite? (f x y)

def add : Number → Number → Option Number
  | .int i, .int j => some (.int (i + j))
  | a, b => onFloats (· + ·) a b

def subtract : Number → Number → Option Number
  | .int i, .int j => some (.int (i - j))
  | a, b => onFloats (· - ·) a b

def multiply : Number → Number → Option Number
  | .int i, .int j => some (.int (i * j))
  | a, b => onFloats (· * ·) a b

/-- The quotient as a double; of two integers the nearest one to the exact quotient. -/
def divide : Number → Number → Option Number
  | .int i, .int j => finite? (Binary.nearest (decide (i < 0) != decide (j < 0)) i.natAbs j.natAbs)
  | a, b => onFloats (· / ·) a b

/-- The remainder of two finite magnitudes, which is a double again. -/
def floatRemainder (x y : Float) : Float :=
  match Binary.ofFloat x, Binary.ofFloat y with
  | .finite negative m e, .finite _ n f =>
    let low := min e f
    let r := (m * Power.numerator 2 (e - low)) % (n * Power.numerator 2 (f - low))
    Binary.nearest negative (r * Power.numerator 2 low) (Power.denominator 2 low)
  | .finite _ _ _, .infinite _ => x
  | _, _ => 0.0 / 0.0

def isNegative (x : Float) : Bool :=
  match Binary.ofFloat x with
  | .notNumber => false
  | .infinite negative => negative
  | .finite negative _ _ => negative

/-- The remainder with the sign of the divisor. -/
def floatModulo (x y : Float) : Float :=
  let r := floatRemainder x y
  if r == 0.0 then (if isNegative y then -0.0 else 0.0)
  else if decide (y < 0.0) != decide (r < 0.0) then r + y
  else r

def modulo : Number → Number → Option Number
  | .int i, .int j => some (.int (i.fmod j))
  | a, b => onFloats floatModulo a b

/-- Rounds to a multiple of `10 ^ places`, a half going to the even neighbour. -/
def roundInt (i : Int) (places : Nat) : Int :=
  if i.natAbs.log2 / 3 + 2 < places then 0
  else Numeral.signed (i < 0) (Binary.divideToEven i.natAbs (Nat.pow 10 places) * Nat.pow 10 places)

/-- Rounds to `digits` places after the point (before it, when negative). -/
def roundFloat (x : Float) (digits : Int) : Except Cause Float :=
  match Binary.ofFloat x with
  | .finite negative mantissa exponent =>
    if digits > 323 then .ok x
    else if digits < -308 then .ok (Binary.nearest negative 0 1)
    else
      let num := mantissa * Power.numerator 2 exponent * Power.numerator 10 digits
      let den := Power.denominator 2 exponent * Power.denominator 10 digits
      let rounded := Binary.nearestDecimal negative (Binary.divideToEven num den) (-digits)
      if isFinite rounded then .ok rounded else .error .roundedTooLarge
  | _ => .ok x

/-- The nearest integer, a half going to the even one. -/
def roundWhole : Number → Except Cause Int
  | .int i => .ok i
  | .float x => match Binary.ofFloat x with
    | .notNumber => .error .integerOfNotNumber
    | .infinite _ => .error .integerOfInfinity
    | .finite negative mantissa exponent =>
      .ok (Numeral.signed negative
        (Binary.divideToEven (mantissa * Power.numerator 2 exponent) (Power.denominator 2 exponent)))
  | .unknown _ => .error .integerOfNotNumber

/-- Rounds to a number of places; with none the result is an integer. -/
def round (a : Number) (digits : Int) : Except Cause Number :=
  if digits = 0 then (roundWhole a).map .int
  else match a with
    | .int i => .ok (.int (if digits < 0 then roundInt i digits.natAbs else i))
    | .float x => (roundFloat x digits).map ofResult
    | .unknown _ => .ok (.unknown .new)

/-- The digits of an integer, unless there are too many of them. -/
def intText (i : Int) : Except Cause (List Char) :=
  if Nat.pow 10 digitLimit ≤ i.natAbs then .error .unwritableInteger
  else
    let digits := Text.decimalDigits i.natAbs
    .ok (if i < 0 then '-' :: digits else digits)

/-- The integer that digits write, unless there are too many of them. -/
def integerOfDigits (negative : Bool) (digits : List Char) : Except Cause Int :=
  if digits.length > digitLimit then .error (.unreadableInteger digits.length)
  else .ok (Numeral.signed negative (Numeral.valueOf digits))

def ofDigits (negative : Bool) (digits : List Char) : Except Cause Number :=
  (integerOfDigits negative digits).map .int

/-- A number read from text: an integer if it can be one, else a finite double. -/
def ofText (text : String) : Except Cause Number :=
  let trimmed := Text.trim text.toList
  let whole := match Numeral.integerParts? trimmed with
    | some (negative, digits) => (ofDigits negative digits).toOption
    | none => none
  match whole with
  | some n => .ok n
  | none => match Numeral.double? trimmed with
    | none => .error (.badNumeral (String.ofList trimmed))
    | some x => if isFinite x then .ok (.float x) else .error (.notFinite text)

/-- The integer that a text writes; blanks may stand around it. -/
def integerOfText (text : String) : Except Cause Int :=
  match Numeral.integerParts? text.toList with
  | none => .error (.badInteger text)
  | some (negative, digits) => integerOfDigits negative digits

/-- The double that a text writes, finite or not. -/
def doubleOfText (text : String) : Except Cause Float :=
  match Numeral.double? text.toList with
  | none => .error (.badNumeral text)
  | some x => .ok x

end Number

end RoutineFlow
