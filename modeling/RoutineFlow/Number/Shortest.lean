import RoutineFlow.Number.Binary
import RoutineFlow.Text.Quote

/-!
Doubles are written by the fewest decimal digits that read back as the same double. Everything is
exact arithmetic on naturals: the reals that round to a double form an interval, and the digits are
those of the coarsest decimal grid with a point in it.
-/

namespace RoutineFlow

/-- The number `digits · 10 ^ exponent`. -/
structure Decimal where
  digits : Nat
  exponent : Int

namespace Decimal

/-- The scaled reals that a double stands for: all that round to it lie between `low` and `high`, and
`value` is the double itself, each over the denominator `den`. -/
structure Interval where
  low : Nat
  value : Nat
  high : Nat
  den : Nat
  closed : Bool

/-- The interval of `mantissa · 2 ^ exponent`, its ends half way to the neighbouring doubles. -/
def interval (mantissa : Nat) (exponent : Int) : Interval :=
  let up := Power.numerator 2 exponent
  let lowerGap := if mantissa = Nat.pow 2 52 ∧ exponent > -1074 then 1 else 2
  ⟨(4 * mantissa - lowerGap) * up, 4 * mantissa * up, (4 * mantissa + 2) * up,
    4 * Power.denominator 2 exponent, mantissa % 2 == 0⟩

def Interval.holds (i : Interval) (num den : Nat) : Bool :=
  let low := i.low * den
  let high := i.high * den
  let x := num * i.den
  (low < x && x < high) || (i.closed && (x == low || x == high))

/-- The point nearest to the double on the grid of multiples of `10 ^ exponent`, if a point of the grid
rounds to it. -/
def onGrid? (i : Interval) (exponent : Int) : Option Decimal :=
  let up := Power.numerator 10 exponent
  let down := Power.denominator 10 exponent
  let unit := i.den * up
  let scaled := i.value * down
  let floor := scaled / unit
  let nearer := Binary.divideToEven scaled unit
  let other := if nearer = floor then floor + 1 else floor
  if i.holds (nearer * up) down then some ⟨nearer, exponent⟩
  else if i.holds (other * up) down then some ⟨other, exponent⟩
  else none

/-- The least `n` such that the quotient lies below `10 ^ n`, found by climbing from `n`. -/
def climb (num den : Nat) : Nat → Int → Int
  | 0, n => n
  | fuel + 1, n =>
    if num * Power.denominator 10 n < den * Power.numerator 10 n then n else climb num den fuel (n + 1)

/-- The place of the leading digit of a quotient: `10 ^ (n - 1) ≤ num / den < 10 ^ n`. -/
def magnitude (num den : Nat) : Int :=
  let bits : Int := (Nat.log2 num : Int) - Nat.log2 den - 1
  climb num den 4 (bits * 30103 / 100000)

/-- The first grid with a hit, from coarse to fine. -/
def search (i : Interval) (top : Int) : Nat → Int → Option Decimal
  | 0, _ => none
  | fuel + 1, n => match onGrid? i (top - n) with
    | some d => some d
    | none => search i top fuel (n + 1)

/-- Moves the zeros at the end of the digits into the exponent. -/
def dropZeros : Nat → Decimal → Decimal
  | 0, d => d
  | fuel + 1, d =>
    if d.digits ≠ 0 ∧ d.digits % 10 = 0 then dropZeros fuel ⟨d.digits / 10, d.exponent + 1⟩ else d

/-- The decimal with the fewest digits that rounds to `mantissa · 2 ^ exponent`, of those the nearest. -/
def shortest (mantissa : Nat) (exponent : Int) : Decimal :=
  if mantissa = 0 then ⟨0, 0⟩
  else
    let i := interval mantissa exponent
    match search i (magnitude i.value i.den) 17 1 with
    | some d => dropZeros 17 d
    | none => ⟨0, 0⟩

/-- Digits with a point: positional from `0.0001` up to sixteen places, with an exponent of at least two
digits beyond. -/
def text (d : Decimal) : List Char :=
  let digits := Text.decimalDigits d.digits
  let size := digits.length
  let point : Int := size + d.exponent
  if d.digits = 0 then ['0', '.', '0']
  else if -4 < point ∧ point ≤ 16 then
    if point ≤ 0 then '0' :: '.' :: List.replicate (-point).toNat '0' ++ digits
    else if size ≤ point then digits ++ List.replicate (point - size).toNat '0' ++ ['.', '0']
    else digits.take point.toNat ++ '.' :: digits.drop point.toNat
  else
    let e := point - 1
    let places := Text.decimalDigits e.natAbs
    let mantissa := match digits with
      | d :: rest => if rest.isEmpty then [d] else d :: '.' :: rest
      | [] => []
    mantissa ++ 'e' :: (if e < 0 then '-' else '+') ::
      (List.replicate (2 - places.length) '0' ++ places)

end Decimal

def Binary.unknownText : List Char := ['n', 'a', 'n']

/-- The text of a double: the fewest digits that read back, in a form that is no integer. -/
def Binary.text (x : Float) : List Char :=
  match Binary.ofFloat x with
  | .notNumber => unknownText
  | .infinite negative => if negative then ['-', 'i', 'n', 'f'] else ['i', 'n', 'f']
  | .finite negative mantissa exponent =>
    let digits := (Decimal.shortest mantissa exponent).text
    if negative then '-' :: digits else digits

end RoutineFlow
