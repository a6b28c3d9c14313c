import RoutineFlow.Number.Power

namespace RoutineFlow

/-- What a double stands for: an infinity, no number, or `± mantissa · 2 ^ exponent`. -/
inductive Binary where
  | notNumber
  | infinite (negative : Bool)
  | finite (negative : Bool) (mantissa : Nat) (exponent : Int)

namespace Binary

def ofBits (bits : Nat) : Binary :=
  let negative := bits / Nat.pow 2 63 % 2 == 1
  let exponent : Nat := bits / Nat.pow 2 52 % Nat.pow 2 11
  let fraction := bits % Nat.pow 2 52
  if exponent = 2047 then (if fraction = 0 then .infinite negative else .notNumber)
  else if exponent = 0 then .finite negative fraction (-1074)
  else .finite negative (fraction + Nat.pow 2 52) ((exponent : Int) - 1075)

def ofFloat (x : Float) : Binary :=
  ofBits x.toBits.toNat

/-- Division of naturals to the nearest whole number, a half going to the even neighbour. -/
def divideToEven (num den : Nat) : Nat :=
  let q := num / den
  let r := num % den
  if 2 * r > den ∨ (2 * r = den ∧ q % 2 = 1) then q + 1 else q

/-- The power of two at which `num / den` has 53 binary digits, or the smallest one there is. -/
def exponentOf (num den : Nat) : Int :=
  let guess : Int := (Nat.log2 num : Int) - Nat.log2 den - 52
  let small := num * Power.denominator 2 guess < den * Power.numerator 2 guess * Nat.pow 2 52
  max (-1074) (if small then guess - 1 else guess)

/-- The magnitude bits of the double nearest to `num / den`; those of infinity beyond the largest. -/
def magnitude (num den : Nat) : Nat :=
  if num = 0 then 0
  else
    let e := exponentOf num den
    let q := divideToEven (num * Power.denominator 2 e) (den * Power.numerator 2 e)
    min ((e + 1074).toNat * Nat.pow 2 52 + q) (2047 * Nat.pow 2 52)

/-- The double nearest to `± num / den`, a half going to the even neighbour. -/
def nearest (negative : Bool) (num den : Nat) : Float :=
  Float.ofBits (UInt64.ofNat ((if negative then Nat.pow 2 63 else 0) + magnitude num den))

def nearestInt (i : Int) : Float :=
  nearest (i < 0) i.natAbs 1

/-- The double nearest to `± digits · 10 ^ exponent`. -/
def nearestDecimal (negative : Bool) (digits : Nat) (exponent : Int) : Float :=
  if digits = 0 then nearest negative 0 1
  else
    let size := Nat.log2 digits * 3 / 10 + exponent
    if size > 320 then nearest negative (Nat.pow 2 1024) 1
    else if size + digits.log2 / 25 + 2 < -330 then nearest negative 0 1
    else nearest negative (digits * Power.numerator 10 exponent) (Power.denominator 10 exponent)

end Binary

end RoutineFlow
