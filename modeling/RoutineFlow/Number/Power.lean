namespace RoutineFlow.Power

/-- The power `base ^ e` with any exponent is the quotient of `numerator base e` and
`denominator base e`, one of which is 1. -/
def numerator (base : Nat) (e : Int) : Nat :=
  Nat.pow base e.toNat

def denominator (base : Nat) (e : Int) : Nat :=
  Nat.pow base (-e).toNat

end RoutineFlow.Power
