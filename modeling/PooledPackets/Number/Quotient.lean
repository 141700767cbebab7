/-!
# Rounded quotients

The quotient of two numbers, rounded to the nearest number; a half goes to the
even one.
-/

namespace PooledPackets

/-- The quotient rounded to the nearest number, a half to the even one. What is
divided by nothing counts as nothing. -/
def nearestQuotient (numerator denominator : Nat) : Nat :=
  if denominator = 0 then 0
  else
    let quotient := numerator / denominator
    let twice := 2 * (numerator % denominator)
    if twice < denominator then quotient
    else if denominator < twice then quotient + 1
    else quotient + quotient % 2

end PooledPackets
