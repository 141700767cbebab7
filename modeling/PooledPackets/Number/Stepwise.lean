import PooledPackets.Number.Binary64

/-!
# Decimals in rounded steps

A decimal is turned into a binary number by multiplying or dividing its digits
by a power of ten. The digits, the power and the result are rounded each by
itself, so that the result may differ from the nearest number in its last bit
where there are many digits.
-/

namespace PooledPackets.Binary

def zero : Binary :=
  ⟨0, Binary64.leastExponent⟩

/-- The number nearest to a fraction, if it is below the infinities. -/
def ofFraction? (numerator denominator : Nat) : Option Binary :=
  if numerator = 0 then some zero
  else Binary64.nearestFraction? numerator denominator

def times? (left right : Binary) : Option Binary :=
  ofFraction? (left.numerator * right.numerator)
    (left.denominator * right.denominator)

def over? (left right : Binary) : Option Binary :=
  ofFraction? (left.numerator * right.denominator)
    (left.denominator * right.numerator)

/-- The largest power of ten that is multiplied or divided by at once. -/
def greatestPower : Nat := 308

def tenTo? (power : Nat) : Option Binary :=
  ofFraction? (Nat.pow 10 power) 1

/-- A number multiplied by a power of ten. -/
def raised? (number : Binary) (power : Nat) : Option Binary := do
  if power ≤ greatestPower then number.times? (← tenTo? power)
  else if number.mantissa = 0 then some number
  else none

theorem sub_greatestPower_lt {power : Nat}
    (above : ¬power ≤ greatestPower) : power - greatestPower < power := by
  have positive : 0 < greatestPower := by decide
  omega

/-- A number divided by a power of ten, in as many steps as it takes. -/
def lowered? (number : Binary) (power : Nat) : Option Binary := do
  if _ : power ≤ greatestPower then number.over? (← tenTo? power)
  else if number.mantissa = 0 then some number
  else
    lowered? (← number.over? (← tenTo? greatestPower)) (power - greatestPower)
termination_by power
decreasing_by exact sub_greatestPower_lt ‹_›

/-- The number that a decimal comes to in rounded steps, if it is below the
infinities. -/
def ofDecimal? (decimal : Decimal) : Option Binary := do
  let digits ← ofFraction? decimal.digits 1
  if 0 ≤ decimal.exponent then digits.raised? decimal.exponent.toNat
  else digits.lowered? (-decimal.exponent).toNat

end PooledPackets.Binary
