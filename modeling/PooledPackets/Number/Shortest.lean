import PooledPackets.Number.Binary64

/-!
# The shortest decimal

A binary number is written with the fewest digits that read back as that
number. Of several such decimals the nearest one is taken.
-/

namespace PooledPackets.Binary

/-- Whether the number below is nearer than the number above. -/
def isNarrowBelow (number : Binary) : Bool :=
  number.mantissa == Nat.pow 2 52 && Binary64.leastExponent < number.exponent

/-- The lower end of the range of the numbers that round to this one. -/
def lowerEnd (number : Binary) : Binary :=
  ⟨4 * number.mantissa - (if number.isNarrowBelow then 1 else 2),
    number.exponent - 2⟩

/-- The upper end of the range of the numbers that round to this one. -/
def upperEnd (number : Binary) : Binary :=
  ⟨4 * number.mantissa + 2, number.exponent - 2⟩

/-- Whether a decimal is read as this number. The ends of the range belong to
it if the mantissa is even. -/
def isReadFrom (number : Binary) (decimal : Decimal) : Bool :=
  let endsBelong := number.mantissa % 2 == 0
  let aboveLower := decimal.compareBinary number.lowerEnd
  let belowUpper := decimal.compareBinary number.upperEnd
  (aboveLower == .gt || (endsBelong && aboveLower == .eq)) &&
    (belowUpper == .lt || (endsBelong && belowUpper == .eq))

/-- The multiples of `10 ^ exponent` counted up to a number, rounded down. -/
def multiplesBelow (number : Binary) (exponent : Int) : Nat :=
  (number.numerator * Nat.pow 10 (-exponent).toNat) /
    (number.denominator * Nat.pow 10 exponent.toNat)

/-- The number of digits before the point, for a number that is not zero. -/
def magnitude (number : Binary) : Int :=
  let quotient := number.multiplesBelow (-400)
  (Nat.toDigits 10 quotient).length - 400

/-- The nearest multiple of `10 ^ exponent` that reads back, if there is one.
Of two equally near multiples the larger one is taken if `tiesUp` says so, else
the even one. -/
def nearestMultiple? (tiesUp : Bool) (number : Binary) (exponent : Int) :
    Option Decimal :=
  let count := number.multiplesBelow exponent
  let below : Decimal := ⟨count, exponent⟩
  let above : Decimal := ⟨count + 1, exponent⟩
  match number.isReadFrom below, number.isReadFrom above with
  | true, false => some below
  | false, true => some above
  | false, false => none
  | true, true =>
      let middle : Decimal := ⟨10 * count + 5, exponent - 1⟩
      match middle.compareBinary number with
      | .gt => some below
      | .lt => some above
      | .eq => some (if tiesUp || count % 2 == 1 then above else below)

/-- Seventeen digits always read back. -/
def mostDigits : Nat := 17

/-- The first decimal that reads back among those with 1, 2, 3 and so on
digits. -/
def firstRead? (tiesUp : Bool) (number : Binary) : Option Decimal :=
  (List.range mostDigits).findSome? fun (fewer : Nat) =>
    number.nearestMultiple? tiesUp (number.magnitude - (fewer + 1))

end PooledPackets.Binary

namespace PooledPackets.Decimal

/-- The same decimal without zeros at the end of its digits; at most `limit`
zeros are taken away. -/
def stripped (limit : Nat) (number : Decimal) : Decimal :=
  match limit with
  | 0 => number
  | limit + 1 =>
      if number.digits ≠ 0 ∧ number.digits % 10 = 0 then
        stripped limit ⟨number.digits / 10, number.exponent + 1⟩
      else number

/-- The shortest decimal that is read as a binary number. -/
def shortest (tiesUp : Bool) (number : Binary) : Decimal :=
  if number.mantissa = 0 then ⟨0, 0⟩
  else
    match number.firstRead? tiesUp with
    | some decimal => decimal.stripped Binary.mostDigits
    | none =>
        ⟨number.numerator * Nat.pow 5 (-number.exponent).toNat,
          min 0 number.exponent⟩

end PooledPackets.Decimal
