import PooledPackets.Number.Quotient

/-!
# Decimal and binary numbers

A number that is written with digits is a decimal. To be computed with it is
replaced by the nearest number with a 53 bit mantissa. Both are compared
exactly, by cross-multiplication.
-/

namespace PooledPackets

/-- The decimal `digits * 10 ^ exponent`. -/
structure Decimal where
  digits : Nat
  exponent : Int
  deriving DecidableEq, Repr, Inhabited

namespace Decimal

def numerator (number : Decimal) : Nat :=
  number.digits * Nat.pow 10 number.exponent.toNat

def denominator (number : Decimal) : Nat :=
  Nat.pow 10 (-number.exponent).toNat

/-- The number of digits before the point: the least `k` such that the number
is below `10 ^ k`. -/
def magnitude (number : Decimal) : Int :=
  (Nat.toDigits 10 number.digits).length + number.exponent

end Decimal

/-- The binary number `mantissa * 2 ^ exponent`. -/
structure Binary where
  mantissa : Nat
  exponent : Int
  deriving DecidableEq, Repr, Inhabited

namespace Binary

def numerator (number : Binary) : Nat :=
  number.mantissa * Nat.pow 2 number.exponent.toNat

def denominator (number : Binary) : Nat :=
  Nat.pow 2 (-number.exponent).toNat

end Binary

/-- Which of a decimal and a binary number is larger. -/
def Decimal.compareBinary (decimal : Decimal) (binary : Binary) : Ordering :=
  compare (decimal.numerator * binary.denominator)
    (binary.numerator * decimal.denominator)

/-- A number as it is computed with. Finite numbers and infinities have a
sign, also zero has one. -/
inductive Binary64 where
  | finite (negative : Bool) (size : Binary)
  | infinite (negative : Bool)
  /-- What is no number at all. -/
  | undefined
  deriving DecidableEq, Repr, Inhabited

namespace Binary64

def leastExponent : Int := -1074

def greatestExponent : Int := 971

/-- A mantissa is below this. -/
def mantissaLimit : Nat := Nat.pow 2 53

/-- The exponent at which a fraction has a mantissa of 53 bits, or the least
exponent. -/
def fittingExponent (numerator denominator : Nat) : Int :=
  let guess : Int := (numerator.log2 : Int) - denominator.log2 - 52
  let size := numerator * Nat.pow 2 (-guess).toNat
  let least := Nat.pow 2 52 * denominator * Nat.pow 2 guess.toNat
  max leastExponent (if size < least then guess - 1 else guess)

/-- The binary number nearest to a positive fraction, if it has one below the
infinities. -/
def nearestFraction? (numerator denominator : Nat) : Option Binary :=
  let exponent := fittingExponent numerator denominator
  let mantissa := nearestQuotient (numerator * Nat.pow 2 (-exponent).toNat)
    (denominator * Nat.pow 2 exponent.toNat)
  let size : Binary :=
    if mantissa < mantissaLimit then ⟨mantissa, exponent⟩
    else ⟨mantissa / 2, exponent + 1⟩
  if greatestExponent < size.exponent then none else some size

/-- The binary number nearest to a decimal. Decimals far outside the range of
the binary numbers are settled by their magnitude alone. -/
def nearest? (number : Decimal) : Option Binary :=
  if number.digits = 0 then some ⟨0, leastExponent⟩
  else if number.magnitude < -330 then some ⟨0, leastExponent⟩
  else if 310 < number.magnitude then none
  else nearestFraction? number.numerator number.denominator

/-- The number nearest to a decimal with a sign. -/
def ofDecimal (negative : Bool) (number : Decimal) : Binary64 :=
  match nearest? number with
  | none => .infinite negative
  | some size => .finite negative size

end Binary64

end PooledPackets
