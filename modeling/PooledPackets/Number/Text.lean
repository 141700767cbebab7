import PooledPackets.Number.Shortest

/-!
# Numbers as text

A number is written with its shortest decimal. A point always shows that it is
not an integer, unless an exponent is written.
-/

namespace PooledPackets

/-- How the digits of a number are laid out. -/
structure NumberStyle where
  /-- Of two equally near shortest decimals the larger one is written. -/
  tiesUp : Bool
  /-- Whether a number of this magnitude is written without an exponent. -/
  isPositional : Int → Bool

namespace NumberStyle

/-- Never an exponent, however many zeros it takes. -/
def plain : NumberStyle where
  tiesUp := true
  isPositional := fun _ => true

/-- An exponent from 10^16 on and below 10^-5. -/
def compact : NumberStyle where
  tiesUp := false
  isPositional := fun magnitude => decide (-5 < magnitude ∧ magnitude ≤ 16)

end NumberStyle

namespace Decimal

def zeros (count : Nat) : List Char :=
  List.replicate count '0'

/-- The digits with a point after the digit that counts ones. -/
def positionalText (number : Decimal) : List Char :=
  let digits := Nat.toDigits 10 number.digits
  if 0 ≤ number.exponent then
    digits ++ zeros number.exponent.toNat ++ ['.', '0']
  else if number.magnitude ≤ 0 then
    ['0', '.'] ++ zeros (-number.magnitude).toNat ++ digits
  else
    digits.take number.magnitude.toNat ++ '.' ::
      digits.drop number.magnitude.toNat

/-- The digits with a point after the first one, if there are more, and an
exponent with its sign. -/
def exponentText (number : Decimal) : List Char :=
  let digits := Nat.toDigits 10 number.digits
  let mantissa :=
    if digits.length = 1 then digits
    else digits.take 1 ++ '.' :: digits.drop 1
  let sign := if 1 ≤ number.magnitude then ['+'] else []
  mantissa ++ 'e' :: sign ++ (toString (number.magnitude - 1)).toList

end Decimal

namespace Binary64

def signText (negative : Bool) : String :=
  if negative then "-" else ""

def text (style : NumberStyle) : Binary64 → String
  | undefined => "NaN"
  | infinite negative => signText negative ++ "inf"
  | finite negative size =>
      let decimal := Decimal.shortest style.tiesUp size
      let digits :=
        if style.isPositional decimal.magnitude then decimal.positionalText
        else decimal.exponentText
      signText negative ++ String.ofList digits

end Binary64

end PooledPackets
