import PooledPackets.Number.Quotient

/-!
# Columns and fixed places

Texts that stand below each other, and numbers with a fixed number of digits
after the point.
-/

namespace PooledPackets.Text

/-- A text with blanks after it up to a width. -/
def leftAligned (width : Nat) (text : String) : String :=
  text ++ String.ofList (List.replicate (width - text.length) ' ')

/-- A text with blanks ahead of it up to a width. -/
def rightAligned (width : Nat) (text : String) : String :=
  String.ofList (List.replicate (width - text.length) ' ') ++ text

/-- A number with zeros ahead of it up to a width. -/
def zeroPadded (width number : Nat) : String :=
  let digits := Nat.toDigits 10 number
  String.ofList (List.replicate (width - digits.length) '0' ++ digits)

/-- A fraction with so many digits after the point. -/
def fixed (places numerator denominator : Nat) : String :=
  let scaled := nearestQuotient (numerator * Nat.pow 10 places) denominator
  if places = 0 then toString scaled
  else
    toString (scaled / Nat.pow 10 places) ++ "." ++
      zeroPadded places (scaled % Nat.pow 10 places)

end PooledPackets.Text
