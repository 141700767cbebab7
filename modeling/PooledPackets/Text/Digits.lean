/-!
# Digits

Numbers as they are written in a base. The digits beyond nine are letters, in
either case.
-/

namespace PooledPackets.Text

def digitValue (char : Char) : Nat :=
  if char.isDigit then char.toNat - '0'.toNat
  else char.toLower.toNat - 'a'.toNat + 10

/-- The number that digits stand for in a base. -/
def valueIn (base : Nat) (digits : List Char) : Nat :=
  digits.foldl (fun value digit => base * value + digitValue digit) 0

end PooledPackets.Text
