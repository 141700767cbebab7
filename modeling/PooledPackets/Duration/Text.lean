import PooledPackets.Duration
import PooledPackets.Text.Column

/-!
# Spans of time as text

A span is written in the largest unit that it reaches, with as many digits
after the point as it needs.
-/

namespace PooledPackets.Duration

/-- A number of units and what is left of the next one, in digits after a
point. -/
def unitText (nanoseconds places : Nat) (unit : String) : String :=
  let whole := nanoseconds / Nat.pow 10 places
  let rest := nanoseconds % Nat.pow 10 places
  let digits := (Text.zeroPadded places rest).toList.reverse
  let kept := (digits.dropWhile (· == '0')).reverse
  if kept.isEmpty then toString whole ++ unit
  else toString whole ++ "." ++ String.ofList kept ++ unit

def text (span : Duration) : String :=
  if Nat.pow 10 9 ≤ span.nanoseconds then unitText span.nanoseconds 9 "s"
  else if Nat.pow 10 6 ≤ span.nanoseconds then unitText span.nanoseconds 6 "ms"
  else if Nat.pow 10 3 ≤ span.nanoseconds then unitText span.nanoseconds 3 "µs"
  else toString span.nanoseconds ++ "ns"

end PooledPackets.Duration
