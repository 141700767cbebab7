/-!
# Spans of time

A span is counted in nanoseconds. Clock readings are counted in nanoseconds
since the start of the run.
-/

namespace PooledPackets

structure Duration where
  nanoseconds : Nat
  deriving DecidableEq, Repr, Inhabited

namespace Duration

def perSecond : Nat := 1000000000

def ofSeconds (seconds : Nat) : Duration :=
  ⟨seconds * perSecond⟩

def seconds (span : Duration) : Nat :=
  span.nanoseconds / perSecond

def subsecond (span : Duration) : Nat :=
  span.nanoseconds % perSecond

/-- The number of seconds that a clock reading stays below. -/
def clockLimit : Nat := Nat.pow 2 63

/-- The clock reading a span after another one, unless the clock cannot show
it. -/
def after? (now : Nat) (span : Duration) : Option Nat :=
  let reading := now + span.nanoseconds
  if reading / perSecond < clockLimit then some reading else none

end Duration

end PooledPackets
