/-!
# The geometry of a segment

A segment is one buffer, cut into three zones: a header reserve, the payload
zone and a trailer reserve.
-/

namespace PooledPackets

/-- The sizes of the zones of a segment, in bytes. The zones fill the segment
and the payload zone is never empty. -/
structure Layout where
  capacity : Nat
  headerReserve : Nat
  trailerReserve : Nat
  maxPayload : Nat
  zones_fill : headerReserve + maxPayload + trailerReserve = capacity
  maxPayload_pos : 0 < maxPayload
  deriving DecidableEq, Repr

namespace Layout

def payloadStart (layout : Layout) : Nat :=
  layout.headerReserve

def payloadEnd (layout : Layout) : Nat :=
  layout.headerReserve + layout.maxPayload

theorem payloadEnd_le_capacity (layout : Layout) :
    layout.payloadEnd ≤ layout.capacity := by
  have := layout.zones_fill
  simp only [payloadEnd]
  omega

/-- The smallest number of whole portions that hold a number of bytes. -/
def portions (len portion : Nat) : Nat :=
  (len + portion - 1) / portion

/-- The segments that hold a number of payload bytes, at least one. -/
def segmentsFor (layout : Layout) (len : Nat) : Nat :=
  max (portions len layout.maxPayload) 1

/-- The layout of a segment of one payload byte, without reserves. -/
def smallest : Layout :=
  ⟨1, 0, 0, 1, rfl, Nat.one_pos⟩

instance : Inhabited Layout := ⟨smallest⟩

end Layout

end PooledPackets
