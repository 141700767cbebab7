import PooledPackets.Operation

/-!
# Giving packets back

A packet goes back to its pool when it is released or when it is dropped. A
released packet stays behind as an empty husk; releasing it again is refused,
dropping it does nothing.
-/

namespace PooledPackets

/-- Segments taken out of their chain, in order, so that nothing hangs behind
any of them. -/
def Returned.unlinked (chain : List Segment) : List Returned :=
  chain.map fun segment => ⟨segment, []⟩

namespace Packet

open Operation

/-- Gives all segments of a packet back to its pool and counts a release. -/
def giveBack (packet : Packet) : Operation PUnit := do
  Pool.checkIn packet.pool (Returned.unlinked packet.chain)
  Operation.count packet.pool fun counters =>
    { counters with releases := counters.releases + 1 }

/-- Gives all segments back and leaves a husk. -/
def release (packet : Packet) : Operation Packet := do
  if packet.isReleased then
    Operation.count packet.pool fun counters =>
      { counters with invalidReleases := counters.invalidReleases + 1 }
    fail .doubleRelease
  else
    packet.giveBack
    pure packet.husk

/-- Ends the life of a packet: what it still holds goes back to its pool. -/
def drop (packet : Packet) : Operation PUnit :=
  if packet.isReleased then pure ⟨⟩ else packet.giveBack

/-- Drops packets one after the other. If one of them stops the run, the
others are given back on the way out. -/
def dropAll : List Packet → Operation PUnit
  | [] => pure ⟨⟩
  | packet :: rest => do
      holding rest packet.drop
      dropAll rest

end Packet

end PooledPackets
