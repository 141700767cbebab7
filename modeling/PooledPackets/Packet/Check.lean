import PooledPackets.Operation

/-!
# Checking a packet against its chain

With error checking on, the numbers of a packet are compared with its chain
after each change. The comparison is redundant as long as nobody exchanges
segments between packets.
-/

namespace PooledPackets.Packet

open Operation

/-- The first disagreement between a packet and its chain, for a pool whose
segments hold at most `max` bytes: a segment that holds more, then the payload
length, then the number of segments. -/
def disagreement? (max : Nat) (packet : Packet) : Option Violation :=
  match packet.chain.find? (fun segment => max < segment.length) with
  | some segment => some (.payloadOutOfZone segment.id segment.length max)
  | none =>
      let actual := chainLength packet.chain
      if actual ≠ packet.length then
        some (.chainLengthMismatch packet.length actual)
      else if packet.chain.length ≠ packet.segmentCount then
        some (.chainLengthMismatch packet.segmentCount packet.chain.length)
      else none

/-- Stops the run if the pool checks its packets and this one disagrees with
its chain. -/
def check (packet : Packet) : Operation PUnit := do
  let pool ← readPool packet.pool
  if pool.config.errorChecking then
    match packet.disagreement? pool.layout.maxPayload with
    | some violation => violated packet.pool violation
    | none => pure ⟨⟩
  else pure ⟨⟩

/-- Makes a packet of a pool from segments, and checks it. -/
def assemble (pool : PoolId) (segments : List Segment) : Operation Packet := do
  let packet := ofSegments pool segments
  holding [packet] packet.check
  pure packet

end PooledPackets.Packet
