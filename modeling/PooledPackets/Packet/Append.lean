import PooledPackets.Packet.Check

/-!
# Adding payload to a packet

Bytes go into the segments already in the chain, from the write position on.
If they do not fit and chaining is allowed, the missing segments are taken
from the pool in one step before anything is written; if they cannot all be
had, the packet stays as it is.
-/

namespace PooledPackets.Packet

open Operation

/-- The packet with segments added to the end of its chain. -/
def extend (packet : Packet) (segments : List Segment) : Packet :=
  { packet with
    chain := packet.chain ++ segments
    segmentCount := packet.segmentCount + segments.length }

/-- Makes room for so many more bytes. -/
def makeRoom (packet : Packet) (count : Nat) : Operation Packet := do
  let available := packet.available
  if count ≤ available then pure packet
  else
    let pool ← readPool packet.pool
    let maxPayload := pool.layout.maxPayload
    if pool.config.chaining then
      let missing := Layout.portions (count - available) maxPayload
      let segments ← Pool.checkOut packet.pool missing
      pure (packet.extend segments)
    else
      Operation.count packet.pool fun counters =>
        { counters with oversized := counters.oversized + 1 }
      fail (.oversizedPacket (packet.length + count) maxPayload)

/-- Fills segments one after the other. Besides the filled segments it says how
many were left behind full; there is no result if bytes are left over. -/
def fill : List Segment → Bytes → Option (List Segment × Nat)
  | [], _ => none
  | segment :: rest, bytes =>
      let filled := segment.append bytes
      let left := bytes.drop segment.remaining
      if left.isEmpty then some (filled :: rest, 0)
      else
        (fill rest left).map fun (others, passed) =>
          (filled :: others, passed + 1)

/-- Writes bytes behind the payload of a chain, from the write position on,
and moves that position along. If the chain ends too early, the result is the
violation in that. -/
def write (packet : Packet) (bytes : Bytes) : Except Violation Packet :=
  let before := packet.chain.take packet.writeIndex
  let chainSize := packet.chain.length
  if chainSize ≤ packet.writeIndex then
    .error (.chainLengthMismatch packet.segmentCount packet.writeIndex)
  else
    match fill (packet.chain.drop packet.writeIndex) bytes with
    | none => .error (.chainLengthMismatch packet.segmentCount chainSize)
    | some (filled, passed) =>
        .ok { packet with
          chain := before ++ filled
          writeIndex := packet.writeIndex + passed
          length := packet.length + bytes.length }

def append (packet : Packet) (bytes : Bytes) : Operation Packet := do
  if packet.isReleased then fail .released
  else if bytes.isEmpty then pure packet
  else
    let roomy ← packet.makeRoom bytes.length
    match roomy.write bytes with
    | .error violation => violated packet.pool violation
    | .ok written =>
        written.check
        pure written

end PooledPackets.Packet
