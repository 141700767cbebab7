import PooledPackets.Packet.Append
import PooledPackets.Packet.Release

/-!
# New packets

A packet is made from the smallest number of segments that hold the payload
asked for. Either all of them are taken or none.
-/

namespace PooledPackets

open Operation

/-- Adds byte strings to a packet, one after the other. `inHand` names the
packets that are in the caller's hands while the packet looks as given: if a
byte string is refused they are dropped, in that order. -/
def Packet.appendAll (inHand : Packet → List Packet) (packet : Packet) :
    List Bytes → Operation Packet
  | [] => pure packet
  | bytes :: rest => do
      let longer ← onFailure
        (holding (inHand packet) (packet.append bytes))
        (Packet.dropAll (inHand packet))
      longer.appendAll inHand rest

namespace Pool

/-- An empty packet with room for so many payload bytes. -/
def allocate (id : PoolId) (len : Nat) : Operation Packet := do
  let pool ← readPool id
  let needed := pool.layout.segmentsFor len
  if 1 < needed ∧ pool.config.chaining = false then
    Operation.count id fun counters =>
      { counters with oversized := counters.oversized + 1 }
    fail (.oversizedPacket len pool.layout.maxPayload)
  else
    let segments ← checkOut id needed
    Operation.count id fun counters =>
      { counters with allocations := counters.allocations + 1 }
    Packet.assemble id segments

/-- A new packet with room for so many bytes, filled with the given pieces one
after the other. If they do not fit after all, the packet is dropped. -/
def allocateWith (id : PoolId) (len : Nat) (pieces : List Bytes) :
    Operation Packet := do
  let packet ← allocate id len
  packet.appendAll (fun filled => [filled]) pieces

/-- A new packet that holds the given bytes. -/
def packetFrom (id : PoolId) (bytes : Bytes) : Operation Packet :=
  allocateWith id bytes.length [bytes]

/-- A copy of a packet, payload and tag, made from segments of a pool. -/
def copyPacket (id : PoolId) (packet : Packet) : Operation Packet := do
  if packet.isReleased then fail .released
  else
    let copy ← allocateWith id packet.length packet.chunks
    pure (copy.withTag packet.tag)

/-- A fragment made from a received frame: a fragment header and the payload
behind it. -/
def receiveFrame (id : PoolId) (frame : Bytes) : Operation Packet := do
  let pool ← readPool id
  let header ← ofExcept (FragmentHeader.decode pool.config.byteOrder frame)
  let packet ← packetFrom id (frame.drop FragmentHeader.size)
  pure (packet.withTag (some header.toTag))

end Pool

/-- Writes the fragment header of a packet into the end of the header reserve
of its first segment, right before the payload. -/
def Packet.writeFragmentHeader (packet : Packet) : Operation Packet :=
  match packet.tag with
  | none => fail .notAFragment
  | some tag => do
      let pool ← readPool packet.pool
      if pool.layout.headerReserve < FragmentHeader.size then
        fail (.headerTooSmall pool.layout.headerReserve FragmentHeader.size)
      else
        let header ← ofExcept tag.toHeader
        match packet.chain with
        | [] => fail .released
        | first :: rest =>
            match first.writeHeaderEnd? (header.encode pool.config.byteOrder) with
            | none => halt .outOfRange
            | some stamped => pure { packet with chain := stamped :: rest }

end PooledPackets
