import PooledPackets.Pool.Allocation
import PooledPackets.Reassembly.Assembly

/-!
# Joining fragments

The fragments of a complete datagram become one packet. Where chaining is
allowed and all fragments are the pool's own, their segments are linked into
one chain and no payload moves. Otherwise the payload is copied: behind the
first fragment if all are the pool's own, or into a new packet.
-/

namespace PooledPackets.Reassembly

open Operation

/-- The segments to keep and the empty ones to give back. If all are empty the
last one is kept. -/
def sortOut (segments : List Segment) : List Segment × List Segment :=
  let filled := segments.filter (fun segment => !segment.isEmpty)
  let spare := segments.filter Segment.isEmpty
  if filled.isEmpty then
    (spare.drop (spare.length - 1), spare.take (spare.length - 1))
  else (filled, spare)

/-- Links the segments of all fragments into one chain. -/
def splice (pool : PoolId) (fragments : List Packet) : Operation Packet := do
  let (kept, spare) := sortOut (fragments.flatMap Packet.chain)
  Pool.checkIn pool (Returned.unlinked spare)
  Packet.assemble pool kept

/-- Copies the payload of fragments behind that of a packet. Each fragment is
dropped once it was copied. -/
def copyInto (packet : Packet) : List Packet → Operation Packet
  | [] => pure packet
  | fragment :: rest => do
      let longer ← packet.appendAll
        (fun packet => fragment :: rest ++ [packet]) fragment.chunks
      holding (longer :: rest) fragment.drop
      copyInto longer rest

/-- Copies the payload of all fragments into one packet, which is the first
fragment itself if that is the pool's own. -/
def copy (pool : PoolId) (total : Nat) (own : Bool) :
    List Packet → Operation Packet
  | [] => Pool.allocate pool 0
  | first :: rest => do
      if own then copyInto (first.withTag none) rest
      else
        let packet ← onFailure (Pool.allocate pool total)
          (Packet.dropAll (first :: rest))
        let filled ← packet.appendAll
          (fun packet => packet :: first :: rest) first.chunks
        holding (filled :: rest) first.drop
        copyInto filled rest

/-- Joins the fragments of a complete datagram into one packet of a pool. -/
def join (pool : PoolId) (assembly : Assembly) : Operation Packet := do
  let same ← namesakes pool
  let config := (← readPool pool).config
  let fragments := assembly.fragments
  let own := fragments.all fun fragment => same fragment.pool
  let packet ←
    if config.chaining && own then splice pool fragments
    else copy pool assembly.received own fragments
  Operation.count pool fun counters =>
    { counters with reassembled := counters.reassembled + 1 }
  pure packet

end PooledPackets.Reassembly
