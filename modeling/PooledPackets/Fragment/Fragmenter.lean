import PooledPackets.Pool.Allocation

/-!
# Splitting a packet

A fragmenter walks over a packet and copies it, piece by piece, into
fragments of a pool. If the pool runs short the fragmenter stalls where it is;
it can go on from there or start over under the same datagram number.
-/

namespace PooledPackets

open Operation

/-- A walk over a packet that splits it into fragments. -/
structure Fragmenter where
  /-- The pool that the fragments are made in. -/
  pool : PoolId
  source : Packet
  datagram : UInt32
  /-- Payload bytes in each fragment but the last. -/
  fragmentLength : Nat
  /-- The position of the next fragment. -/
  offset : Nat
  /-- The last fragment was made. -/
  finished : Bool
  /-- A fragment could not be made. -/
  stalled : Bool
  deriving DecidableEq

namespace Fragmenter

/-- The number of fragments of the whole packet. -/
def count (fragmenter : Fragmenter) : Nat :=
  max (Layout.portions fragmenter.source.length fragmenter.fragmentLength) 1

/-- The least and the largest number of fragments still to come. A fragment
that cannot be made ends the sequence early. -/
def hint (fragmenter : Fragmenter) : Nat × Nat :=
  if fragmenter.finished || fragmenter.stalled then (0, 0)
  else
    let left := fragmenter.source.length - fragmenter.offset
    (1, max (Layout.portions left fragmenter.fragmentLength) 1)

/-- Goes on after a fragment that could not be made. -/
def resume (fragmenter : Fragmenter) : Fragmenter :=
  { fragmenter with stalled := false }

/-- Goes back to the first fragment. -/
def restart (fragmenter : Fragmenter) : Fragmenter :=
  { fragmenter with offset := 0, finished := false, stalled := false }

def nextLength (fragmenter : Fragmenter) : Nat :=
  min fragmenter.fragmentLength
    (fragmenter.source.length - fragmenter.offset)

/-- The fragment of a given length at the present position. -/
def build (fragmenter : Fragmenter) (len : Nat) : Operation Packet :=
  let finish := fragmenter.offset + len
  match fragmenter.source.slices? fragmenter.offset len with
  | none => do
      let _ ← Pool.allocate fragmenter.pool len
      halt .outOfRange
  | some pieces => do
      let fragment ← Pool.allocateWith fragmenter.pool len pieces
      pure <| fragment.withTag <| some {
        datagram := fragmenter.datagram
        offset := fragmenter.offset
        moreFragments := decide (finish < fragmenter.source.length) }

/-- The fragmenter behind the fragment of a given length. -/
def advance (fragmenter : Fragmenter) (len : Nat) : Fragmenter :=
  let offset := fragmenter.offset + len
  { fragmenter with
    offset
    finished := decide (fragmenter.source.length ≤ offset) }

/-- The next fragment, if there is one: the fragment or the reason why it could
not be made, and the fragmenter afterwards. -/
def next (fragmenter : Fragmenter) :
    Operation (Option (Except BufferError Packet) × Fragmenter) := do
  if fragmenter.finished || fragmenter.stalled then pure (none, fragmenter)
  else
    let len := fragmenter.nextLength
    match ← attempt (fragmenter.build len) with
    | .error error =>
        pure (some (.error error), { fragmenter with stalled := true })
    | .ok fragment =>
        Operation.count fragmenter.pool fun counters =>
          { counters with fragments := counters.fragments + 1 }
        pure (some (.ok fragment), fragmenter.advance len)

end Fragmenter

/-- A walk over a packet that splits it for a link which carries `mtu` payload
bytes at once, with fragments made in the given pool. -/
def Pool.fragmentForLink (id : PoolId) (packet : Packet) (mtu : Nat) :
    Operation Fragmenter := do
  if mtu = 0 then fail (.invalidMtu mtu)
  else if packet.isReleased then fail .released
  else
    let pool ← readPool id
    if mtu < packet.length ∧ pool.config.fragmentation = false then
      fail (.fragmentationDisabled packet.length mtu)
    else
      changePool id fun pool =>
        { pool with nextDatagram := pool.nextDatagram + 1 }
      pure {
        pool := id
        source := packet
        datagram := pool.nextDatagram
        fragmentLength :=
          if pool.config.chaining then mtu else min mtu pool.layout.maxPayload
        offset := 0
        finished := false
        stalled := false }

end PooledPackets
