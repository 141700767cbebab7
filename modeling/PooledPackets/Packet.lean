import PooledPackets.Fragment.Header
import PooledPackets.Segment

/-!
# Packets

A packet is a chain of segments with the numbers that describe it. The
numbers are kept apart from the chain, so reading trusts them only as far as
the chain bears them out.
-/

namespace PooledPackets

/-- A chain of segments and its description. A released packet has no
segments left. -/
structure Packet where
  chain : List Segment
  /-- Payload bytes, as recorded. -/
  length : Nat
  /-- Segments in the chain, as recorded. -/
  segmentCount : Nat
  /-- The position in the chain of the segment that the next byte goes to. -/
  writeIndex : Nat
  /-- The place in a datagram, if the packet is a fragment. -/
  tag : Option FragmentTag
  /-- The pool that made the packet. -/
  pool : PoolId
  deriving DecidableEq

namespace Packet

/-! ## The payload -/

def isReleased (packet : Packet) : Bool :=
  packet.chain.isEmpty

def isEmpty (packet : Packet) : Bool :=
  packet.length == 0

/-- The payload that a chain of segments holds. -/
def chainBytes (chain : List Segment) : Bytes :=
  chain.flatMap Segment.payload

/-- The payload bytes that a chain of segments holds, counted. -/
def chainLength (chain : List Segment) : Nat :=
  chain.foldr (fun segment counted => segment.length + counted) 0

/-- The whole payload. -/
def toBytes (packet : Packet) : Bytes :=
  chainBytes packet.chain

/-- The payload, segment by segment, without the empty segments. -/
def chunks (packet : Packet) : List Bytes :=
  (packet.chain.map Segment.payload).filter (fun bytes => !bytes.isEmpty)

/-- The payload bytes that fit without another segment. -/
def available (packet : Packet) : Nat :=
  (packet.chain.drop packet.writeIndex).foldr
    (fun segment counted => segment.remaining + counted) 0

/-! ## Reading a range -/

/-- The pieces of a chain that cover the positions from `offset` up to
`stop`, for a chain that starts at `position`. There is no result if a piece
would have to end before it starts. -/
def sliceChain (offset stop : Nat) :
    (position : Nat) → List Segment → Option (List Bytes)
  | _, [] => some []
  | position, segment :: rest =>
      let payload := segment.payload
      let next := position + payload.length
      if next ≤ offset ∨ stop ≤ position then
        sliceChain offset stop next rest
      else
        let first := offset - position
        let last := min payload.length (stop - position)
        if first ≤ last then
          (sliceChain offset stop next rest).map
            (payload.between first last :: ·)
        else none

/-- The pieces of the payload that cover `len` bytes from `offset` on, cut off
at the recorded end of the packet. -/
def slices? (packet : Packet) (offset len : Nat) : Option (List Bytes) :=
  sliceChain offset (min (offset + len) packet.length) 0 packet.chain

/-- The start of a destination after the chunks were copied into it one after
the other, as far as they fit; second, how many bytes that were. -/
def copyChunks (room : Nat) : List Bytes → Bytes
  | [] => []
  | chunk :: rest =>
      let copied := chunk.take room
      copied ++ copyChunks (room - copied.length) rest

/-- Copies the payload into a destination, as far as it fits. -/
def copyTo (packet : Packet) (destination : Bytes) : Nat × Bytes :=
  let copied := copyChunks destination.length packet.chunks
  (copied.length, destination.overwrite 0 copied)

end Packet

/-- What a read at a position comes to. -/
inductive ReadOutcome where
  /-- So many bytes were copied; the destination afterwards. -/
  | copied (count : Nat) (destination : Bytes)
  | refused (error : BufferError)
  /-- A slice was out of range. -/
  | outOfRange
  deriving DecidableEq, Repr

namespace Packet

/-- Copies the payload from a position on into a destination. Less than the
whole destination is filled only at the end of the packet. -/
def readAt (packet : Packet) (offset : Nat) (destination : Bytes) :
    ReadOutcome :=
  if packet.isReleased then .refused .released
  else if packet.length < offset then
    .refused (.outOfBounds offset packet.length)
  else
    match packet.slices? offset destination.length with
    | none => .outOfRange
    | some pieces =>
        let copied := pieces.flatten
        if copied.length ≤ destination.length then
          .copied copied.length (destination.overwrite 0 copied)
        else .outOfRange

/-! ## Comparing -/

/-- Whether chunks spell the bytes from a position on. There is no result if a
chunk reaches beyond the bytes. -/
def chunksMatch? (bytes : Bytes) : (position : Nat) → List Bytes → Option Bool
  | _, [] => some true
  | position, chunk :: rest =>
      let stop := position + chunk.length
      if bytes.length < stop then none
      else if chunk == bytes.between position stop then
        chunksMatch? bytes stop rest
      else some false

/-- Whether the payload is the given bytes, found out without joining it. -/
def hasPayload? (packet : Packet) (bytes : Bytes) : Option Bool :=
  if packet.length = bytes.length then chunksMatch? bytes 0 packet.chunks
  else some false

/-! ## Making -/

/-- The position of the last segment with payload, counted from `index`. -/
def lastFilled? (index : Nat) : List Segment → Option Nat
  | [] => none
  | segment :: rest =>
      match lastFilled? (index + 1) rest with
      | some found => some found
      | none => if segment.isEmpty then none else some index

/-- The packet of a pool whose chain is made of given segments. They may hold
payload already; writing goes on in the last segment that does. -/
def ofSegments (pool : PoolId) (segments : List Segment) : Packet where
  chain := segments
  length := chainLength segments
  segmentCount := segments.length
  writeIndex := (lastFilled? 0 segments).getD 0
  tag := none
  pool := pool

def husk (packet : Packet) : Packet :=
  { packet with
    chain := [], length := 0, segmentCount := 0, writeIndex := 0, tag := none }

def withTag (packet : Packet) (tag : Option FragmentTag) : Packet :=
  { packet with tag }

/-! ## Writing into the reserves and over the payload -/

inductive Zone where
  | header
  | payload
  | trailer
  deriving DecidableEq, Repr

namespace Zone

/-- The bytes that a zone of a segment holds now. -/
def size (zone : Zone) (segment : Segment) : Nat :=
  match zone with
  | header => segment.layout.headerReserve
  | payload => segment.length
  | trailer => segment.layout.trailerReserve

/-- Writes bytes over the start of a zone, as far as they fit there. -/
def write (zone : Zone) (segment : Segment) (bytes : Bytes) : Segment :=
  match zone with
  | header => segment.writeHeader bytes
  | payload => segment.writePayload bytes
  | trailer => segment.writeTrailer bytes

end Zone

/-- Writes bytes over the start of a zone in every segment, or in the one at
a given position only. -/
def writeZone (packet : Packet) (zone : Zone) (only : Option Nat)
    (bytes : Bytes) : Packet :=
  { packet with
    chain := packet.chain.mapIdx fun index segment =>
      if only.all (· == index) then zone.write segment bytes else segment }

/-- How many bytes `writeZone` writes into each segment that it visits. -/
def zoneCounts (packet : Packet) (zone : Zone) (only : Option Nat)
    (bytes : Bytes) : List Nat :=
  let visited := match only with
    | none => packet.chain
    | some index => (packet.chain.drop index).take 1
  visited.map fun segment => min bytes.length (zone.size segment)

/-- Exchanges the chains of two packets and leaves the numbers that describe
them where they are. -/
def exchangeChains (first second : Packet) : Packet × Packet :=
  ({ first with chain := second.chain }, { second with chain := first.chain })

/-! ## Text -/

def text (packet : Packet) : String :=
  Text.record "Packet"
    [("pool", toString packet.pool), ("len", toString packet.length),
      ("segments", toString packet.segmentCount),
      ("fragment", Text.optional (packet.tag.map FragmentTag.text))]

/-- The first segment of the chain written as a record, if there is one. -/
def firstSegmentText (packet : Packet) : String :=
  Text.optional <| packet.chain.head?.map fun segment =>
    Text.record "Segment"
      [("id", toString segment.id), ("pool", toString segment.pool),
        ("len", toString segment.length),
        ("capacity", toString segment.layout.maxPayload),
        ("linked", toString (1 < packet.chain.length : Bool))]

end Packet

end PooledPackets
