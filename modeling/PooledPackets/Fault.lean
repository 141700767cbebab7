import PooledPackets.Text.Record

/-!
# Broken invariants

A violation means that the bookkeeping of a pool can no longer be trusted.
Going on would corrupt a free list, so the run is stopped and no error is
handed back that a caller could ignore.
-/

namespace PooledPackets

/-- The place of a pool among the pools of a run. It tells pools apart also
where they were given the same number. -/
abbrev PoolId := Nat

/-- What happens to the run when a violation is found. -/
inductive FaultPolicy where
  /-- The whole process ends at once. -/
  | halt
  /-- The current run is abandoned. -/
  | panic
  deriving DecidableEq, Repr, Inhabited

/-- The ways in which the bookkeeping can be broken. -/
inductive Violation where
  /-- A segment came back to a pool that already lists it as free. -/
  | segmentAlreadyFree (pool : PoolId) (segment : Nat)
  /-- A segment came back while another one still hung behind it. -/
  | segmentStillLinked (pool : PoolId) (segment : Nat)
  /-- A segment came back to a pool that did not hand it out. -/
  | foreignSegment (pool owner : PoolId) (segment : Nat)
  /-- The numbers recorded for a packet disagree with its segments. -/
  | chainLengthMismatch (declared actual : Nat)
  /-- The payload of a segment is longer than the payload zone. -/
  | payloadOutOfZone (segment len max : Nat)
  deriving DecidableEq, Repr

namespace Violation

def message : Violation → String
  | segmentAlreadyFree pool segment =>
      s!"pool {pool}: segment {segment} released while already free"
  | segmentStillLinked pool segment =>
      s!"pool {pool}: segment {segment} released while still linked"
  | foreignSegment pool owner segment =>
      s!"pool {pool}: segment {segment} belongs to pool {owner}"
  | chainLengthMismatch declared actual =>
      s!"chain length mismatch: declared {declared}, segments hold {actual}"
  | payloadOutOfZone segment len max =>
      s!"segment {segment}: payload length {len} exceeds zone of {max}"

def text : Violation → String
  | segmentAlreadyFree pool segment =>
      Text.record "SegmentAlreadyFree"
        [("pool", toString pool), ("segment", toString segment)]
  | segmentStillLinked pool segment =>
      Text.record "SegmentStillLinked"
        [("pool", toString pool), ("segment", toString segment)]
  | foreignSegment pool owner segment =>
      Text.record "ForeignSegment"
        [("pool", toString pool), ("owner", toString owner),
          ("segment", toString segment)]
  | chainLengthMismatch declared actual =>
      Text.record "ChainLengthMismatch"
        [("declared", toString declared), ("actual", toString actual)]
  | payloadOutOfZone segment len max =>
      Text.record "PayloadOutOfZone"
        [("segment", toString segment), ("len", toString len),
          ("max", toString max)]

end Violation

/-- Why a run ended before its operations were done. -/
inductive Stop where
  /-- A violation was found, by a pool with the given policy. -/
  | fault (policy : FaultPolicy) (violation : Violation)
  /-- A second violation was found while the packets in hand were given back
  because of a first one; this ends the process under either policy. -/
  | collapse
  /-- A slice or a number was out of range. -/
  | outOfRange
  deriving DecidableEq, Repr

namespace Stop

/-- Whether the packets in hand are given back before the run ends. A process
that ends at once gives nothing back. -/
def givesBack : Stop → Bool
  | fault .halt _ => false
  | fault .panic _ => true
  | collapse => false
  | outOfRange => true

end Stop

end PooledPackets
