import PooledPackets.Text.Record

/-!
# Refusals

The ordinary, recoverable outcomes of operations on pools, packets, fragments
and reassembly. A broken invariant never shows up here.
-/

namespace PooledPackets

/-- Why an operation was refused. -/
inductive BufferError where
  /-- The payload does not fit and the chain cannot be extended. -/
  | oversizedPacket (requested capacity : Nat)
  /-- There are too few free segments. -/
  | poolExhausted (needed free : Nat)
  /-- The packet exceeds the link's limit and must not be split. -/
  | fragmentationDisabled (len mtu : Nat)
  /-- A link carries at least one byte. -/
  | invalidMtu (mtu : Nat)
  /-- Two fragments of one datagram claim the same bytes. -/
  | overlap (datagram : UInt32) (offset len : Nat)
  /-- The datagram was not complete in time. -/
  | reassemblyTimeout (datagram : UInt32)
  /-- Too many out-of-order fragments are held for one datagram. -/
  | holdLimitExceeded (datagram : UInt32) (limit : Nat)
  /-- Too many datagrams are incomplete at once. -/
  | tooManyDatagrams (limit : Nat)
  /-- A packet without a fragment tag was taken for a fragment. -/
  | notAFragment
  /-- A fragment disagrees with the end of its datagram. -/
  | invalidFragment (datagram : UInt32) (offset : Nat)
  | doubleRelease
  | released
  /-- A position lies beyond what can be addressed. -/
  | outOfBounds (offset len : Nat)
  /-- The header reserve cannot hold a fragment header. -/
  | headerTooSmall (reserve needed : Nat)
  /-- A frame is shorter than a fragment header. -/
  | truncated (len needed : Nat)
  deriving DecidableEq, Repr

namespace BufferError

def kind : BufferError → String
  | oversizedPacket .. => "OversizedPacket"
  | poolExhausted .. => "PoolExhausted"
  | fragmentationDisabled .. => "FragmentationDisabled"
  | invalidMtu .. => "InvalidMtu"
  | overlap .. => "Overlap"
  | reassemblyTimeout .. => "ReassemblyTimeout"
  | holdLimitExceeded .. => "HoldLimitExceeded"
  | tooManyDatagrams .. => "TooManyDatagrams"
  | notAFragment => "NotAFragment"
  | invalidFragment .. => "InvalidFragment"
  | doubleRelease => "DoubleRelease"
  | released => "Released"
  | outOfBounds .. => "OutOfBounds"
  | headerTooSmall .. => "HeaderTooSmall"
  | truncated .. => "Truncated"

def message : BufferError → String
  | oversizedPacket requested capacity =>
      s!"packet too large: {requested} bytes requested, {capacity} bytes available"
  | poolExhausted needed free =>
      s!"pool exhausted: {needed} segments needed, {free} free"
  | fragmentationDisabled len mtu =>
      s!"fragmentation disabled: {len} byte packet exceeds mtu {mtu}"
  | invalidMtu mtu => s!"invalid mtu: {mtu}"
  | overlap datagram offset len =>
      s!"datagram {datagram}: fragment at offset {offset} ({len} bytes) overlaps held data"
  | reassemblyTimeout datagram => s!"datagram {datagram}: reassembly timed out"
  | holdLimitExceeded datagram limit =>
      s!"datagram {datagram}: more than {limit} fragments held"
  | tooManyDatagrams limit =>
      s!"reassembly table full ({limit} datagrams in flight)"
  | notAFragment => "packet is not a fragment"
  | invalidFragment datagram offset =>
      s!"datagram {datagram}: fragment at offset {offset} is inconsistent"
  | doubleRelease => "packet already released"
  | released => "packet has been released"
  | outOfBounds offset len =>
      s!"offset {offset} out of bounds for {len} byte packet"
  | headerTooSmall reserve needed =>
      s!"header reserve of {reserve} bytes cannot hold a {needed} byte fragment header"
  | truncated len needed =>
      s!"truncated frame: {len} bytes, need at least {needed}"

/-- The fields of the refusal by name, where they have names. -/
def fields : BufferError → List (String × String)
  | oversizedPacket requested capacity =>
      [("requested", toString requested), ("capacity", toString capacity)]
  | poolExhausted needed free =>
      [("needed", toString needed), ("free", toString free)]
  | fragmentationDisabled len mtu =>
      [("len", toString len), ("mtu", toString mtu)]
  | invalidMtu _ => []
  | overlap datagram offset len =>
      [("datagram_id", toString datagram), ("offset", toString offset),
        ("len", toString len)]
  | reassemblyTimeout datagram => [("datagram_id", toString datagram)]
  | holdLimitExceeded datagram limit =>
      [("datagram_id", toString datagram), ("limit", toString limit)]
  | tooManyDatagrams limit => [("limit", toString limit)]
  | notAFragment => []
  | invalidFragment datagram offset =>
      [("datagram_id", toString datagram), ("offset", toString offset)]
  | doubleRelease => []
  | released => []
  | outOfBounds offset len =>
      [("offset", toString offset), ("len", toString len)]
  | headerTooSmall reserve needed =>
      [("reserve", toString reserve), ("needed", toString needed)]
  | truncated len needed =>
      [("len", toString len), ("needed", toString needed)]

def text (error : BufferError) : String :=
  match error with
  | invalidMtu mtu => Text.wrapped error.kind (toString mtu)
  | _ => Text.record error.kind error.fields

end BufferError

end PooledPackets
