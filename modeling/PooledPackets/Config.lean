import PooledPackets.Duration
import PooledPackets.Fault
import PooledPackets.Layout

/-!
# Pool configuration

A configuration is written down once and checked before a pool is made from
it. The check either derives the layout of the pool's segments or names the
first thing that is wrong.

The defaults describe an Ethernet link behind a bus: 44 bytes of link header
(14 Ethernet, 12 bus and 18 transport), no trailer, fragmentation and chaining
allowed.
-/

namespace PooledPackets

inductive ByteOrder where
  | little
  | big
  deriving DecidableEq, Repr, Inhabited

/-- Limits on the reassembly of fragmented datagrams. -/
structure ReassemblyLimits where
  /-- Fragments held out of order for one datagram. -/
  holdLimit : Nat := 64
  /-- Datagrams that may be incomplete at once. -/
  maxDatagrams : Nat := 16
  /-- How long a datagram may stay incomplete after its first fragment. -/
  timeout : Duration := .ofSeconds 60
  deriving DecidableEq, Repr, Inhabited

/-- Settings that are carried for other parts of a network stack. -/
structure StackProfile where
  ipv6 : Bool := false
  secure : Bool := true
  extendedNotify : Bool := true
  ipPacketFilter : Bool := true
  /-- The name resolver brings a packet pool of its own. -/
  dnsClientPacketPool : Bool := true
  /-- The lowest acceptable stratum of a time server. -/
  sntpMinStratum : Nat := 3
  /-- The link driver's command number for precise time messages. -/
  linkPtpSend : Nat := 51
  deriving DecidableEq, Repr, Inhabited

/-- The configuration of one pool. -/
structure Config where
  name : String := "default"
  /-- Bytes in a segment, reserves included. -/
  segmentCapacity : Nat := 1536
  segmentCount : Nat := 64
  /-- Bytes kept free ahead of the payload. -/
  headerReserve : Nat := 14 + 12 + 18
  /-- Bytes kept free behind the payload. -/
  trailerReserve : Nat := 0
  /-- The header reserve is rounded up to a multiple of this. -/
  alignment : Option Nat := none
  /-- Packets that exceed a link's limit may be split. -/
  fragmentation : Bool := true
  /-- A packet may take several segments. -/
  chaining : Bool := true
  byteOrder : ByteOrder := .little
  /-- The numbers of a packet are checked again after each change. -/
  errorChecking : Bool := false
  faultPolicy : FaultPolicy := .halt
  reassembly : ReassemblyLimits := {}
  stack : StackProfile := {}
  deriving DecidableEq, Repr, Inhabited

/-- What can be wrong with a configuration. -/
inductive ConfigError where
  | noSegments
  | tooManySegments (count : Nat)
  | noPayload (capacity header trailer : Nat)
  | alignmentNotPowerOfTwo (alignment : Nat)
  | capacityNotAligned (capacity alignment : Nat)
  | zeroHoldLimit
  | zeroDatagrams
  | invalidStratum (stratum : Nat)
  deriving DecidableEq, Repr

namespace ConfigError

def kind : ConfigError → String
  | noSegments => "NoSegments"
  | tooManySegments _ => "TooManySegments"
  | noPayload .. => "NoPayload"
  | alignmentNotPowerOfTwo _ => "AlignmentNotPowerOfTwo"
  | capacityNotAligned .. => "CapacityNotAligned"
  | zeroHoldLimit => "ZeroHoldLimit"
  | zeroDatagrams => "ZeroDatagrams"
  | invalidStratum _ => "InvalidStratum"

def message : ConfigError → String
  | noSegments => "segment_count must be at least 1"
  | tooManySegments count => s!"segment_count {count} exceeds the maximum of 65535"
  | noPayload capacity header trailer =>
      s!"segment_capacity {capacity} leaves no payload after {header} header and {trailer} trailer bytes"
  | alignmentNotPowerOfTwo alignment =>
      s!"alignment {alignment} is not a power of two"
  | capacityNotAligned capacity alignment =>
      s!"segment_capacity {capacity} is not a multiple of alignment {alignment}"
  | zeroHoldLimit => "reassembly hold_limit must be at least 1"
  | zeroDatagrams => "reassembly max_datagrams must be at least 1"
  | invalidStratum stratum => s!"sntp_min_stratum {stratum} outside 1..=15"

def text (error : ConfigError) : String :=
  match error with
  | noSegments | zeroHoldLimit | zeroDatagrams => error.kind
  | tooManySegments value | alignmentNotPowerOfTwo value
  | invalidStratum value => Text.wrapped error.kind (toString value)
  | noPayload capacity header trailer =>
      Text.record error.kind
        [("capacity", toString capacity), ("header", toString header),
          ("trailer", toString trailer)]
  | capacityNotAligned capacity alignment =>
      Text.record error.kind
        [("capacity", toString capacity), ("alignment", toString alignment)]

end ConfigError

/-- The outcome of checking a configuration. -/
inductive Verdict where
  | accepted (layout : Layout)
  | refused (error : ConfigError)
  /-- A sum of sizes does not fit a machine word. This ends the call in a build
  that checks its arithmetic. -/
  | overflow
  deriving DecidableEq, Repr

namespace Config

/-- The largest segment count: segments are numbered by 16 bit words. -/
def maxSegments : Nat := 65535

/-- The number of sizes that a machine word can tell apart. -/
def wordSize : Nat := Nat.pow 2 64

/-- A size, unless it does not fit a machine word. -/
def word? (size : Nat) : Option Nat :=
  if size < wordSize then some size else none

theorem word?_of_lt {size : Nat} (fits : size < wordSize) :
    word? size = some size :=
  if_pos fits

theorem word?_of_ge {size : Nat} (tooLarge : wordSize ≤ size) :
    word? size = none :=
  if_neg (Nat.not_lt_of_le tooLarge)

/-- Whether a number is one of 1, 2, 4, 8 and so on. -/
def isPowerOfTwo (number : Nat) : Bool :=
  number != 0 && Nat.pow 2 number.log2 == number

/-- The least multiple of `unit` that is not below `size`. -/
def roundUp (size unit : Nat) : Nat :=
  if size % unit = 0 then size else size + (unit - size % unit)

def alignmentError? (config : Config) : Option ConfigError :=
  match config.alignment with
  | none => none
  | some alignment =>
      if !isPowerOfTwo alignment then some (.alignmentNotPowerOfTwo alignment)
      else if config.segmentCapacity % alignment ≠ 0 then
        some (.capacityNotAligned config.segmentCapacity alignment)
      else none

/-- The header reserve after rounding, if that fits a machine word. -/
def roundedHeader? (config : Config) : Option Nat :=
  match config.alignment with
  | none => some config.headerReserve
  | some alignment => word? (roundUp config.headerReserve alignment)

/-- The check of everything that does not concern the segments. -/
def limitError? (config : Config) : Option ConfigError :=
  if config.reassembly.holdLimit = 0 then some .zeroHoldLimit
  else if config.reassembly.maxDatagrams = 0 then some .zeroDatagrams
  else if config.stack.sntpMinStratum < 1 ∨ 15 < config.stack.sntpMinStratum then
    some (.invalidStratum config.stack.sntpMinStratum)
  else none

def countError? (config : Config) : Option ConfigError :=
  if config.segmentCount = 0 then some .noSegments
  else if maxSegments < config.segmentCount then
    some (.tooManySegments config.segmentCount)
  else none

/-- Cuts a segment into a header of a given size, the trailer and what remains
for the payload, which must be something. -/
def zones (config : Config) (header : Nat) : Except ConfigError Layout :=
  if fits : header + config.trailerReserve < config.segmentCapacity then
    .ok {
      capacity := config.segmentCapacity
      headerReserve := header
      trailerReserve := config.trailerReserve
      maxPayload := config.segmentCapacity - (header + config.trailerReserve)
      zones_fill := by omega
      maxPayload_pos := by omega }
  else
    .error (.noPayload config.segmentCapacity header config.trailerReserve)

/-- Checks a configuration: the number of segments first, then the alignment,
the room for payload and last the remaining limits. -/
def validate (config : Config) : Verdict :=
  match config.countError?, config.alignmentError? with
  | some error, _ => .refused error
  | none, some error => .refused error
  | none, none =>
      match config.roundedHeader? with
      | none => .overflow
      | some header =>
          match word? (header + config.trailerReserve) with
          | none => .overflow
          | some _ =>
              match config.zones header, config.limitError? with
              | .error error, _ => .refused error
              | .ok _, some error => .refused error
              | .ok layout, none => .accepted layout

end Config

end PooledPackets
