import PooledPackets.Config
import PooledPackets.Segment
import PooledPackets.Table
import PooledPackets.Text.Quoted

/-!
# Pools

A pool owns all segments that it will ever have. Free segments wait in a
queue: they are handed out from its front and come back to its end. A table
says for each segment whether it is out.
-/

namespace PooledPackets

/-- What a pool has counted since it was made. -/
structure Counters where
  allocations : Nat := 0
  releases : Nat := 0
  /-- Requests that found too few free segments. -/
  emptyRequests : Nat := 0
  /-- Requests that needed several segments where chaining is off. -/
  oversized : Nat := 0
  /-- Releases of a packet that was released before. -/
  invalidReleases : Nat := 0
  fragments : Nat := 0
  reassembled : Nat := 0
  reassemblyTimeouts : Nat := 0
  overlaps : Nat := 0
  deriving DecidableEq, Repr, Inhabited

/-- A segment on its way back to a pool, with the segments that still hang
behind it. -/
structure Returned where
  segment : Segment
  behind : List Segment

structure Pool where
  config : Config
  layout : Layout
  /-- The free segments, the next one to be handed out first. -/
  free : List Segment
  /-- Whether a segment is out, by its number. -/
  checkedOut : Array Bool
  counters : Counters
  /-- The number of the next datagram to be split. -/
  nextDatagram : UInt32

namespace Pool

/-- A new pool. All its segments are free, in the order of their numbers. -/
def ofLayout (id : PoolId) (config : Config) (layout : Layout) : Pool where
  config := config
  layout := layout
  free := Segment.fresh id layout config.segmentCount
  checkedOut := Array.replicate config.segmentCount false
  counters := {}
  nextDatagram := 1

/-- The bytes that are set aside for one segment. There is room to move its
start until the payload is aligned. -/
def segmentSpace (config : Config) (layout : Layout) : Nat :=
  layout.capacity + config.alignment.getD 1 - 1

/-- A new pool with a configuration that has a layout. There is none if its
segments are too large to be kept in one place. -/
def create? (id : PoolId) (config : Config) (layout : Layout) : Option Pool :=
  if segmentSpace config layout ≤ Bytes.maxSize then
    some (ofLayout id config layout)
  else none

/-- A new pool with a configuration, if the configuration is sound and its
segments can be kept. -/
def ofConfig? (id : PoolId) (config : Config) : Option Pool :=
  match config.validate with
  | .accepted layout => create? id config layout
  | .refused _ => none
  | .overflow => none

/-- A pool that never had a segment. -/
def absent : Pool where
  config := {}
  layout := .smallest
  free := []
  checkedOut := #[]
  counters := {}
  nextDatagram := 1

instance : Inhabited Pool := ⟨absent⟩

def freeCount (pool : Pool) : Nat :=
  pool.free.length

def isOut (pool : Pool) (id : Nat) : Bool :=
  (pool.checkedOut[id]?).getD false

def count (pool : Pool) (change : Counters → Counters) : Pool :=
  { pool with counters := change pool.counters }

/-- Notes for segments that they are out. -/
def markOut (checkedOut : Array Bool) (segments : List Segment) :
    Array Bool :=
  segments.foldl
    (fun table segment => table.setIfInBounds segment.id true) checkedOut

/-- Hands out so many segments from the front of the queue. -/
def take (pool : Pool) (count : Nat) : List Segment × Pool :=
  let handed := pool.free.take count
  (handed, { pool with
    free := pool.free.drop count
    checkedOut := markOut pool.checkedOut handed })

/-- The violation in handing a segment back to a pool, if there is one that the
segment itself shows. A segment is the pool's own if it has the number of a pool
with the same one. -/
def returnViolation? (same : PoolId → Bool) (id : PoolId)
    (returned : Returned) : Option Violation :=
  if !same returned.segment.pool then
    some (.foreignSegment id returned.segment.pool returned.segment.id)
  else if !returned.behind.isEmpty then
    some (.segmentStillLinked id returned.segment.id)
  else none

/-- Notes for segments, one after the other, that they are no longer out. A
segment that is not out cannot come back; one with a number beyond the table,
which may come up where two pools have the same number, is not out. -/
def markBack (id : PoolId) : List Segment → Array Bool →
    Except Violation (Array Bool)
  | [], checkedOut => .ok checkedOut
  | segment :: rest, checkedOut =>
      if (checkedOut[segment.id]?).getD false then
        markBack id rest (checkedOut.setIfInBounds segment.id false)
      else .error (.segmentAlreadyFree id segment.id)

/-- Puts segments at the end of the queue, emptied, in their order. -/
def putBack (id : PoolId) (segments : List Segment) (pool : Pool) :
    Except Violation Pool :=
  match markBack id segments pool.checkedOut with
  | .error violation => .error violation
  | .ok checkedOut =>
      .ok { pool with
        free := pool.free ++ segments.map Segment.clear
        checkedOut := checkedOut }

/-- Takes segments back, after all of them were looked at. -/
def takeBack (same : PoolId → Bool) (id : PoolId) (returned : List Returned)
    (pool : Pool) : Except Violation Pool :=
  match returned.findSome? (returnViolation? same id) with
  | some violation => .error violation
  | none => putBack id (returned.map Returned.segment) pool

def text (id : PoolId) (pool : Pool) : String :=
  let layout := Text.record "Layout"
    [("capacity", toString pool.layout.capacity),
      ("header_reserve", toString pool.layout.headerReserve),
      ("trailer_reserve", toString pool.layout.trailerReserve),
      ("max_payload", toString pool.layout.maxPayload)]
  Text.record "PacketPool"
    [("id", toString id), ("name", Text.quoted pool.config.name),
      ("layout", layout), ("free", toString pool.freeCount)]

end Pool

/-! ## Snapshots -/

/-- The state of a pool at one moment. -/
structure PoolInfo where
  name : String
  totalSegments : Nat
  freeSegments : Nat
  counters : Counters
  deriving DecidableEq, Repr

namespace PoolInfo

/-- The segments held by packets, unless more are free than there are. -/
def usedSegments? (info : PoolInfo) : Option Nat :=
  if info.freeSegments ≤ info.totalSegments then
    some (info.totalSegments - info.freeSegments)
  else none

/-- The part of the segments held by packets, in percent. -/
def utilization? (info : PoolInfo) : Option Float :=
  if info.totalSegments = 0 then some 0
  else
    info.usedSegments?.map fun used =>
      (UInt64.ofNat used).toFloat /
        (UInt64.ofNat info.totalSegments).toFloat * 100

end PoolInfo

/-- A snapshot of the pool. -/
def Pool.info (pool : Pool) : PoolInfo where
  name := pool.config.name
  totalSegments := pool.config.segmentCount
  freeSegments := pool.freeCount
  counters := pool.counters

/-! ## All pools of a run -/

/-- The pools of a run. Each was given a number when it was made, by which
segments and packets name it. -/
structure Pools where
  table : Table Pool
  /-- The numbers of the pools. Two pools may have been given the same one. -/
  numbers : Table UInt32
  deriving Inhabited

namespace Pools

/-- The pool in a place. A place that no pool was put in stands for a pool
without segments. -/
def get (pools : Pools) (id : PoolId) : Pool :=
  (pools.table.get? id).getD .absent

/-- The pools with one of them replaced. -/
def set (pools : Pools) (id : PoolId) (pool : Pool) : Pools :=
  { pools with table := pools.table.insert id pool }

/-- The pools with one more of them, under a number. -/
def add (pools : Pools) (id : PoolId) (number : UInt32) (pool : Pool) :
    Pools :=
  ⟨pools.table.insert id pool, pools.numbers.insert id number⟩

/-- Whether two pools cannot be told apart by their numbers. -/
def sameNumber (pools : Pools) (one other : PoolId) : Bool :=
  one == other ||
    match pools.numbers.get? one, pools.numbers.get? other with
    | some number, some number' => number == number'
    | _, _ => false

/-- New pools with the given configurations, in places from the given one on.
Where a configuration is refused, its place stays without a pool. -/
def tableFrom (next : PoolId) : List Config → Table Pool
  | [] => .empty
  | config :: rest =>
      match Pool.ofConfig? next config with
      | none => tableFrom (next + 1) rest
      | some pool => (tableFrom (next + 1) rest).insert next pool

/-- The numbers of new pools. They are counted in a word of 32 bits, so after
the last number comes the first one again; a configuration that is refused is
not counted. -/
def numbersFrom (next : PoolId) (number : UInt32) :
    List Config → Table UInt32
  | [] => .empty
  | config :: rest =>
      match config.validate with
      | .accepted _ =>
          (numbersFrom (next + 1) (number + 1) rest).insert next number
      | _ => numbersFrom (next + 1) number rest

/-- New pools with the given configurations, in their order. -/
def ofConfigs (configs : List Config) : Pools :=
  ⟨tableFrom 0 configs, numbersFrom 0 0 configs⟩

@[simp] theorem get_set (pools : Pools) (id sought : PoolId) (pool : Pool) :
    (pools.set id pool).get sought =
      if sought = id then pool else pools.get sought := by
  simp only [get, set, Table.get?_insert]
  split <;> rfl

@[simp] theorem get_add (pools : Pools) (id sought : PoolId)
    (number : UInt32) (pool : Pool) :
    (pools.add id number pool).get sought =
      if sought = id then pool else pools.get sought :=
  get_set pools id sought pool

@[simp] theorem sameNumber_self (pools : Pools) (id : PoolId) :
    pools.sameNumber id id = true := by
  simp [sameNumber]

end Pools

end PooledPackets
