import PooledPackets.Duration.Text
import PooledPackets.Load.Log
import PooledPackets.Load.Traffic

/-!
# Reports of a load run

What a run says about its configuration before it starts and about its result
at the end.
-/

namespace PooledPackets.Load

/-- Latencies in nanoseconds: the median, some percentiles and the largest
one. -/
structure Latencies where
  p50 : Nat := 0
  p90 : Nat := 0
  p99 : Nat := 0
  p999 : Nat := 0
  longest : Nat := 0
  deriving DecidableEq, Repr, Inhabited

namespace Latencies

/-- The value below which so many thousandths of sorted values lie. -/
def percentile (sorted : Array Nat) (thousandths : Nat) : Nat :=
  let place := (sorted.size * thousandths + 999) / 1000
  (sorted[place - 1]?).getD 0

def ofSorted (sorted : Array Nat) : Latencies where
  p50 := percentile sorted 500
  p90 := percentile sorted 900
  p99 := percentile sorted 990
  p999 := percentile sorted 999
  longest := percentile sorted 1000

end Latencies

/-- What a run has measured. -/
structure Measurements where
  metrics : Metrics
  /-- How long it took to fill packets. -/
  build : Latencies
  /-- How long round trips took. -/
  trip : Latencies
  /-- Both pools after the run. -/
  pools : Pools

namespace Measurements

/-- Nothing was measured. -/
def nothing (pools : Pools) : Measurements where
  metrics := {}
  build := {}
  trip := {}
  pools := pools

end Measurements

namespace Report

def lines (texts : List String) : String :=
  String.join (texts.map (· ++ "\n"))

/-- The line about a pool before the run. -/
def poolLine (pool : Pool) : String :=
  let layout := pool.layout
  let name := Text.leftAligned 10 pool.config.name
  s!"  {name} {pool.config.segmentCount} x {layout.capacity} bytes (header {layout.headerReserve}, payload {layout.maxPayload}, trailer {layout.trailerReserve}), chaining={pool.config.chaining}"

/-- The way in which fragments are delivered. -/
def deliveryText (workload : Workload) : String :=
  (if workload.linkFrames then "frames" else "copy") ++
    (if workload.shuffle then ", shuffled" else "")

/-- The configuration of a run. -/
def configuration (settings : Settings) (pools : Pools) : String :=
  let workload := settings.workload
  let range := workload.payload
  lines [
    "packet-bench configuration:",
    poolLine (pools.get Settings.senderId),
    poolLine (pools.get Settings.receiverId),
    "  threads:   " ++ toString settings.schedule.threads,
    "  duration:  " ++ settings.schedule.duration.text,
    "  warmup:    " ++ settings.schedule.warmup.text,
    "  mtu:       " ++ toString workload.mtu,
    s!"  payload:   {range.least}..={range.greatest} bytes",
    "  delivery:  " ++ deliveryText workload,
    ""]

def headings : String :=
  let columns := [(12, "dgram/sec"), (10, "Mbit/s"), (7, "tx%"), (7, "rx%"),
    (10, "p50(us)"), (10, "p99(us)"), (10, "max(us)")]
  lines [
    " ".intercalate (columns.map fun (width, name) =>
      Text.rightAligned width name),
    String.ofList (List.replicate 74 '-')]

/-- A latency in microseconds. -/
def microseconds (nanoseconds : Nat) : String :=
  Text.fixed 1 nanoseconds 1000

/-- The line about some latencies. -/
def latencyLine (label : String) (latencies : Latencies) : String :=
  "  " ++ Text.leftAligned 6 label ++ " latency (us): p50=" ++
    microseconds latencies.p50 ++ "  p90=" ++ microseconds latencies.p90 ++
    "  p99=" ++ microseconds latencies.p99 ++ "  p999=" ++
    microseconds latencies.p999 ++ "  max=" ++ microseconds latencies.longest

/-- The line about a pool after the run. -/
def poolSummary (info : PoolInfo) : String :=
  let name := Text.leftAligned 8 info.name
  let counters := info.counters
  s!"  pool {name} free {info.freeSegments}/{info.totalSegments}  allocs {counters.allocations}  releases {counters.releases}  empty {counters.emptyRequests}  fragments {counters.fragments}  reassembled {counters.reassembled}  timeouts {counters.reassemblyTimeouts}  overlaps {counters.overlaps}"

/-- The line about the datagrams that were received. -/
def completedLine (schedule : Schedule) (metrics : Metrics) : String :=
  let rate := Text.fixed 0 (metrics.completed * Duration.perSecond)
    schedule.duration.nanoseconds
  let each := Text.fixed 1 metrics.fragments metrics.completed
  s!"  completed:     {metrics.completed} ({rate}/sec, {each} fragments each)"

/-- The result of a run. -/
def summary (settings : Settings) (measured : Measurements) : String :=
  let metrics := measured.metrics
  lines [
    "",
    "=== Final Summary ===",
    "  datagrams:     " ++ toString metrics.datagrams,
    completedLine settings.schedule metrics,
    "  exhausted:     " ++ toString metrics.poolExhausted,
    "  oversized:     " ++ toString metrics.oversized,
    "  other errors:  " ++ toString metrics.errors,
    "  corrupt:       " ++ toString metrics.corrupt,
    "",
    latencyLine "BUILD" measured.build,
    latencyLine "TRIP" measured.trip,
    "",
    poolSummary (measured.pools.get Settings.senderId).info,
    poolSummary (measured.pools.get Settings.receiverId).info]

end Report

end PooledPackets.Load
