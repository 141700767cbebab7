import PooledPackets.Arrangement
import PooledPackets.Load.Settings
import PooledPackets.Pool.Allocation
import PooledPackets.Fragment.Fragmenter
import PooledPackets.Reassembly.Reassembler

/-!
# Workers

A worker sends one datagram after the other over a link: it fills a packet,
splits it, brings the fragments to the receiving pool and reassembles them
there. Whatever goes wrong in one round trip is cleared away before the next
one.
-/

namespace PooledPackets.Load

open Operation

/-- A way from one pool to another one. -/
structure Link where
  sender : PoolId
  receiver : PoolId
  mtu : Nat
  /-- Fragments cross as frames with a header. -/
  frames : Bool
  deriving DecidableEq, Repr

/-- One datagram to send. -/
structure Round where
  payload : Bytes
  /-- The clock reading when the fragments arrive. -/
  now : Nat
  /-- The order in which the fragments arrive. -/
  choices : List Nat
  /-- The order in which incomplete datagrams are thrown away if the round trip
  fails. -/
  clearing : List Nat := []
  deriving DecidableEq, Repr

/-- A worker and what it holds. -/
structure Worker where
  link : Link
  reassembler : Reassembler
  /-- The fragments that have arrived and were not yet looked at. -/
  arrivals : List Packet

/-! ## Over the link -/

/-- The frame that carries a fragment: the header that was written ahead of
the payload, and the payload. -/
def frameOf (fragment : Packet) : Bytes :=
  let zone := fragment.chain.head?.elim [] Segment.header
  zone.drop (zone.length - FragmentHeader.size) ++ fragment.toBytes

/-- Runs an operation and drops a packet after it, however it ends. -/
def thenDrop {α : Type} (operation : Operation α) (packet : Packet) :
    Operation α := do
  let result ← attempt operation
  packet.drop
  ofExcept result

namespace Link

/-- Brings a fragment to the receiving pool. The fragment itself is dropped. -/
def transfer (link : Link) (fragment : Packet) : Operation Packet := do
  if link.frames then
    match ← attempt fragment.writeFragmentHeader with
    | .error error =>
        fragment.drop
        fail error
    | .ok stamped =>
        thenDrop (Pool.receiveFrame link.receiver (frameOf stamped)) stamped
  else thenDrop (Pool.copyPacket link.receiver fragment) fragment

/-- Brings fragments over for as long as that works; at most `count` of them.
The result holds what arrived, and why no more did. -/
def transferAll (link : Link) : (count : Nat) → Fragmenter → List Packet →
    Operation (List Packet × Option BufferError)
  | 0, _, arrivals => pure (arrivals, none)
  | count + 1, fragmenter, arrivals => do
      match ← fragmenter.next with
      | (none, _) => pure (arrivals, none)
      | (some (.error error), _) => pure (arrivals, some error)
      | (some (.ok fragment), fragmenter) =>
          match ← attempt (link.transfer fragment) with
          | .error error => pure (arrivals, some error)
          | .ok arrival =>
              link.transferAll count fragmenter (arrivals ++ [arrival])

/-- Splits a packet and brings the fragments over. The packet is dropped. -/
def send (link : Link) (source : Packet) :
    Operation (List Packet × Option BufferError) := do
  match ← attempt (Pool.fragmentForLink link.sender source link.mtu) with
  | .error error =>
      source.drop
      pure ([], some error)
  | .ok fragmenter =>
      let result ← link.transferAll fragmenter.count fragmenter []
      source.drop
      pure result

end Link

/-- Reassembles the fragments that arrived. A later datagram takes the place of
an earlier one. -/
def collect (now : Nat) : Reassembler → (whole : Option Packet) →
    List Packet → Operation (Except BufferError (Option Packet) × Reassembler)
  | reassembler, whole, [] => pure (.ok whole, reassembler)
  | reassembler, whole, fragment :: rest => do
      match ← reassembler.push fragment now with
      | (.error error, reassembler) =>
          Packet.dropAll rest
          Packet.dropAll whole.toList
          pure (.error error, reassembler)
      | (.ok none, reassembler) => collect now reassembler whole rest
      | (.ok (some packet), reassembler) =>
          Packet.dropAll whole.toList
          collect now reassembler (some packet) rest

namespace Worker

/-- A worker before its first round trip. It needs room for the largest frame
that crosses its link. -/
def start (link : Link) : Operation Worker := do
  if Bytes.maxSize < link.mtu + FragmentHeader.size then halt .outOfRange
  else
    let reassembler ← Reassembler.forPool link.receiver
    pure { link, reassembler, arrivals := [] }

/-- Sends a datagram and reassembles it. The result is the datagram as it was
received and the number of its fragments, or why it was not received. -/
def roundTrip (worker : Worker) (round : Round) :
    Operation (Except BufferError (Packet × Nat) × Worker) := do
  match ← attempt (Pool.packetFrom worker.link.sender round.payload) with
  | .error error => pure (.error error, worker)
  | .ok source =>
      Packet.dropAll worker.arrivals
      match ← worker.link.send source with
      | (arrivals, some error) =>
          pure (.error error, { worker with arrivals })
      | (arrivals, none) =>
          let ordered := arrange round.choices arrivals
          match ← collect round.now worker.reassembler none ordered with
          | (.error error, reassembler) =>
              pure (.error error, { worker with reassembler, arrivals := [] })
          | (.ok none, reassembler) =>
              pure (.error (.reassemblyTimeout 0),
                { worker with reassembler, arrivals := [] })
          | (.ok (some packet), reassembler) =>
              pure (.ok (packet, arrivals.length),
                { worker with reassembler, arrivals := [] })

/-- Throws away what a failed round trip left behind. -/
def reset (worker : Worker) (choices : List Nat) : Operation Worker := do
  let reassembler ← worker.reassembler.clear choices
  Packet.dropAll worker.arrivals
  pure { worker with reassembler, arrivals := [] }

end Worker

/-- How a round trip ended. -/
inductive RoundResult where
  /-- The datagram was received; whether it is the one that was sent. -/
  | received (fragments : Nat) (intact : Bool)
  | failed (error : BufferError)
  deriving DecidableEq, Repr

namespace Worker

/-- One round trip from start to end: what was received is compared with what
was sent and dropped, and a failure is cleared away. -/
def iterate (worker : Worker) (round : Round) :
    Operation (RoundResult × Worker) := do
  match ← worker.roundTrip round with
  | (.ok (packet, fragments), worker) =>
      match packet.hasPayload? round.payload with
      | none => halt .outOfRange
      | some intact =>
          packet.drop
          pure (.received fragments intact, worker)
  | (.error error, worker) =>
      let worker ← worker.reset round.clearing
      pure (.failed error, worker)

end Worker

/-! ## Counting -/

/-- What is counted in the measured part of a run. -/
structure Metrics where
  datagrams : Nat := 0
  fragments : Nat := 0
  bytes : Nat := 0
  completed : Nat := 0
  poolExhausted : Nat := 0
  oversized : Nat := 0
  errors : Nat := 0
  corrupt : Nat := 0
  deriving DecidableEq, Repr, Inhabited

namespace Metrics

/-- Counts a failure by its cause. -/
def countFailure (metrics : Metrics) : BufferError → Metrics
  | .poolExhausted .. =>
      { metrics with poolExhausted := metrics.poolExhausted + 1 }
  | .oversizedPacket .. => { metrics with oversized := metrics.oversized + 1 }
  | _ => { metrics with errors := metrics.errors + 1 }

/-- Counts the end of a round trip with so many payload bytes. -/
def record (metrics : Metrics) (len : Nat) (result : RoundResult) : Metrics :=
  let counted := { metrics with datagrams := metrics.datagrams + 1 }
  match result with
  | .failed error => counted.countFailure error
  | .received fragments intact =>
      let counted := { counted with
        fragments := counted.fragments + fragments
        bytes := counted.bytes + len }
      if intact then { counted with completed := counted.completed + 1 }
      else { counted with corrupt := counted.corrupt + 1 }

end Metrics

namespace Worker

/-- Makes round trips one after the other. The first `warmup` of them are not
counted. -/
def runRounds : (warmup : Nat) → List Round → Worker → Metrics →
    Operation (Metrics × Worker)
  | _, [], worker, metrics => pure (metrics, worker)
  | warmup, round :: rounds, worker, metrics => do
      let (result, worker) ← worker.iterate round
      let metrics :=
        if warmup = 0 then metrics.record round.payload.length result
        else metrics
      runRounds (warmup - 1) rounds worker metrics

/-- Runs a worker over a link from its first to its last round trip. Choices
give the order in which it throws away what is left at the end. -/
def run (link : Link) (warmup : Nat) (rounds : List Round)
    (choices : List Nat) : Operation Metrics := do
  let worker ← start link
  let (metrics, worker) ← worker.runRounds warmup rounds {}
  let _ ← worker.reset choices
  pure metrics

end Worker

end PooledPackets.Load
