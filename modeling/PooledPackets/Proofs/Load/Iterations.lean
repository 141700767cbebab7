import PooledPackets.Proofs.Load.Outcomes
import PooledPackets.Proofs.Packets.Reading

/-!
# One round trip after the other

Whatever comes of a round trip, nothing of it is left at the start of the next
one. So what comes of a payload can be told beforehand, but for the number that
its datagram is given.
-/

namespace PooledPackets

/-- The refusal without the number of the datagram that it is about. -/
def BufferError.anonymous : BufferError → BufferError
  | .overlap _ offset len => .overlap 0 offset len
  | .reassemblyTimeout _ => .reassemblyTimeout 0
  | .holdLimitExceeded _ limit => .holdLimitExceeded 0 limit
  | .invalidFragment _ offset => .invalidFragment 0 offset
  | error => error

/-- Under any number a datagram is refused for the same reason. -/
theorem Extent.anonymous_gatherRefusal? (datagram other : UInt32)
    (limits : ReassemblyLimits) (unjoined : Option BufferError) :
    ∀ arrived left : List Extent,
      (gatherRefusal? datagram limits unjoined arrived left).map
          BufferError.anonymous =
        (gatherRefusal? other limits unjoined arrived left).map
          BufferError.anonymous
  | _, [] => rfl
  | arrived, extent :: left => by
      rw [gatherRefusal?, gatherRefusal?]
      split
      · rfl
      · split
        · split
          · rfl
          · exact anonymous_gatherRefusal? datagram other limits unjoined _
              left
        · rfl

namespace Load

open Operation

/-- The result without the number of a datagram. -/
def RoundResult.anonymous : RoundResult → RoundResult
  | .received fragments intact => .received fragments intact
  | .failed error => .failed error.anonymous

namespace Metrics

end Metrics

namespace Link

/-- What comes of a payload while nothing else is in use, if headers are read
as they were written. It is a matter of its length and the order of arrival. -/
def forecast (link : Link) (origin : Pools) (len : Nat)
    (choices : List Nat) : RoundResult :=
  match (link.refusal? origin len).or
    (link.gatherRefusal? origin 0 len choices) with
  | some error => .failed error.anonymous
  | none => .received (link.extents origin len).length true

/-- What is counted over some rounds. -/
def tally (link : Link) (origin : Pools) :
    (warmup : Nat) → List Round → Metrics → Metrics
  | _, [], metrics => metrics
  | warmup, round :: rounds, metrics =>
      link.tally origin (warmup - 1) rounds <|
        if warmup = 0 then
          metrics.record round.payload.length
            (link.forecast origin round.payload.length round.choices)
        else metrics

variable {link : Link} {origin : Pools} {len : Nat} {choices : List Nat}

theorem anonymous_gatherRefusal? (link : Link) (origin : Pools)
    (datagram other : UInt32) (len : Nat) (choices : List Nat) :
    (link.gatherRefusal? origin datagram len choices).map
        BufferError.anonymous =
      (link.gatherRefusal? origin other len choices).map
        BufferError.anonymous :=
  Extent.anonymous_gatherRefusal? ..

end Link

section Iterations

variable {link : Link} {origin pools : Pools} {round : Round}

end Iterations

namespace Settings

variable {settings : Settings} {origin : Pools}

instance (settings : Settings) : Decidable settings.Concordant :=
  inferInstanceAs (Decidable (_ → _))

/-- Nothing is left of any round trip: no datagram is pending, no fragment has
arrived and every segment of both pools is free. -/
structure AtRest (settings : Settings) (origin : Pools) (worker : Worker)
    (pools : Pools) : Prop where
  nothing_pending : worker.reassembler.pending = .empty
  nothing_arrived : worker.arrivals = []
  balanced : pools.Balanced origin []
  sender_free : (pools.get senderId).freeCount = settings.pool.segmentCount
  receiver_free : (pools.get receiverId).freeCount =
    settings.receiverConfig.segmentCount

theorem freeCount_of_idle {id : PoolId} {config : Config} {layout : Layout}
    {pools : Pools} (isNew : origin.get id = .ofLayout id config layout)
    (idle : pools.Consistent origin .never []) :
    (pools.get id).freeCount = config.segmentCount := by
  have counted := idle.freeCount_add id
  rw [isNew] at counted
  simpa [Pool.ofLayout] using counted

theorem Equips.atRest (equips : settings.Equips origin) {pools : Pools}
    (idle : pools.Consistent origin .never []) :
    settings.AtRest origin (settings.link.idleWorker origin) pools := by
  obtain ⟨_, isSender⟩ := equips.sender_eq
  obtain ⟨_, isReceiver⟩ := equips.receiver_eq
  exact ⟨rfl, rfl, idle.balanced, freeCount_of_idle isSender idle,
    freeCount_of_idle isReceiver idle⟩

end Settings

end Load

end PooledPackets
