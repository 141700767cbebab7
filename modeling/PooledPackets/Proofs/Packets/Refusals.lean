import PooledPackets.Proofs.Contracts
import PooledPackets.Reassembly.Join

/-!
# Why packets are not made

Making a packet, adding bytes to one and joining fragments are refused for want
of room or of segments, or because a packet was released. What is wrong with a
fragment or with its datagram is never found out that late.
-/

namespace PooledPackets

open Operation

/-- Whether a refusal says that there is no room for a payload, or no packet to
put it into. -/
def BufferError.ofPayload : BufferError → Bool
  | .oversizedPacket .. => true
  | .poolExhausted .. => true
  | .outOfBounds .. => true
  | .released => true
  | _ => false

variable {α β : Type}

/-- Whatever an operation is refused for, it is for the sake of the payload. -/
def Operation.LacksOnly (operation : Operation α) : Prop :=
  ∀ pools, (operation pools).Satisfies (fun _ _ => True)
    (fun error _ => error.ofPayload = true) (fun _ => True)

namespace Operation.LacksOnly

variable {operation : Operation α} {next : α → Operation β}

theorem pure (value : α) : LacksOnly (Pure.pure value : Operation α) :=
  fun _ => trivial

theorem bind (first : LacksOnly operation)
    (second : ∀ value, LacksOnly (next value)) :
    LacksOnly (operation >>= next) :=
  fun pools => (first pools).bind fun value after _ => second value after

theorem fail {error : BufferError} (lacks : error.ofPayload = true) :
    LacksOnly (Operation.fail error : Operation α) :=
  fun _ => lacks

theorem ite {condition : Prop} [Decidable condition]
    {yes no : Operation α} (ifTrue : LacksOnly yes)
    (ifFalse : LacksOnly no) :
    LacksOnly (if condition then yes else no) :=
  fun pools => Outcome.Satisfies.ite (fun _ => ifTrue pools)
    (fun _ => ifFalse pools)

theorem readPool {id : PoolId} {next : Pool → Operation α}
    (goesOn : ∀ pool, LacksOnly (next pool)) :
    LacksOnly (Operation.readPool id >>= next) :=
  fun pools => goesOn (pools.get id) pools

theorem namesakes {id : PoolId} {next : (PoolId → Bool) → Operation α}
    (goesOn : ∀ same, LacksOnly (next same)) :
    LacksOnly (Operation.namesakes id >>= next) :=
  fun pools => goesOn _ pools

theorem count (id : PoolId) (change : Counters → Counters) :
    LacksOnly (Operation.count id change) :=
  fun _ => trivial

theorem violated (id : PoolId) (violation : Violation) :
    LacksOnly (Operation.violated id violation : Operation α) :=
  fun _ => trivial

theorem holding (packets : List Packet) (lacksOnly : LacksOnly operation) :
    LacksOnly (Operation.holding packets operation) :=
  fun pools => (lacksOnly pools).holding fun _ _ _ => trivial

theorem onFailure {cleanup : Operation PUnit.{1}}
    (lacksOnly : LacksOnly operation) :
    LacksOnly (Operation.onFailure operation cleanup) := by
  intro pools
  apply (lacksOnly pools).onFailure
  intro error after lacks
  exact Outcome.Satisfies.trivially.mono (fun _ _ _ => lacks)
    (fun _ _ _ => lacks) (fun _ _ => trivial)

end Operation.LacksOnly

open Operation.LacksOnly

namespace Pool

theorem checkIn_lacksOnly (id : PoolId) (returned : List Returned) :
    LacksOnly (checkIn id returned) := by
  apply LacksOnly.namesakes
  intro same
  apply LacksOnly.readPool
  intro pool
  cases takeBack same id returned pool with
  | error violation => exact .violated id violation
  | ok restored => exact fun _ => trivial

theorem checkOut_lacksOnly (id : PoolId) (needed : Nat) :
    LacksOnly (checkOut id needed) := by
  apply LacksOnly.readPool
  intro pool
  apply LacksOnly.ite
  · exact (LacksOnly.count id _).bind fun _ => .fail rfl
  · exact fun _ => trivial

end Pool

namespace Packet

theorem giveBack_lacksOnly (packet : Packet) :
    LacksOnly packet.giveBack :=
  (Pool.checkIn_lacksOnly _ _).bind fun _ => .count _ _

theorem drop_lacksOnly (packet : Packet) : LacksOnly packet.drop :=
  .ite (.pure _) packet.giveBack_lacksOnly

theorem check_lacksOnly (packet : Packet) : LacksOnly packet.check := by
  apply LacksOnly.readPool
  intro pool
  refine .ite ?_ (.pure _)
  cases packet.disagreement? pool.layout.maxPayload with
  | none => exact .pure _
  | some violation => exact .violated _ violation

theorem assemble_lacksOnly (id : PoolId) (segments : List Segment) :
    LacksOnly (assemble id segments) :=
  (LacksOnly.holding _ (check_lacksOnly _)).bind fun _ => .pure _

theorem makeRoom_lacksOnly (packet : Packet) (count : Nat) :
    LacksOnly (packet.makeRoom count) := by
  refine .ite (.pure _) (.readPool fun pool => .ite ?_ ?_)
  · exact (Pool.checkOut_lacksOnly _ _).bind fun _ => .pure _
  · exact (LacksOnly.count _ _).bind fun _ => .fail rfl

theorem append_lacksOnly (packet : Packet) (bytes : Bytes) :
    LacksOnly (packet.append bytes) := by
  refine .ite (.fail rfl) (.ite (.pure _) ?_)
  apply (packet.makeRoom_lacksOnly bytes.length).bind
  intro roomy
  cases roomy.write bytes with
  | error violation => exact .violated _ violation
  | ok written => exact written.check_lacksOnly.bind fun _ => .pure _

theorem appendAll_lacksOnly (inHand : Packet → List Packet) :
    ∀ (pieces : List Bytes) (packet : Packet),
      LacksOnly (packet.appendAll inHand pieces)
  | [], _ => .pure _
  | bytes :: rest, packet =>
      (LacksOnly.onFailure (.holding _ (packet.append_lacksOnly bytes))).bind
        fun longer => appendAll_lacksOnly inHand rest longer

end Packet

theorem Pool.allocate_lacksOnly (id : PoolId) (len : Nat) :
    LacksOnly (allocate id len) := by
  refine .readPool fun pool => .ite ?_ ?_
  · exact (LacksOnly.count _ _).bind fun _ => .fail rfl
  · apply (checkOut_lacksOnly id _).bind
    exact fun _ => (LacksOnly.count _ _).bind fun _ =>
      Packet.assemble_lacksOnly id _

namespace Reassembly

theorem splice_lacksOnly (id : PoolId) (fragments : List Packet) :
    LacksOnly (splice id fragments) :=
  (Pool.checkIn_lacksOnly id _).bind fun _ => Packet.assemble_lacksOnly id _

theorem copyInto_lacksOnly :
    ∀ (fragments : List Packet) (packet : Packet),
      LacksOnly (copyInto packet fragments)
  | [], _ => .pure _
  | fragment :: rest, packet => by
      apply (packet.appendAll_lacksOnly _ fragment.chunks).bind
      intro longer
      apply (LacksOnly.holding _ fragment.drop_lacksOnly).bind
      exact fun _ => copyInto_lacksOnly rest longer

theorem copy_lacksOnly (id : PoolId) (total : Nat) (own : Bool)
    (fragments : List Packet) : LacksOnly (copy id total own fragments) := by
  cases fragments with
  | nil => exact Pool.allocate_lacksOnly id 0
  | cons first rest =>
      refine .ite (copyInto_lacksOnly rest _) ?_
      apply (LacksOnly.onFailure (Pool.allocate_lacksOnly id total)).bind
      intro packet
      apply (packet.appendAll_lacksOnly _ first.chunks).bind
      intro filled
      apply (LacksOnly.holding _ first.drop_lacksOnly).bind
      exact fun _ => copyInto_lacksOnly rest filled

/-- A whole datagram that cannot be joined lacks room or segments. -/
theorem join_lacksOnly (id : PoolId) (assembly : Assembly) :
    LacksOnly (join id assembly) := by
  apply LacksOnly.namesakes
  intro same
  apply LacksOnly.readPool
  intro pool
  have counted : ∀ packet : Packet, LacksOnly (do
      Operation.count id fun counters =>
        { counters with reassembled := counters.reassembled + 1 }
      pure packet) :=
    fun packet => (LacksOnly.count _ _).bind fun _ => .pure packet
  dsimp only
  apply LacksOnly.ite
  · exact (splice_lacksOnly id _).bind counted
  · exact (copy_lacksOnly id _ _ _).bind counted

end Reassembly

end PooledPackets
