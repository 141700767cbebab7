import PooledPackets.Fragment.Fragmenter
import PooledPackets.Proofs.Contracts
import PooledPackets.Proofs.Packets.Ranges
import PooledPackets.Reassembly.Reassembler

/-!
# What stops an operation

Whatever packets and reassemblers have come to, an operation on them stops the
run only by a violation that some pool raises under its own policy, with two
exceptions: a fragment header that goes into a reserve too small for it, and a
deadline that the clock cannot show.
-/

namespace PooledPackets

open Operation

/-! ## Violations and policies -/

/-- The pools still answer violations as they did. -/
def Pools.SamePolicies (pools after : Pools) : Prop :=
  ∀ id, (after.get id).config.faultPolicy =
    (pools.get id).config.faultPolicy

/-- A run was stopped by a violation that a pool raised under its policy, or by
a second one that was found on the way out of a run that a pool had abandoned
for a first one. -/
def Pools.Raises (pools : Pools) : Stop → Prop
  | .fault policy _ => ∃ id, (pools.get id).config.faultPolicy = policy
  | .collapse => ∃ id, (pools.get id).config.faultPolicy = .panic
  | .outOfRange => False

namespace Pools

variable {pools between after : Pools}

theorem SamePolicies.refl (pools : Pools) : pools.SamePolicies pools :=
  fun _ => rfl

theorem SamePolicies.trans (first : pools.SamePolicies between)
    (second : between.SamePolicies after) : pools.SamePolicies after :=
  fun id => (second id).trans (first id)

theorem SamePolicies.set {id : PoolId} {pool : Pool}
    (same : pool.config = (pools.get id).config) :
    pools.SamePolicies (pools.set id pool) := by
  intro sought
  rw [get_set]
  by_cases isChanged : sought = id
  · rw [if_pos isChanged, same, isChanged]
  · rw [if_neg isChanged]

theorem Raises.before {stop : Stop} (raises : between.Raises stop)
    (same : pools.SamePolicies between) : pools.Raises stop := by
  cases stop with
  | fault policy violation =>
      obtain ⟨id, raised⟩ := raises
      exact ⟨id, (same id).symm.trans raised⟩
  | collapse =>
      obtain ⟨id, raised⟩ := raises
      exact ⟨id, (same id).symm.trans raised⟩
  | outOfRange => exact raises.elim

/-- What gives packets back on the way out was raised under a policy that
abandons the run. -/
theorem Raises.collapse {stop : Stop} (raises : pools.Raises stop)
    (givesBack : stop.givesBack = true) : pools.Raises .collapse := by
  cases stop with
  | fault policy violation =>
      obtain ⟨id, raised⟩ := raises
      cases policy with
      | halt => simp [Stop.givesBack] at givesBack
      | panic => exact ⟨id, raised⟩
  | collapse => exact raises
  | outOfRange => exact raises.elim

end Pools

variable {α β : Type}

/-- Only violations stop an operation. -/
def Operation.FaultsOnly (operation : Operation α) : Prop :=
  ∀ pools, (operation pools).Satisfies
    (fun _ after => pools.SamePolicies after)
    (fun _ after => pools.SamePolicies after) pools.Raises

namespace Operation.FaultsOnly

variable {operation : Operation α} {next : α → Operation β}

theorem pure (value : α) : FaultsOnly (Pure.pure value : Operation α) :=
  fun pools => .refl pools

theorem fail (error : BufferError) :
    FaultsOnly (Operation.fail error : Operation α) :=
  fun pools => Pools.SamePolicies.refl pools

theorem bind (first : FaultsOnly operation)
    (second : ∀ value, FaultsOnly (next value)) :
    FaultsOnly (operation >>= next) := by
  intro pools
  apply Outcome.Satisfies.bind (first pools)
  intro value between same
  exact (second value between).mono (fun _ _ further => same.trans further)
    (fun _ _ further => same.trans further)
    (fun _ raises => raises.before same)

theorem ite {condition : Prop} [Decidable condition]
    {yes no : Operation α} (ifTrue : FaultsOnly yes)
    (ifFalse : FaultsOnly no) :
    FaultsOnly (if condition then yes else no) :=
  fun pools => Outcome.Satisfies.ite (fun _ => ifTrue pools)
    (fun _ => ifFalse pools)

theorem readPool {id : PoolId} {next : Pool → Operation α}
    (goesOn : ∀ pool, FaultsOnly (next pool)) :
    FaultsOnly (Operation.readPool id >>= next) :=
  fun pools => goesOn (pools.get id) pools

theorem namesakes {id : PoolId} {next : (PoolId → Bool) → Operation α}
    (goesOn : ∀ same, FaultsOnly (next same)) :
    FaultsOnly (Operation.namesakes id >>= next) :=
  fun pools => goesOn _ pools

theorem ofExcept {result : Except BufferError α}
    (goesOn : ∀ value, FaultsOnly (next value)) :
    FaultsOnly (Operation.ofExcept result >>= next) := by
  cases result with
  | error error => exact .fail error
  | ok value => exact goesOn value

theorem changing {id : PoolId} {change : Pool → Pool}
    (same : ∀ pool, (change pool).config = pool.config) :
    FaultsOnly (changePool id change) :=
  fun pools => Pools.SamePolicies.set (same (pools.get id))

theorem count (id : PoolId) (change : Counters → Counters) :
    FaultsOnly (Operation.count id change) :=
  .changing fun _ => rfl

theorem violated (id : PoolId) (violation : Violation) :
    FaultsOnly (Operation.violated id violation : Operation α) :=
  fun _ => ⟨id, rfl⟩

theorem attempt (faultsOnly : FaultsOnly operation) :
    FaultsOnly (Operation.attempt operation) := by
  intro pools
  apply (faultsOnly pools).attempt.neverRefused.monoDone
  intro result after same
  cases result with
  | error error => exact same
  | ok value => exact same

theorem onFailure {cleanup : Operation PUnit.{1}}
    (faultsOnly : FaultsOnly operation) (cleaned : FaultsOnly cleanup) :
    FaultsOnly (Operation.onFailure operation cleanup) := by
  intro pools
  apply (faultsOnly pools).onFailure
  intro error after same
  exact (cleaned after).mono (fun _ _ further => same.trans further)
    (fun _ _ further => same.trans further)
    (fun _ raises => raises.before same)

/-- With packets in hand a violation may be followed by a second one. -/
theorem holding (packets : List Packet) (faultsOnly : FaultsOnly operation) :
    FaultsOnly (Operation.holding packets operation) := by
  intro pools
  have ends := faultsOnly pools
  unfold Operation.holding
  cases ending : operation pools with
  | done value after =>
      rw [ending] at ends
      exact ends
  | failed error after =>
      rw [ending] at ends
      exact ends
  | stopped stop =>
      rw [ending] at ends
      dsimp only
      by_cases collapses :
          (stop.givesBack && packets.any pools.findsForeign) = true
      · rw [if_pos collapses]
        rw [Bool.and_eq_true] at collapses
        exact Pools.Raises.collapse ends collapses.1
      · rw [if_neg collapses]
        exact ends

end Operation.FaultsOnly

open Operation.FaultsOnly

/-! ## Segments -/

namespace Pool

theorem checkIn_faultsOnly (id : PoolId) (returned : List Returned) :
    FaultsOnly (checkIn id returned) := by
  apply FaultsOnly.namesakes
  intro same pools
  apply Outcome.Satisfies.readPool
  cases taken : takeBack same id returned (pools.get id) with
  | error violation => exact FaultsOnly.violated id violation pools
  | ok restored => exact Pools.SamePolicies.set (takeBack_keeps taken).1

theorem checkOut_faultsOnly (id : PoolId) (needed : Nat) :
    FaultsOnly (checkOut id needed) := by
  intro pools
  refine Outcome.Satisfies.readPool (Outcome.Satisfies.ite ?_ ?_)
  · exact fun _ => FaultsOnly.count id _ pools
  · exact fun _ => Pools.SamePolicies.set rfl

end Pool

/-! ## Packets -/

namespace Packet

theorem giveBack_faultsOnly (packet : Packet) :
    FaultsOnly packet.giveBack :=
  (Pool.checkIn_faultsOnly _ _).bind fun _ => .count _ _

theorem drop_faultsOnly (packet : Packet) : FaultsOnly packet.drop :=
  .ite (.pure _) packet.giveBack_faultsOnly

theorem dropAll_faultsOnly :
    ∀ packets : List Packet, FaultsOnly (dropAll packets)
  | [] => .pure _
  | packet :: rest =>
      (FaultsOnly.holding rest packet.drop_faultsOnly).bind
        fun _ => dropAll_faultsOnly rest

theorem release_faultsOnly (packet : Packet) : FaultsOnly packet.release := by
  refine .ite ?_ ?_
  · exact (FaultsOnly.count _ _).bind fun _ => .fail _
  · exact packet.giveBack_faultsOnly.bind fun _ => .pure _

theorem check_faultsOnly (packet : Packet) : FaultsOnly packet.check := by
  refine .readPool fun pool => .ite ?_ (.pure _)
  cases packet.disagreement? pool.layout.maxPayload with
  | none => exact .pure _
  | some violation => exact .violated _ violation

theorem assemble_faultsOnly (id : PoolId) (segments : List Segment) :
    FaultsOnly (assemble id segments) :=
  (FaultsOnly.holding _ (check_faultsOnly _)).bind fun _ => .pure _

theorem makeRoom_faultsOnly (packet : Packet) (count : Nat) :
    FaultsOnly (packet.makeRoom count) := by
  refine .ite (.pure _) (.readPool fun pool => .ite ?_ ?_)
  · exact (Pool.checkOut_faultsOnly _ _).bind fun _ => .pure _
  · exact (FaultsOnly.count _ _).bind fun _ => .fail _

theorem append_faultsOnly (packet : Packet) (bytes : Bytes) :
    FaultsOnly (packet.append bytes) := by
  refine .ite (.fail _) (.ite (.pure _) ?_)
  apply (packet.makeRoom_faultsOnly bytes.length).bind
  intro roomy
  cases roomy.write bytes with
  | error violation => exact .violated _ violation
  | ok written => exact written.check_faultsOnly.bind fun _ => .pure _

theorem appendAll_faultsOnly (inHand : Packet → List Packet) :
    ∀ (pieces : List Bytes) (packet : Packet),
      FaultsOnly (packet.appendAll inHand pieces)
  | [], _ => .pure _
  | bytes :: rest, packet =>
      (FaultsOnly.onFailure (.holding _ (packet.append_faultsOnly bytes))
        (dropAll_faultsOnly _)).bind
          fun longer => appendAll_faultsOnly inHand rest longer

end Packet

namespace Pool

theorem allocate_faultsOnly (id : PoolId) (len : Nat) :
    FaultsOnly (allocate id len) := by
  refine .readPool fun pool => .ite ?_ ?_
  · exact (FaultsOnly.count _ _).bind fun _ => .fail _
  · apply (checkOut_faultsOnly id _).bind
    exact fun _ => (FaultsOnly.count _ _).bind fun _ =>
      Packet.assemble_faultsOnly id _

theorem allocateWith_faultsOnly (id : PoolId) (len : Nat)
    (pieces : List Bytes) : FaultsOnly (allocateWith id len pieces) :=
  (allocate_faultsOnly id len).bind
    fun _ => Packet.appendAll_faultsOnly _ pieces _

theorem copyPacket_faultsOnly (id : PoolId) (packet : Packet) :
    FaultsOnly (copyPacket id packet) :=
  .ite (.fail _) <| (allocateWith_faultsOnly id _ _).bind fun _ => .pure _

theorem receiveFrame_faultsOnly (id : PoolId) (frame : Bytes) :
    FaultsOnly (receiveFrame id frame) :=
  .readPool fun _ => .ofExcept fun _ =>
    (allocateWith_faultsOnly id _ _).bind fun _ => .pure _

theorem fragmentForLink_faultsOnly (id : PoolId) (packet : Packet)
    (mtu : Nat) : FaultsOnly (fragmentForLink id packet mtu) := by
  refine .ite (.fail _) (.ite (.fail _) (.readPool fun pool => ?_))
  refine .ite (.fail _) (.bind (.changing ?_) fun _ => .pure _)
  exact fun _ => rfl

end Pool

/-! ## Fragments -/

namespace Fragmenter

/-- A walk that is not beyond the recorded end of its packet. -/
def Inside (fragmenter : Fragmenter) : Prop :=
  fragmenter.offset ≤ fragmenter.source.length

variable {fragmenter : Fragmenter}

theorem build_faultsOnly (inside : fragmenter.Inside) (len : Nat) :
    FaultsOnly (fragmenter.build len) := by
  unfold build
  cases slicing : fragmenter.source.slices? fragmenter.offset len with
  | none =>
      have beyond := (Packet.slices?_eq_none_iff.mp slicing).1
      exact absurd inside (Nat.not_le_of_lt beyond)
  | some pieces =>
      exact (Pool.allocateWith_faultsOnly _ _ _).bind fun _ => .pure _

theorem next_faultsOnly (inside : fragmenter.Inside) :
    FaultsOnly fragmenter.next := by
  refine .ite (.pure _) ?_
  apply (build_faultsOnly inside _).attempt.bind
  intro result
  cases result with
  | error error => exact .pure _
  | ok fragment => exact (FaultsOnly.count _ _).bind fun _ => .pure _

/-- A walk stays inside its packet with every fragment. -/
theorem next_inside (inside : fragmenter.Inside) (pools : Pools) :
    (fragmenter.next pools).Satisfies (fun result _ => result.2.Inside)
      (fun _ _ => True) (fun _ => True) := by
  refine Outcome.Satisfies.ite (fun _ => inside) fun _ => ?_
  apply Outcome.Satisfies.bind
    (@Outcome.Satisfies.trivially _
      (attempt (fragmenter.build fragmenter.nextLength) pools))
  intro result after _
  cases result with
  | error error => exact inside
  | ok fragment =>
      unfold Inside at inside
      have behind : (fragmenter.advance fragmenter.nextLength).Inside := by
        simp only [Inside, advance, nextLength]
        omega
      exact behind

end Fragmenter

/-! ## Fragment headers -/

/-- A packet whose pool has room for a fragment header in front of each
payload, but not in the segment that the packet begins with. -/
def Packet.LacksReserve (packet : Packet) (pool : Pool) : Prop :=
  FragmentHeader.size ≤ pool.layout.headerReserve ∧
  ∃ tag header first rest, packet.tag = some tag ∧
    tag.toHeader = .ok header ∧ packet.chain = first :: rest ∧
    first.layout.headerReserve < FragmentHeader.size

/-- A fragment header is out of range exactly where it finds no room. -/
theorem Packet.writeFragmentHeader_satisfies_range (packet : Packet)
    (pools : Pools) :
    (packet.writeFragmentHeader pools).Satisfies
      (fun _ after => after = pools ∧
        ¬packet.LacksReserve (pools.get packet.pool))
      (fun _ after => after = pools ∧
        ¬packet.LacksReserve (pools.get packet.pool))
      (fun stop => stop = .outOfRange ∧
        packet.LacksReserve (pools.get packet.pool)) := by
  unfold writeFragmentHeader
  cases tagged : packet.tag with
  | none => exact Outcome.Satisfies.fail ⟨rfl, by simp [LacksReserve, tagged]⟩
  | some tag =>
      apply Outcome.Satisfies.readPool
      refine Outcome.Satisfies.ite (fun noRoom => ?_) fun someRoom => ?_
      · refine Outcome.Satisfies.fail ⟨rfl, fun lacks => ?_⟩
        exact absurd noRoom (Nat.not_lt_of_le lacks.1)
      · apply Outcome.Satisfies.ofExcept
        · intro error isError
          exact ⟨rfl, by simp [LacksReserve, tagged, isError]⟩
        · intro header isHeader
          cases chained : packet.chain with
          | nil =>
              exact Outcome.Satisfies.fail
                ⟨rfl, by simp [LacksReserve, chained]⟩
          | cons first rest =>
              dsimp only
              by_cases fits : (header.encode
                  (pools.get packet.pool).config.byteOrder).length ≤
                    first.layout.payloadStart
              · rw [Segment.writeHeaderEnd?, dif_pos fits]
                refine Outcome.Satisfies.pure ⟨rfl, ?_⟩
                rw [FragmentHeader.length_encode] at fits
                rintro ⟨_, _, _, _, _, _, _, isChain, tooSmall⟩
                rw [chained] at isChain
                cases isChain
                exact absurd fits (Nat.not_le_of_lt tooSmall)
              · rw [Segment.writeHeaderEnd?, dif_neg fits]
                rw [FragmentHeader.length_encode] at fits
                exact Outcome.Satisfies.halt ⟨rfl, Nat.le_of_not_lt someRoom,
                  tag, header, first, rest, tagged, isHeader, chained,
                  Nat.lt_of_not_le fits⟩

/-! ## Joining -/

namespace Reassembly

theorem splice_faultsOnly (id : PoolId) (fragments : List Packet) :
    FaultsOnly (splice id fragments) :=
  (Pool.checkIn_faultsOnly id _).bind fun _ => Packet.assemble_faultsOnly id _

theorem copyInto_faultsOnly :
    ∀ (fragments : List Packet) (packet : Packet),
      FaultsOnly (copyInto packet fragments)
  | [], _ => .pure _
  | fragment :: rest, packet => by
      apply (packet.appendAll_faultsOnly _ fragment.chunks).bind
      intro longer
      apply (FaultsOnly.holding _ fragment.drop_faultsOnly).bind
      exact fun _ => copyInto_faultsOnly rest longer

theorem copy_faultsOnly (id : PoolId) (total : Nat) (own : Bool)
    (fragments : List Packet) : FaultsOnly (copy id total own fragments) := by
  cases fragments with
  | nil => exact Pool.allocate_faultsOnly id 0
  | cons first rest =>
      refine .ite (copyInto_faultsOnly rest _) ?_
      apply (FaultsOnly.onFailure (Pool.allocate_faultsOnly id total)
        (Packet.dropAll_faultsOnly _)).bind
      intro packet
      apply (packet.appendAll_faultsOnly _ first.chunks).bind
      intro filled
      apply (FaultsOnly.holding _ first.drop_faultsOnly).bind
      exact fun _ => copyInto_faultsOnly rest filled

theorem join_faultsOnly (id : PoolId) (assembly : Assembly) :
    FaultsOnly (join id assembly) := by
  have counted {change : Counters → Counters} (packet : Packet) :
      FaultsOnly (do Operation.count id change; pure packet) :=
    (FaultsOnly.count id change).bind fun _ => .pure packet
  refine .namesakes fun same => .readPool fun pool => ?_
  dsimp only
  apply FaultsOnly.ite
  · exact (splice_faultsOnly id _).bind counted
  · exact (copy_faultsOnly id _ _ _).bind counted

end Reassembly

/-! ## Reassembly -/

namespace Reassembler

theorem dropLate_faultsOnly (id : PoolId) :
    ∀ assemblies : List Assembly, FaultsOnly (dropLate id assemblies)
  | [] => .pure _
  | assembly :: rest =>
      (Packet.dropAll_faultsOnly assembly.fragments).bind fun _ =>
        (FaultsOnly.count id _).bind fun _ => dropLate_faultsOnly id rest

theorem expire_faultsOnly (reassembler : Reassembler) (now : Nat) :
    FaultsOnly (reassembler.expire now) :=
  (dropLate_faultsOnly reassembler.pool _).bind fun _ => .pure _

theorem dropDatagrams_faultsOnly :
    ∀ assemblies : List Assembly, FaultsOnly (dropDatagrams assemblies)
  | [] => .pure _
  | assembly :: rest =>
      (Packet.dropAll_faultsOnly assembly.fragments).bind
        fun _ => dropDatagrams_faultsOnly rest

theorem clear_faultsOnly (reassembler : Reassembler) (choices : List Nat) :
    FaultsOnly (reassembler.clear choices) :=
  (dropDatagrams_faultsOnly _).bind fun _ => .pure _

theorem forPool_faultsOnly (id : PoolId) : FaultsOnly (forPool id) :=
  .readPool fun _ => .pure _

variable (reassembler : Reassembler) (hand : Hand)

theorem makeRoom_faultsOnly (datagram : Nat) (fragment : Packet)
    (now : Nat) : FaultsOnly (reassembler.makeRoom datagram fragment now) :=
  .ite ((FaultsOnly.holding _ (reassembler.expire_faultsOnly now)).bind
    fun _ => .pure _) (.pure _)

theorem giveUp_faultsOnly (assembly : Assembly) (tag : FragmentTag)
    (fragment : Packet) (error : BufferError) :
    FaultsOnly (reassembler.giveUp hand assembly tag fragment error) := by
  apply (FaultsOnly.holding _ fragment.drop_faultsOnly).bind
  intro _
  apply (FaultsOnly.holding _
    (Packet.dropAll_faultsOnly assembly.fragments)).bind
  intro _
  cases error with
  | overlap datagram offset len =>
      exact (FaultsOnly.count reassembler.pool _).bind fun _ => .pure _
  | _ => exact .pure _

theorem add_faultsOnly (assembly : Assembly) (tag : FragmentTag)
    (fragment : Packet) :
    FaultsOnly (reassembler.add hand assembly tag fragment) := by
  unfold add
  cases assembly.insert tag fragment reassembler.limits.holdLimit with
  | error error =>
      exact reassembler.giveUp_faultsOnly hand assembly tag fragment error
  | ok longer =>
      refine .ite ?_ (.pure _)
      have joined := Reassembly.join_faultsOnly reassembler.pool longer
      exact (FaultsOnly.holding _ joined.attempt).bind fun _ => .pure _

theorem pushUntil_faultsOnly (fragment : Packet) (now deadline : Nat) :
    FaultsOnly (reassembler.pushUntil hand fragment now deadline) := by
  have dropped (reassembler : Reassembler) :=
    FaultsOnly.holding (hand reassembler) fragment.drop_faultsOnly
  unfold pushUntil
  cases fragment.tag with
  | none => exact (dropped reassembler).bind fun _ => .pure _
  | some tag =>
      apply (reassembler.makeRoom_faultsOnly _ fragment now).bind
      intro roomy
      cases roomy.pending.get? tag.datagram.toNat with
      | some assembly =>
          refine .ite ?_ (roomy.add_faultsOnly hand assembly tag fragment)
          apply (FaultsOnly.holding _
            (Packet.dropAll_faultsOnly assembly.fragments)).bind
          intro _
          apply FaultsOnly.bind (.count _ _)
          exact fun _ => (dropped _).bind fun _ => .pure _
      | none =>
          refine .ite ?_ (roomy.add_faultsOnly hand _ tag fragment)
          exact (dropped roomy).bind fun _ => .pure _

end Reassembler

namespace Pool

variable (choices : List Nat)

theorem dropLeftovers_faultsOnly (reassembler : Reassembler)
    (rest : List Packet) :
    FaultsOnly (dropLeftovers reassembler rest choices) :=
  (FaultsOnly.holding _ (Packet.dropAll_faultsOnly rest)).bind fun _ =>
    (reassembler.clear_faultsOnly choices).bind fun _ => .pure _

theorem abandon_faultsOnly (reassembler : Reassembler) (rest : List Packet)
    (error : BufferError) :
    FaultsOnly (abandon reassembler rest choices error : Operation α) :=
  (dropLeftovers_faultsOnly choices reassembler rest).bind
    fun _ => .fail error

theorem reassembleFrom_faultsOnly (deadline : Nat) :
    ∀ (arrivals : List (Nat × Packet)) (reassembler : Reassembler)
      (latest : UInt32),
      FaultsOnly
        (reassembleFrom reassembler deadline choices latest arrivals)
  | [], reassembler, latest =>
      (FaultsOnly.count _ _).bind
        fun _ => abandon_faultsOnly choices reassembler [] _
  | (now, fragment) :: later, reassembler, latest => by
      refine .ite ?_ ?_
      · exact (FaultsOnly.count _ _).bind
          fun _ => abandon_faultsOnly choices reassembler _ _
      · apply (reassembler.pushUntil_faultsOnly _ fragment now deadline).bind
        intro acceptance
        match acceptance with
        | (.error error, reassembler) =>
            exact abandon_faultsOnly choices reassembler _ error
        | (.ok none, reassembler) =>
            exact reassembleFrom_faultsOnly deadline later reassembler _
        | (.ok (some packet), reassembler) =>
            exact (dropLeftovers_faultsOnly choices reassembler _).bind
              fun _ => .pure packet

theorem reassemble_faultsOnly (id : PoolId)
    (arrivals : List (Nat × Packet)) (deadline : Nat) :
    FaultsOnly (reassemble id arrivals deadline choices) :=
  (Reassembler.forPool_faultsOnly id).bind fun reassembler =>
    reassembleFrom_faultsOnly choices deadline arrivals reassembler 0

end Pool

end PooledPackets
