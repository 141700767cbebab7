import PooledPackets.Pool.Allocation
import PooledPackets.Proofs.Packets.Soundness

/-!
# Pools and live packets

Every segment that is out is in the chain of a live packet. How much more can
be said of the live packets depends on how far their segments were exchanged:
not at all, between packets of one pool, or freely. The operations on single
packets keep what can be said, and stop the run only where an exchange has
made that possible.
-/

namespace PooledPackets

/-- How far segments may have been exchanged between packets. -/
inductive Exchange where
  | never
  | withinPools
  | freely
  deriving DecidableEq, Repr

/-- The ways in which a run may stop. Exchanges never make a segment come back
while it is free or while another one hangs behind it; as long as they stay
within a pool, no segment comes back to a pool that did not hand it out. -/
def Exchange.MayStop : Exchange → Stop → Prop
  | .never, _ => False
  | .withinPools, .fault _ (.chainLengthMismatch ..) => True
  | .withinPools, .outOfRange => True
  | .withinPools, _ => False
  | .freely, .fault _ (.segmentAlreadyFree ..) => False
  | .freely, .fault _ (.segmentStillLinked ..) => False
  | .freely, _ => True

/-- The ways in which a run may stop while segments are given back. What was
recorded of a packet is not looked at then, so this needs a segment of another
pool. -/
def Exchange.MayStopReturns (exchange : Exchange) (stop : Stop) : Prop :=
  exchange = .freely ∧ exchange.MayStop stop

theorem Exchange.MayStopReturns.mayStop {exchange : Exchange} {stop : Stop}
    (stops : exchange.MayStopReturns stop) : exchange.MayStop stop :=
  stops.2

/-- A segment of another pool comes back only where segments were exchanged
freely. -/
theorem Exchange.mayStopReturns_of_foreign {exchange : Exchange}
    {id : PoolId} {chain : List Segment} {policy : FaultPolicy}
    (own : exchange ≠ .freely → ∀ segment ∈ chain, segment.pool = id) :
    ∀ stop, (∃ segment ∈ chain, segment.pool ≠ id ∧
      stop = .fault policy (.foreignSegment id segment.pool segment.id)) →
        exchange.MayStopReturns stop := by
  intro stop ending
  obtain ⟨segment, member, foreign, rfl⟩ := ending
  by_cases bounded : exchange = .freely
  · subst bounded
    exact ⟨rfl, trivial⟩
  · exact absurd (own bounded segment member) foreign

/-- An operation that gives segments back stops the run only for a reason for
which any other operation may. -/
theorem Outcome.Satisfies.returned {α : Type} {outcome : Outcome α}
    {exchange : Exchange} {done : α → Pools → Prop}
    {refused : BufferError → Pools → Prop}
    (contract : outcome.Satisfies done refused exchange.MayStopReturns) :
    outcome.Satisfies done refused exchange.MayStop :=
  contract.mono (fun _ _ known => known) (fun _ _ known => known)
    (fun _ stops => stops.mayStop)

/-- What can be said of a live packet. -/
def Packet.Kept (exchange : Exchange) (packet : Packet) : Prop :=
  match exchange with
  | .never => packet.Sound
  | .withinPools => ∀ segment ∈ packet.chain, segment.pool = packet.pool
  | .freely => True

/-- The segments that are out are those of the live packets, and of each live
packet holds what can be said of it. -/
structure Pools.Consistent (pools origin : Pools) (exchange : Exchange)
    (live : List Packet) : Prop where
  balanced : pools.Balanced origin (live.flatMap Packet.chain)
  kept : ∀ packet ∈ live, packet.Kept exchange

/-- A packet has become another one by adding bytes to it. -/
structure Packet.Grown (exchange : Exchange) (packet longer : Packet)
    (bytes : Bytes) : Prop where
  tag_eq : longer.tag = packet.tag
  pool_eq : longer.pool = packet.pool
  held : packet.chain ≠ [] → longer.chain ≠ []
  spelled : exchange = .never → longer.toBytes = packet.toBytes ++ bytes
  room : exchange = .never →
    packet.available ≤ longer.available + bytes.length

namespace Packet

variable {exchange : Exchange} {packet : Packet}

theorem Kept.own (kept : packet.Kept exchange)
    (bounded : exchange ≠ .freely) :
    ∀ segment ∈ packet.chain, segment.pool = packet.pool := by
  cases exchange with
  | never => exact kept.own
  | withinPools => exact kept
  | freely => exact absurd rfl bounded

theorem Kept.withTag (kept : packet.Kept exchange)
    (tag : Option FragmentTag) :
    (packet.withTag tag).Kept exchange := by
  cases exchange with
  | never => exact Sound.withTag kept tag
  | withinPools => exact kept
  | freely => trivial

theorem Kept.rewritten (kept : packet.Kept exchange) {chain : List Segment}
    (same : chain.map Segment.outline =
      packet.chain.map Segment.outline) :
    ({ packet with chain } : Packet).Kept exchange := by
  cases exchange with
  | never => exact Sound.rewritten kept same
  | withinPools =>
      exact Segment.own_of_identity (Segment.map_identity_of_outline same)
        kept
  | freely => trivial

theorem kept_husk (exchange : Exchange) (packet : Packet) :
    packet.husk.Kept exchange := by
  cases exchange with
  | never => exact Sound.husk packet
  | withinPools => simp [Kept, husk]
  | freely => trivial

theorem kept_ofSegments {id : PoolId} {segments : List Segment}
    (own : exchange ≠ .freely → ∀ segment ∈ segments, segment.pool = id) :
    (ofSegments id segments).Kept exchange := by
  cases exchange with
  | never => exact sound_ofSegments (own (by simp))
  | withinPools => exact own (by simp)
  | freely => trivial

/-- What collapses a run that stops is a segment of another pool in hand. -/
theorem Kept.collapses {pools : Pools} {packets : List Packet}
    (kept : ∀ packet ∈ packets, packet.Kept exchange)
    (foreign : packets.any pools.findsForeign = true) :
    exchange.MayStopReturns .collapse := by
  by_cases bounded : exchange = .freely
  · subst bounded
    exact ⟨rfl, trivial⟩
  · obtain ⟨packet, member, found⟩ := List.any_eq_true.mp foreign
    rw [Pools.findsForeign_of_own ((kept packet member).own bounded)] at found
    cases found

theorem Grown.refl (exchange : Exchange) (packet : Packet) :
    packet.Grown exchange packet [] where
  tag_eq := rfl
  pool_eq := rfl
  held := id
  spelled := fun _ => (List.append_nil _).symm
  room := fun _ => Nat.le_refl _

theorem Grown.trans {longer longest : Packet} {first second : Bytes}
    (grown : packet.Grown exchange longer first)
    (further : longer.Grown exchange longest second) :
    packet.Grown exchange longest (first ++ second) where
  tag_eq := further.tag_eq.trans grown.tag_eq
  pool_eq := further.pool_eq.trans grown.pool_eq
  held := fun notReleased => further.held (grown.held notReleased)
  spelled := fun intact => by
    rw [further.spelled intact, grown.spelled intact, List.append_assoc]
  room := fun intact => by
    have one := grown.room intact
    have two := further.room intact
    rw [List.length_append]
    omega

theorem Kept.extend (kept : packet.Kept exchange)
    (held : packet.chain ≠ []) {segments : List Segment}
    (fresh : ∀ segment ∈ segments,
      segment.pool = packet.pool ∧ segment.length = 0) :
    (packet.extend segments).Kept exchange := by
  cases exchange with
  | never => exact Sound.extend kept held fresh
  | withinPools =>
      intro segment inChain
      rcases List.mem_append.mp inChain with old | new
      · exact kept segment old
      · exact (fresh segment new).1
  | freely => trivial

theorem Kept.grown_extend (kept : packet.Kept exchange)
    (held : packet.chain ≠ []) {segments : List Segment}
    (empty : ∀ segment ∈ segments, segment.length = 0) :
    packet.Grown exchange (packet.extend segments) [] where
  tag_eq := rfl
  pool_eq := rfl
  held := fun _ => by simp [Packet.extend, held]
  spelled := fun _ => by
    simp [toBytes, Packet.extend, chainBytes_of_empty empty]
  room := fun intact => by
    subst intact
    rw [Sound.available_extend kept held]
    omega

/-- What was written stands behind the payload, as far as that can be said. -/
theorem Kept.write (kept : packet.Kept exchange) (held : packet.chain ≠ [])
    {written : Packet} {bytes : Bytes} (nonempty : bytes ≠ [])
    (fits : exchange = .never → bytes.length ≤ packet.available)
    (writing : packet.write bytes = .ok written) :
    written.Kept exchange ∧ packet.Grown exchange written bytes := by
  obtain ⟨sameIdentity, sameTag, samePool⟩ := write_keeps writing
  have spelled : exchange = .never → written.Sound ∧
      written.toBytes = packet.toBytes ++ bytes ∧
      written.available + bytes.length = packet.available := by
    intro intact
    subst intact
    obtain ⟨result, done, facts⟩ :=
      Sound.write_fits kept held nonempty (fits rfl)
    rw [done] at writing
    cases writing
    exact facts
  refine ⟨?_, ⟨sameTag, samePool, ?_, ?_, ?_⟩⟩
  · cases exchange with
    | never => exact (spelled rfl).1
    | withinPools =>
        have own := Segment.own_of_identity sameIdentity kept
        rw [← samePool] at own
        exact own
    | freely => trivial
  · intro _ empty
    simp [empty, held] at sameIdentity
  · exact fun intact => (spelled intact).2.1
  · exact fun intact => Nat.le_of_eq (spelled intact).2.2.symm

/-- Without an exchange, bytes that fit are always written. -/
theorem Kept.mayStop_of_write_error (kept : packet.Kept exchange)
    (held : packet.chain ≠ []) {bytes : Bytes} {violation : Violation}
    (nonempty : bytes ≠ [])
    (fits : exchange = .never → bytes.length ≤ packet.available)
    (writing : packet.write bytes = .error violation)
    (policy : FaultPolicy) :
    exchange.MayStop (.fault policy violation) := by
  obtain ⟨declared, actual, rfl⟩ := write_error writing
  cases exchange with
  | never =>
      obtain ⟨written, done, _⟩ :=
        Sound.write_fits kept held nonempty (fits rfl)
      rw [done] at writing
      cases writing
  | withinPools => trivial
  | freely => trivial

/-- A packet that disagrees with its chain, whose segments are its pool's own,
disagrees about a length or a count. -/
theorem disagreement?_of_own {layout : Layout} {violation : Violation}
    (laidOut : ∀ segment ∈ packet.chain, segment.layout = layout)
    (found : packet.disagreement? layout.maxPayload = some violation) :
    ∃ declared actual,
      violation = .chainLengthMismatch declared actual := by
  have inZone : packet.chain.find?
      (fun segment => layout.maxPayload < segment.length) = none := by
    rw [List.find?_eq_none]
    intro segment member
    have bounded := segment.length_le
    rw [laidOut segment member] at bounded
    simpa using bounded
  simp only [disagreement?, inZone] at found
  split at found
  · cases found
    exact ⟨_, _, rfl⟩
  · split at found
    · cases found
      exact ⟨_, _, rfl⟩
    · cases found

end Packet

namespace Pools.Consistent

variable {pools origin : Pools} {exchange : Exchange}
variable {live live' others : List Packet} {packet : Packet}

theorem perm (consistent : pools.Consistent origin exchange live)
    (same : live.Perm live') :
    pools.Consistent origin exchange live' where
  balanced := consistent.balanced.perm (same.flatMap_right _)
  kept := fun packet member =>
    consistent.kept packet (same.mem_iff.mpr member)

/-- A packet without segments neither adds nor takes anything. -/
theorem cons_iff_of_released (released : packet.chain = []) :
    pools.Consistent origin exchange (packet :: others) ↔
      pools.Consistent origin exchange others ∧ packet.Kept exchange := by
  constructor
  · intro given
    obtain ⟨balanced, kept⟩ := given
    refine ⟨⟨?_, fun other member => kept other (.tail _ member)⟩,
      kept packet (.head _)⟩
    simpa [released] using balanced
  · intro given
    obtain ⟨⟨balanced, kept⟩, keptPacket⟩ := given
    refine ⟨?_, ?_⟩
    · simpa [released] using balanced
    · intro other member
      rcases List.mem_cons.mp member with rfl | inOthers
      · exact keptPacket
      · exact kept other inOthers

theorem replace (packets packets' : List Packet)
    (consistent : pools.Consistent origin exchange (packets ++ others))
    (same : ((packets.flatMap Packet.chain).map Segment.identity).Perm
      ((packets'.flatMap Packet.chain).map Segment.identity))
    (kept : ∀ packet ∈ packets', packet.Kept exchange) :
    pools.Consistent origin exchange (packets' ++ others) where
  balanced := by
    apply consistent.balanced.congr
    rw [List.flatMap_append, List.flatMap_append, List.map_append,
      List.map_append]
    exact same.append_right _
  kept := fun packet member => by
    rcases List.mem_append.mp member with new | other
    · exact kept packet new
    · exact consistent.kept packet (List.mem_append_right _ other)

/-- The zones of a live packet may be written over. -/
theorem rewritten
    (consistent : pools.Consistent origin exchange (packet :: others))
    {chain : List Segment}
    (same : chain.map Segment.outline =
      packet.chain.map Segment.outline) :
    pools.Consistent origin exchange ({ packet with chain } :: others) := by
  have identities (segments : List Segment) :
      segments.map Segment.identity =
        (segments.map Segment.outline).map Prod.fst := by
    rw [List.map_map]
    rfl
  have sameIdentity : chain.map Segment.identity =
      packet.chain.map Segment.identity := by
    rw [identities, identities, same]
  have kept := consistent.kept packet (List.mem_cons_self ..)
  refine replace [packet] [{ packet with chain }] consistent ?_ ?_
  · simp [sameIdentity]
  · intro rewritten member
    rw [List.mem_singleton.mp member]
    exact kept.rewritten same

theorem count_satisfies (consistent : pools.Consistent origin exchange live)
    (id : PoolId) (change : Counters → Counters) {stopped : Stop → Prop} :
    (Operation.count id change pools).Satisfies
      (fun _ after => after.Consistent origin exchange live)
      (fun _ _ => False) stopped :=
  ⟨consistent.balanced.count id change, consistent.kept⟩

/-- With live packets in hand, segments that are given back stop a run only for
the reasons for which they do so alone. -/
theorem holding_returns {α : Type} {operation : Operation α}
    {done : α → Pools → Prop} {refused : BufferError → Pools → Prop}
    {packets : List Packet}
    (kept : ∀ packet ∈ packets, packet.Kept exchange)
    (contract : (operation pools).Satisfies done refused
      exchange.MayStopReturns) :
    (Operation.holding packets operation pools).Satisfies
      done refused exchange.MayStopReturns :=
  contract.holding fun _ _ foreign => Packet.Kept.collapses kept foreign

/-- With live packets in hand a stop stays one that may happen. -/
theorem holding {α : Type} {operation : Operation α}
    {done : α → Pools → Prop} {refused : BufferError → Pools → Prop}
    {packets : List Packet}
    (kept : ∀ packet ∈ packets, packet.Kept exchange)
    (contract : (operation pools).Satisfies done refused exchange.MayStop) :
    (Operation.holding packets operation pools).Satisfies
      done refused exchange.MayStop :=
  contract.holding fun _ _ foreign =>
    (Packet.Kept.collapses kept foreign).mayStop

theorem laidOut (consistent : pools.Consistent origin exchange live)
    (member : packet ∈ live) (bounded : exchange ≠ .freely) :
    ∀ segment ∈ packet.chain,
      segment.layout = (pools.get packet.pool).layout := by
  intro segment inChain
  have accounts := consistent.balanced.accounts packet.pool
  rw [accounts.layout_eq]
  refine accounts.out_layout segment ?_
    ((consistent.kept packet member).own bounded segment inChain)
  exact List.mem_flatMap.mpr ⟨packet, member, inChain⟩

/-! ## Checking -/

theorem check_satisfies
    (consistent : pools.Consistent origin exchange live)
    (member : packet ∈ live) :
    (packet.check pools).Satisfies (fun _ after => after = pools)
      (fun _ _ => False) exchange.MayStop := by
  apply Outcome.Satisfies.readPool
  split
  · cases found : packet.disagreement?
      (pools.get packet.pool).layout.maxPayload with
    | none => exact rfl
    | some violation =>
        cases exchange with
        | never =>
            have agrees := Packet.Sound.disagreement?_eq_none
              (consistent.kept packet member)
              (consistent.laidOut member (by simp))
            simp [agrees] at found
        | withinPools =>
            obtain ⟨declared, actual, rfl⟩ := Packet.disagreement?_of_own
              (consistent.laidOut member (by simp)) found
            trivial
        | freely =>
            simp only [Packet.disagreement?] at found
            split at found
            · cases found
              trivial
            · split at found
              · cases found
                trivial
              · split at found
                · cases found
                  trivial
                · cases found
  · exact rfl

end Pools.Consistent
end PooledPackets
