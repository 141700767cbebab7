import PooledPackets.Proofs.Contents.Openings
import PooledPackets.Proofs.Fragments.Stamping
import PooledPackets.Proofs.Zones.Sessions

/-!
# Writing into the zones of a packet

A link driver writes into a zone of some segments of a packet, and the header
of a fragment goes into the first one. No other segment of the session
changes. No two segments of a session go by the same number of the same pool,
so it is known which ones are written to.
-/

namespace PooledPackets

/-! ## Chains that are written to -/

namespace Packet

/-- The packet with the segments at some places of its chain written to. -/
def rewrite (packet : Packet) (places : Nat → Bool)
    (write : Segment → Segment) : Packet :=
  { packet with
    chain := packet.chain.mapIdx fun place segment =>
      if places place then write segment else segment }

theorem getElem?_rewrite (packet : Packet) (places : Nat → Bool)
    (write : Segment → Segment) (place : Nat) :
    (packet.rewrite places write).chain[place]? =
      packet.chain[place]?.map fun segment =>
        if places place then write segment else segment :=
  List.getElem?_mapIdx

/-- What was written to the segments at some places of a chain. All else about
the packet is as it was. -/
structure Rewritten (packet : Packet) (places : Nat → Bool)
    (changes : Segment → Segment → Prop) (changed : Packet) : Prop where
  same : changed = { packet with chain := changed.chain }
  length_chain : changed.chain.length = packet.chain.length
  visited : ∀ place origin, packet.chain[place]? = some origin →
    ∃ segment, changed.chain[place]? = some segment ∧
      if places place then changes origin segment else segment = origin

theorem rewritten_rewrite {changes : Segment → Segment → Prop}
    (packet : Packet) (places : Nat → Bool) {write : Segment → Segment}
    (writes : ∀ segment, changes segment (write segment)) :
    packet.Rewritten places changes (packet.rewrite places write) where
  same := rfl
  length_chain := List.length_mapIdx
  visited := by
    intro place origin isThere
    rw [getElem?_rewrite, isThere, Option.map_some]
    by_cases isVisited : places place = true
    · simp only [isVisited, if_true]
      exact ⟨_, rfl, writes origin⟩
    · simp only [isVisited]
      exact ⟨_, rfl, rfl⟩

end Packet

namespace Session

variable {session : Session} {slot place : Nat} {packet changed : Packet}
variable {segment other : Segment}

/-! ## Where segments are -/

theorem Contains.of_vacated
    (contains : (session.vacated slot).Contains segment) :
    session.Contains segment := by
  rcases contains with isFree | ⟨packet, isLive, inChain⟩
  · exact Or.inl isFree
  · exact Or.inr ⟨packet, session.live_vacated_subset slot isLive, inChain⟩

theorem contains_of_chain
    (found : session.packets.get? slot = some packet)
    (inChain : segment ∈ packet.chain) : session.Contains segment :=
  Or.inr ⟨packet, mem_live_of_packet found, inChain⟩

/-- Behind a changed packet everything is as it was. -/
theorem Contains.of_filed
    (contains : (session.filed slot changed).Contains segment) :
    (session.vacated slot).Contains segment ∨ segment ∈ changed.chain := by
  rcases contains with isFree | ⟨packet, isLive, inChain⟩
  · exact Or.inl (Or.inl isFree)
  · rcases List.mem_cons.mp ((live_filed_perm session slot
        changed).mem_iff.mp isLive) with rfl | isOther
    · exact Or.inr inChain
    · exact Or.inl (Or.inr ⟨packet, isOther, inChain⟩)

/-- Two segments go by the same number of the same pool. -/
def SameNumber (segment other : Segment) : Prop :=
  other.pool = segment.pool ∧ other.id = segment.id

variable {origin : Pools} {exchange : Exchange}

theorem Owns.numbers_nodup (owns : session.Owns origin exchange [])
    (found : session.packets.get? slot = some packet) (id : PoolId) :
    ((session.pools.get id).free.map Segment.id ++
      (Pool.numbersOf id packet.chain ++ Pool.numbersOf id
        ((session.vacated slot).live.flatMap Packet.chain))).Nodup := by
  have balanced := (owns.perm (live_perm_of_packet found)).balanced
  have nodup := (balanced.accounts id).numbers_nodup
  rw [List.flatMap_cons, Pool.numbersOf_append] at nodup
  exact nodup

/-- No segment outside a packet goes by the number of one inside. -/
theorem Owns.apart (owns : session.Owns origin exchange [])
    (found : session.packets.get? slot = some packet)
    (inChain : segment ∈ packet.chain)
    (outside : (session.vacated slot).Contains other) :
    ¬SameNumber segment other := by
  rintro ⟨samePool, sameId⟩
  obtain ⟨_, outNodup, freeApart⟩ := List.nodup_append.mp
    (owns.numbers_nodup found segment.pool)
  obtain ⟨_, _, othersApart⟩ := List.nodup_append.mp outNodup
  have isInside : segment.id ∈ Pool.numbersOf segment.pool packet.chain :=
    Pool.mem_numbersOf.mpr ⟨segment, inChain, rfl, rfl⟩
  rcases outside with ⟨id, isFree⟩ | ⟨holder, isLive, isHeld⟩
  · have own := (owns.balanced.accounts id).free_own other isFree
    cases own.symm.trans samePool
    exact freeApart other.id (List.mem_map_of_mem isFree) segment.id
      (List.mem_append_left _ isInside) sameId
  · have isOutside : other.id ∈ Pool.numbersOf segment.pool
        ((session.vacated slot).live.flatMap Packet.chain) :=
      Pool.mem_numbersOf.mpr ⟨other,
        List.mem_flatMap.mpr ⟨holder, isLive, isHeld⟩, samePool, rfl⟩
    exact othersApart segment.id isInside other.id isOutside sameId.symm

/-- No two segments of a packet go by the same number. -/
theorem Owns.place_eq (owns : session.Owns origin exchange [])
    (found : session.packets.get? slot = some packet) {place' : Nat}
    (isThere : packet.chain[place]? = some segment)
    (isOther : packet.chain[place']? = some other)
    (same : SameNumber segment other) : place' = place := by
  have nodup := (List.nodup_append.mp (List.nodup_append.mp
    (owns.numbers_nodup found segment.pool)).2.1).1
  rw [Pool.numbersOf, List.Nodup, List.pairwise_map, List.pairwise_filter,
    List.pairwise_iff_getElem] at nodup
  obtain ⟨inside, isSegment⟩ := List.getElem?_eq_some_iff.mp isThere
  obtain ⟨inside', isSegment'⟩ := List.getElem?_eq_some_iff.mp isOther
  rcases Nat.lt_trichotomy place' place with earlier | isSame | later
  · have different := nodup place' place inside' inside earlier
    rw [isSegment, isSegment'] at different
    exact absurd same.2 (different (by simp [same.1]) (by simp))
  · exact isSame
  · have different := nodup place place' inside inside' later
    rw [isSegment, isSegment'] at different
    exact absurd same.2.symm (different (by simp) (by simp [same.1]))

/-! ## What is written -/

/-- All packets of a session have the payloads that they had. -/
structure SamePayloads (session after : Session) : Prop where
  packets : ∀ slot, (after.packets.get? slot).map Packet.toBytes =
    (session.packets.get? slot).map Packet.toBytes
  walks_eq : after.walks = session.walks
  reassemblers_eq : after.reassemblers = session.reassemblers

theorem SamePayloads.refl (session : Session) :
    session.SamePayloads session :=
  ⟨fun _ => rfl, rfl, rfl⟩

theorem samePayloads_filed
    (found : session.packets.get? slot = some packet)
    (spelled : changed.toBytes = packet.toBytes) :
    session.SamePayloads (session.filed slot changed) where
  packets := by
    intro other
    rw [filed, Table.get?_insert]
    by_cases isSlot : other = slot
    · rw [if_pos isSlot, isSlot, found, Option.map_some, Option.map_some,
        spelled]
    · rw [if_neg isSlot]
  walks_eq := rfl
  reassemblers_eq := rfl

/-- A write into a zone finds no packet, or it changes the packet where it
is. -/
theorem writeZone_leaves {zone : Packet.Zone} {only : Option Nat}
    {bytes : Bytes} {stopped : Stop → Prop} :
    SessionStep.Satisfies (carryOut (.writeZone slot zone only bytes))
      session
      (fun reply after => (session.packets.get? slot = none ∧
          after = session ∧ reply = .noSuchSlot) ∨
        ∃ packet, session.packets.get? slot = some packet ∧
          after = session.filed slot (packet.writeZone zone only bytes) ∧
          reply = .counts (packet.zoneCounts zone only bytes))
      stopped := by
  apply SessionStep.Satisfies.get
  cases found : session.packets.get? slot with
  | none => exact Or.inl ⟨rfl, rfl, rfl⟩
  | some packet => exact Or.inr ⟨packet, rfl, rfl, rfl⟩

/-- The header that goes in front of the payload of a fragment, if it can be
sent. -/
def stampFor? (session : Session) (slot : Nat) : Option Bytes := do
  let packet ← session.packets.get? slot
  let tag ← packet.tag
  let header ← tag.toHeader.toOption
  pure (header.encode (session.pools.get packet.pool).config.byteOrder)

/-- What comes of the order to write the header of a fragment. -/
inductive HeaderEffect (session : Session) (slot : Nat) :
    Reply → Session → Prop
  | idle {reply : Reply} (silent : ∀ bytes, reply ≠ .headerZone bytes) :
      HeaderEffect session slot reply session
  | stamped {packet : Packet} {first after : Segment}
      {rest : List Segment} {stamp : Bytes}
      (found : session.packets.get? slot = some packet)
      (isStamp : session.stampFor? slot = some stamp)
      (size : stamp.length = FragmentHeader.size)
      (isChain : packet.chain = first :: rest)
      (writing : first.writeHeaderEnd? stamp = some after) :
      HeaderEffect session slot (.headerZone after.header)
        (session.filed slot { packet with chain := after :: rest })

variable {configs : List Config}

/-- A packet takes its header or is refused it; the pools stay as they are. -/
theorem Reached.stamps_packet (reached : session.Reached configs)
    (found : session.packets.get? slot = some packet) :
    (packet.writeFragmentHeader session.pools).Satisfies
      (fun changed pools => pools = session.pools ∧
        session.HeaderEffect slot
          (.headerZone (changed.chain.head?.elim [] Segment.header))
          (session.filed slot changed))
      (fun _ pools => pools = session.pools) (fun _ => False) := by
  have isLive := mem_live_of_packet found
  cases tagged : packet.tag with
  | none =>
      rw [Packet.writeFragmentHeader, tagged]
      exact Outcome.Satisfies.fail rfl
  | some tag =>
      have written := (reached.consistent isLive).writeFragmentHeader_exactly
        tagged (reached.solid packet isLive tag tagged)
      cases refused : Packet.headerRefusal?
          (session.pools.get packet.pool) tag with
      | some error =>
          simp only [refused] at written
          rw [written]
          exact Outcome.Satisfies.fail rfl
      | none =>
          simp only [refused] at written
          obtain ⟨header, first, rest, after, isHeader, isChain, writing,
            isDone⟩ := written
          rw [isDone]
          refine ⟨rfl, .stamped found ?_
            (FragmentHeader.length_encode header _) isChain writing⟩
          simp [stampFor?, found, tagged, isHeader, Except.toOption]

/-- In a session that is reached without exchanges the order never stops the
run. -/
theorem Reached.writeFragmentHeader_leaves
    (reached : session.Reached configs) :
    SessionStep.Satisfies (carryOut (.writeFragmentHeader slot)) session
      (session.HeaderEffect slot) (fun _ => False) := by
  apply SessionStep.Satisfies.get
  cases found : session.packets.get? slot with
  | none => exact HeaderEffect.idle (by simp)
  | some packet =>
      apply SessionStep.Satisfies.bind (perform_ends
        (reached.stamps_packet found) fun _ impossible => impossible.elim)
      intro result _ ending
      obtain ⟨pools, rfl, known⟩ := ending
      cases result with
      | error error =>
          cases known
          exact HeaderEffect.idle (by simp)
      | ok changed =>
          obtain ⟨rfl, effect⟩ := known
          exact effect

end Session

end PooledPackets
