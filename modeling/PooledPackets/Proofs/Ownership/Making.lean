import PooledPackets.Fragment.Fragmenter
import PooledPackets.Proofs.Ownership.Packets
import PooledPackets.Proofs.Packets.Reading

/-!
# New packets

A new packet takes its segments from one pool and is live from then on. If it
cannot be made, the segments taken so far are back in their pool.
-/

namespace PooledPackets

open Operation

/-- The pool cannot make a packet with room for so many bytes. -/
def Pool.Lacks (pool : Pool) (len : Nat) : Prop :=
  (1 < pool.layout.segmentsFor len ∧ pool.config.chaining = false) ∨
    pool.freeCount < pool.layout.segmentsFor len

/-- An empty packet fresh from a pool, with room for so many bytes. -/
structure Packet.Blank (packet : Packet) (id : PoolId) (layout : Layout)
    (len : Nat) : Prop where
  tag_eq : packet.tag = none
  pool_eq : packet.pool = id
  held : packet.chain ≠ []
  blank : packet.toBytes = []
  room : packet.available = layout.segmentsFor len * layout.maxPayload

/-- A packet fresh from a pool, filled with bytes. -/
def Packet.Filled (exchange : Exchange) (id : PoolId) (layout : Layout)
    (len : Nat) (bytes : Bytes) (packet : Packet) : Prop :=
  ∃ blank : Packet, blank.Blank id layout len ∧
    blank.Grown exchange packet bytes

namespace Packet.Filled

variable {exchange : Exchange} {id : PoolId} {layout : Layout} {len : Nat}
variable {bytes : Bytes} {packet : Packet}

theorem tag_eq (filled : packet.Filled exchange id layout len bytes) :
    packet.tag = none := by
  obtain ⟨blank, isBlank, grown⟩ := filled
  exact grown.tag_eq.trans isBlank.tag_eq

theorem pool_eq (filled : packet.Filled exchange id layout len bytes) :
    packet.pool = id := by
  obtain ⟨blank, isBlank, grown⟩ := filled
  exact grown.pool_eq.trans isBlank.pool_eq

theorem held (filled : packet.Filled exchange id layout len bytes) :
    packet.chain ≠ [] := by
  obtain ⟨blank, isBlank, grown⟩ := filled
  exact grown.held isBlank.held

theorem spelled (filled : packet.Filled .never id layout len bytes) :
    packet.toBytes = bytes := by
  obtain ⟨blank, isBlank, grown⟩ := filled
  rw [grown.spelled rfl, isBlank.blank, List.nil_append]

/-- What was not written is still available. -/
theorem room (filled : packet.Filled .never id layout len bytes) :
    layout.segmentsFor len * layout.maxPayload ≤
      packet.available + bytes.length := by
  obtain ⟨blank, isBlank, grown⟩ := filled
  rw [← isBlank.room]
  exact grown.room rfl

end Packet.Filled

namespace Pools.Consistent

variable {pools origin : Pools} {exchange : Exchange}
variable {others : List Packet} {packet : Packet}

/-! ## Empty packets -/

/-- Segments that are out become a packet. -/
theorem assemble_satisfies {id : PoolId} {segments : List Segment}
    (balanced : pools.Balanced origin
      (segments ++ others.flatMap Packet.chain))
    (kept : ∀ packet ∈ others, packet.Kept exchange)
    (own : exchange ≠ .freely → ∀ segment ∈ segments, segment.pool = id) :
    (Packet.assemble id segments pools).Satisfies
      (fun packet after => packet = Packet.ofSegments id segments ∧
        after.Consistent origin exchange (packet :: others))
      (fun _ _ => False) exchange.MayStop := by
  have keptNew := Packet.kept_ofSegments own
  have consistent : pools.Consistent origin exchange
      (Packet.ofSegments id segments :: others) := by
    refine ⟨?_, ?_⟩
    · simpa [Packet.ofSegments] using balanced
    · intro packet member
      rcases List.mem_cons.mp member with rfl | inOthers
      · exact keptNew
      · exact kept packet inOthers
  have keptInHand : ∀ packet ∈ [Packet.ofSegments id segments],
      packet.Kept exchange := by
    simpa using keptNew
  apply Outcome.Satisfies.bind (holding keptInHand
    (consistent.check_satisfies (List.mem_cons_self ..)))
  rintro _ _ rfl
  exact Outcome.Satisfies.pure ⟨rfl, consistent⟩

/-- A pool makes a packet unless it lacks the segments or must not chain as
many as would be needed. -/
theorem allocate_satisfies
    (consistent : pools.Consistent origin exchange others) (id : PoolId)
    (len : Nat) :
    (Pool.allocate id len pools).Satisfies
      (fun packet after =>
        after.Consistent origin exchange (packet :: others) ∧
        packet.Blank id (pools.get id).layout len)
      (fun _ after => after.Consistent origin exchange others ∧
        (pools.get id).Lacks len)
      exchange.MayStop := by
  refine Outcome.Satisfies.readPool (Outcome.Satisfies.ite ?_ ?_)
  · intro tooLarge
    apply Outcome.Satisfies.bind
      (consistent.count_satisfies _ _).neverRefused
    intro _ after consistentAfter
    exact Outcome.Satisfies.fail ⟨consistentAfter, Or.inl tooLarge⟩
  · intro _
    refine Outcome.Satisfies.bind
      ((Pool.checkOut_satisfies consistent.balanced id _).monoRefused ?_) ?_
    · intro _ after ending
      exact ⟨⟨ending.1, consistent.kept⟩, Or.inr ending.2⟩
    · intro segments after ending
      obtain ⟨balanced, counted, fresh⟩ := ending
      apply Outcome.Satisfies.bind (balanced.count_satisfies _ _).neverRefused
      intro _ after' balancedAfter
      have assembled := assemble_satisfies balancedAfter consistent.kept
        (fun _ segment isNew => (fresh segment isNew).1)
      apply assembled.neverRefused.monoDone
      intro _ last ending
      obtain ⟨rfl, consistentLast⟩ := ending
      have empty : ∀ segment ∈ segments, segment.length = 0 :=
        fun segment isNew => (fresh segment isNew).2.1
      have layout := (consistent.balanced.accounts id).layout_eq
      refine ⟨consistentLast, rfl, rfl, ?_, Packet.chainBytes_of_empty empty,
        ?_⟩
      · intro none
        have positive := (pools.get id).layout.segmentsFor_pos len
        rw [← counted, show segments = [] from none] at positive
        exact Nat.lt_irrefl 0 positive
      · rw [Packet.available_ofSegments empty, ← counted]
        exact room_of_fresh fun segment isNew =>
          ⟨empty segment isNew, (fresh segment isNew).2.2.trans layout.symm⟩

/-! ## Filling packets -/

/-- Byte strings are added one after the other. If one is refused, the packets
in hand have been dropped; without an exchange that happens only if the byte
strings do not all fit. -/
theorem appendAll_satisfies {inHand : Packet → List Packet}
    (extra : List Packet)
    (owns : ∀ packet, (inHand packet).Perm (packet :: extra)) :
    ∀ (pieces : List Bytes) {packet : Packet} {pools : Pools},
      pools.Consistent origin exchange (packet :: (extra ++ others)) →
      (packet.appendAll inHand pieces pools).Satisfies
        (fun longer after =>
          after.Consistent origin exchange (longer :: (extra ++ others)) ∧
          packet.Grown exchange longer pieces.flatten)
        (fun _ after => after.Consistent origin exchange others ∧
          (exchange = .never → packet.chain = [] ∨
            packet.available < pieces.flatten.length))
        exchange.MayStop
  | [], packet, _, consistent => ⟨consistent, .refl exchange packet⟩
  | bytes :: rest, packet, pools, consistent => by
      have keptInHand : ∀ other ∈ inHand packet, other.Kept exchange := by
        intro other member
        apply consistent.kept other
        exact List.mem_append_left others ((owns packet).mem_iff.mp member)
      refine Outcome.Satisfies.bind (Outcome.Satisfies.onFailure
        (holding keptInHand (consistent.append_satisfies bytes)) ?_) ?_
      · intro _ after ending
        obtain ⟨consistentAfter, full⟩ := ending
        have inHandFirst : after.Consistent origin exchange
            (inHand packet ++ others) :=
          consistentAfter.perm ((owns packet).symm.append_right others)
        apply inHandFirst.dropAll_satisfies.returned.neverRefused.monoDone
        intro _ last consistentLast
        refine ⟨consistentLast, fun _ => full.imp id fun short => ?_⟩
        rw [List.flatten_cons, List.length_append]
        omega
      · intro longer after ending
        obtain ⟨consistentLonger, grown⟩ := ending
        refine (appendAll_satisfies extra owns rest consistentLonger).mono ?_ ?_
          (fun _ known => known)
        · intro longest last ending
          obtain ⟨consistentLongest, further⟩ := ending
          exact ⟨consistentLongest, grown.trans further⟩
        · intro _ last ending
          obtain ⟨consistentLast, full⟩ := ending
          refine ⟨consistentLast, fun intact => ?_⟩
          by_cases held : packet.chain = []
          · exact Or.inl held
          · have short := (full intact).resolve_left (grown.held held)
            have room := grown.room intact
            rw [List.flatten_cons, List.length_append]
            exact Or.inr (by omega)

/-- A new packet is filled with the given pieces. Without an exchange it cannot
be made only if the pool lacks what is asked for, or the pieces are longer than
that. -/
theorem allocateWith_satisfies
    (consistent : pools.Consistent origin exchange others) (id : PoolId)
    (len : Nat) (pieces : List Bytes) :
    (Pool.allocateWith id len pieces pools).Satisfies
      (fun packet after =>
        after.Consistent origin exchange (packet :: others) ∧
        packet.Filled exchange id (pools.get id).layout len pieces.flatten)
      (fun _ after => after.Consistent origin exchange others ∧
        (exchange = .never → (pools.get id).Lacks len ∨
          len < pieces.flatten.length))
      exchange.MayStop := by
  have allocated := consistent.allocate_satisfies id len
  apply Outcome.Satisfies.bind (allocated.monoRefused
    fun _ _ known => ⟨known.1, fun _ => Or.inl known.2⟩)
  intro blank after ending
  obtain ⟨consistentBlank, isBlank⟩ := ending
  refine (appendAll_satisfies [] (fun packet => .refl [packet])
    pieces consistentBlank).mono ?_ ?_ (fun _ known => known)
  · intro packet last ending
    obtain ⟨consistentLast, grown⟩ := ending
    exact ⟨consistentLast, blank, isBlank, grown⟩
  · intro _ last ending
    obtain ⟨consistentLast, full⟩ := ending
    refine ⟨consistentLast, fun intact => Or.inr ?_⟩
    have short := (full intact).resolve_left isBlank.held
    have enough := (pools.get id).layout.le_segmentsFor_mul len
    rw [isBlank.room] at short
    omega

theorem packetFrom_satisfies
    (consistent : pools.Consistent origin exchange others) (id : PoolId)
    (bytes : Bytes) :
    (Pool.packetFrom id bytes pools).Satisfies
      (fun packet after =>
        after.Consistent origin exchange (packet :: others))
      (fun _ after => after.Consistent origin exchange others)
      exchange.MayStop :=
  (consistent.allocateWith_satisfies id _ _).mono
    (fun _ _ known => known.1) (fun _ _ known => known.1)
    (fun _ known => known)

/-- A tag changes nothing about what is live. -/
theorem withTag
    (consistent : pools.Consistent origin exchange (packet :: others))
    (tag : Option FragmentTag) :
    pools.Consistent origin exchange (packet.withTag tag :: others) := by
  have kept := consistent.kept packet (List.mem_cons_self ..)
  refine replace [packet] [packet.withTag tag] consistent ?_ ?_
  · simp [Packet.withTag]
  · simpa using kept.withTag tag

theorem copyPacket_satisfies
    (consistent : pools.Consistent origin exchange others) (id : PoolId)
    (packet : Packet) :
    (Pool.copyPacket id packet pools).Satisfies
      (fun copy after => after.Consistent origin exchange (copy :: others))
      (fun _ after => after.Consistent origin exchange others)
      exchange.MayStop := by
  unfold Pool.copyPacket
  split
  · exact Outcome.Satisfies.fail consistent
  · have allocated := consistent.allocateWith_satisfies id packet.length
      packet.chunks
    apply Outcome.Satisfies.bind (allocated.mono (fun _ _ known => known.1)
      (fun _ _ known => known.1) (fun _ known => known))
    intro copy after consistentCopy
    exact Outcome.Satisfies.pure (consistentCopy.withTag packet.tag)

theorem receiveFrame_satisfies
    (consistent : pools.Consistent origin exchange others) (id : PoolId)
    (frame : Bytes) :
    (Pool.receiveFrame id frame pools).Satisfies
      (fun fragment after =>
        after.Consistent origin exchange (fragment :: others))
      (fun _ after => after.Consistent origin exchange others)
      exchange.MayStop := by
  apply Outcome.Satisfies.readPool
  apply Outcome.Satisfies.ofExcept (fun _ _ => consistent)
  intro header _
  apply Outcome.Satisfies.bind (consistent.packetFrom_satisfies id _)
  intro packet after consistentPacket
  exact Outcome.Satisfies.pure (consistentPacket.withTag _)

/-! ## Splitting packets -/

/-- Only the number of the next datagram changes when a walk begins. -/
theorem fragmentForLink_satisfies
    (consistent : pools.Consistent origin exchange others) (id : PoolId)
    (packet : Packet) (mtu : Nat) :
    (Pool.fragmentForLink id packet mtu pools).Satisfies
      (fun fragmenter after => after.Consistent origin exchange others ∧
        fragmenter.source = packet)
      (fun _ after => after.Consistent origin exchange others)
      exchange.MayStop := by
  unfold Pool.fragmentForLink
  split
  · exact Outcome.Satisfies.fail consistent
  · split
    · exact Outcome.Satisfies.fail consistent
    · apply Outcome.Satisfies.readPool
      split
      · exact Outcome.Satisfies.fail consistent
      · have accounts := consistent.balanced.accounts id
        have renumbered : Pool.Accounts id
            { pools.get id with
              nextDatagram := (pools.get id).nextDatagram + 1 }
            (origin.get id) (others.flatMap Packet.chain) :=
          { accounts with }
        exact ⟨⟨consistent.balanced.set renumbered
          (fun _ _ unchanged => unchanged), consistent.kept⟩, rfl⟩

end Pools.Consistent

/-- A fragment is the next piece of a walk: it has the tag for its place, and
without an exchange the bytes of that place. -/
structure Fragmenter.Makes (fragmenter : Fragmenter) (exchange : Exchange)
    (layout : Layout) (fragment : Packet) : Prop where
  tag_eq : fragment.tag = some {
    datagram := fragmenter.datagram
    offset := fragmenter.offset
    moreFragments := decide
      (fragmenter.offset + fragmenter.nextLength <
        fragmenter.source.length) }
  filled : ∃ bytes, ∃ body : Packet, body.Filled exchange fragmenter.pool layout
    fragmenter.nextLength bytes ∧ fragment = body.withTag fragment.tag ∧
    (exchange = .never → bytes = fragmenter.source.toBytes.between
      fragmenter.offset (fragmenter.offset + fragmenter.nextLength))

namespace Pools.Consistent

variable {pools origin : Pools} {exchange : Exchange}
variable {others : List Packet} {fragmenter : Fragmenter}

theorem build_satisfies
    (consistent : pools.Consistent origin exchange others)
    (kept : fragmenter.source.Kept exchange) :
    (fragmenter.build fragmenter.nextLength pools).Satisfies
      (fun fragment after =>
        after.Consistent origin exchange (fragment :: others) ∧
        fragmenter.Makes exchange (pools.get fragmenter.pool).layout fragment)
      (fun _ after => after.Consistent origin exchange others)
      exchange.MayStop := by
  unfold Fragmenter.build
  cases slicing : fragmenter.source.slices? fragmenter.offset
      fragmenter.nextLength with
  | none =>
      simp only
      apply Outcome.Satisfies.bind
        ((consistent.allocate_satisfies _ _).monoRefused
          fun _ _ known => known.1)
      intro _ after _
      apply Outcome.Satisfies.halt
      cases exchange with
      | never =>
          obtain ⟨pieces, found, _⟩ :=
            Packet.Sound.slices?_eq_some kept fragmenter.offset
              fragmenter.nextLength
          simp [slicing] at found
      | withinPools => trivial
      | freely => trivial
  | some pieces =>
      simp only
      apply Outcome.Satisfies.bind
        ((consistent.allocateWith_satisfies _ _ pieces).monoRefused
          fun _ _ known => known.1)
      intro body after ending
      obtain ⟨consistentBody, filled⟩ := ending
      refine Outcome.Satisfies.pure ⟨consistentBody.withTag _, rfl,
        pieces.flatten, body, filled, rfl, ?_⟩
      intro intact
      subst intact
      obtain ⟨found, slicingFound, flat⟩ :=
        Packet.Sound.slices?_eq_some kept fragmenter.offset
          fragmenter.nextLength
      rw [slicing] at slicingFound
      cases slicingFound
      exact flat

/-- The next fragment is live once it is made; if it cannot be made the walk
stalls where it is. -/
theorem next_satisfies
    (consistent : pools.Consistent origin exchange others)
    (kept : fragmenter.source.Kept exchange) :
    (fragmenter.next pools).Satisfies
      (fun result after => result.2.source = fragmenter.source ∧
        match result.1 with
        | none => after = pools ∧ result.2 = fragmenter
        | some (.error _) => after.Consistent origin exchange others ∧
            result.2 = { fragmenter with stalled := true }
        | some (.ok fragment) =>
            after.Consistent origin exchange (fragment :: others) ∧
            result.2 = fragmenter.advance fragmenter.nextLength ∧
            fragmenter.Makes exchange (pools.get fragmenter.pool).layout
              fragment)
      (fun _ _ => False) exchange.MayStop := by
  unfold Fragmenter.next
  split
  · exact Outcome.Satisfies.pure ⟨rfl, rfl, rfl⟩
  · apply Outcome.Satisfies.bind
      (consistent.build_satisfies kept).attempt
    intro result after known
    cases result with
    | error error => exact Outcome.Satisfies.pure ⟨rfl, known, rfl⟩
    | ok fragment =>
        apply Outcome.Satisfies.bind
          (known.1.count_satisfies fragmenter.pool _)
        intro _ last consistentLast
        exact Outcome.Satisfies.pure ⟨rfl, consistentLast, rfl, known.2⟩

end Pools.Consistent
end PooledPackets
