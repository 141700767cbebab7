import PooledPackets.Proofs.Ownership.Conservation
import PooledPackets.Proofs.Requests.Exact

/-!
# What new packets cost

A packet that is filled no further than it was asked for takes exactly the
segments that its size calls for. Whether a pool makes it depends on nothing
but how many segments are free at that moment.
-/

namespace PooledPackets

open Operation

/-- A packet fresh from a pool, filled with bytes, in as many segments as a
payload of some length needs. -/
structure Packet.Made (packet : Packet) (id : PoolId) (layout : Layout)
    (len : Nat) (bytes : Bytes) : Prop where
  filled : packet.Filled .never id layout len bytes
  size_eq : packet.chain.length = layout.segmentsFor len

/-! ## Free segments -/

namespace Pool

theorem Accounts.shortage?_eq {id : PoolId} {pool origin : Pool}
    {out : List Segment} (accounts : pool.Accounts id origin out)
    (free len : Nat) :
    pool.shortage? free len = origin.shortage? free len := by
  simp only [shortage?, accounts.layout_eq, accounts.config_eq]

/-- The segments that a packet takes from a pool. -/
def taken (id : PoolId) (packet : Packet) : Nat :=
  if packet.pool = id then packet.chain.length else 0

theorem length_numbersOf_chain {packet : Packet} (sound : packet.Sound)
    (id : PoolId) :
    (numbersOf id packet.chain).length = taken id packet := by
  rw [taken]
  split
  · rename_i own
    rw [numbersOf_of_own (own ▸ sound.own), List.length_map]
  · rename_i foreign
    rw [numbersOf_of_foreign, List.length_nil]
    intro segment member
    rw [sound.own segment member]
    exact foreign

end Pool

namespace Pools.Consistent

variable {pools origin : Pools} {live : List Packet}

/-- What packets take from a pool is missing from its queue. -/
theorem freeCount_add (consistent : pools.Consistent origin .never live)
    (id : PoolId) :
    (pools.get id).freeCount + (live.map (Pool.taken id)).sum =
      (origin.get id).checkedOut.size := by
  have parts : ∀ packets : List Packet,
      (∀ packet ∈ packets, packet.Sound) →
      (Pool.numbersOf id (packets.flatMap Packet.chain)).length =
        (packets.map (Pool.taken id)).sum := by
    intro packets
    induction packets with
    | nil => exact fun _ => rfl
    | cons packet rest inductionHypothesis =>
        intro sound
        rw [List.flatMap_cons, Pool.numbersOf_append, List.length_append,
          Pool.length_numbersOf_chain (sound packet (List.mem_cons_self ..)),
          inductionHypothesis fun other member => sound other (.tail _ member),
          List.map_cons, List.sum_cons]
  rw [← parts live consistent.kept]
  exact (consistent.balanced.accounts id).freeCount_add

/-- As many segments are free as long as the same packets are live. -/
theorem freeCount_congr {after : Pools}
    (consistent : pools.Consistent origin .never live)
    (unchanged : after.Consistent origin .never live) (id : PoolId) :
    (after.get id).freeCount = (pools.get id).freeCount := by
  have before := consistent.freeCount_add id
  have afterwards := unchanged.freeCount_add id
  omega

/-- What one more packet takes from a pool is all that the queue loses. -/
theorem freeCount_cons {after : Pools} {packet : Packet}
    (consistent : pools.Consistent origin .never live)
    (grown : after.Consistent origin .never (packet :: live)) (id : PoolId) :
    (after.get id).freeCount + Pool.taken id packet =
      (pools.get id).freeCount := by
  have before := consistent.freeCount_add id
  have afterwards := grown.freeCount_add id
  rw [List.map_cons, List.sum_cons] at afterwards
  omega

end Pools.Consistent

/-! ## Making a packet -/

namespace Packet

variable {packet : Packet} {pools : Pools}

/-- Bytes that fit need no further segment. -/
theorem append_fits {bytes : Bytes} (fits : bytes.length ≤ packet.available) :
    (packet.append bytes pools).Satisfies
      (fun longer after => longer.chain.map Segment.identity =
        packet.chain.map Segment.identity ∧ after = pools)
      (fun _ _ => True) (fun _ => True) := by
  refine Outcome.Satisfies.ite (fun _ => trivial) fun _ => ?_
  refine Outcome.Satisfies.ite
    (fun _ => Outcome.Satisfies.pure ⟨rfl, rfl⟩) fun _ => ?_
  have roomy : packet.makeRoom bytes.length = pure packet := if_pos fits
  have unchanged : (packet.makeRoom bytes.length pools).Satisfies
      (fun given after => given = packet ∧ after = pools)
      (fun _ _ => True) (fun _ => True) := by
    rw [roomy]
    exact Outcome.Satisfies.pure ⟨rfl, rfl⟩
  apply Outcome.Satisfies.bind unchanged
  rintro given _ ⟨rfl, rfl⟩
  cases writing : given.write bytes with
  | error violation => trivial
  | ok written =>
      apply Outcome.Satisfies.bind written.check_ends.neverRefused
      exact fun _ _ same =>
        Outcome.Satisfies.pure ⟨(write_keeps writing).1, same⟩

end Packet

theorem Pool.allocate_costs (id : PoolId) (len : Nat) {pools : Pools} :
    (allocate id len pools).Satisfies
      (fun packet _ =>
        (pools.get id).shortage? (pools.get id).freeCount len = none ∧
        packet.chain.length = (pools.get id).layout.segmentsFor len)
      (fun error after =>
        (pools.get id).shortage? (pools.get id).freeCount len = some error ∧
        pools.Refused id error after)
      (fun _ => True) := by
  apply (allocate_exactly id len pools).monoDone
  rintro packet after ⟨affordable, rfl, _⟩
  refine ⟨affordable, List.length_take_of_le ?_⟩
  exact (pools.get id).le_freeCount_of_affordable affordable

namespace Pools.Consistent

variable {pools origin : Pools} {others : List Packet} {packet : Packet}

/-- Pieces that fit need no further segment. -/
theorem appendAll_unextended {inHand : Packet → List Packet}
    (extra : List Packet)
    (owns : ∀ packet, (inHand packet).Perm (packet :: extra)) :
    ∀ (pieces : List Bytes) {packet : Packet} {pools : Pools},
      pools.Consistent origin .never (packet :: (extra ++ others)) →
      pieces.flatten.length ≤ packet.available →
      (packet.appendAll inHand pieces pools).Satisfies
        (fun longer after => longer.chain.map Segment.identity =
          packet.chain.map Segment.identity ∧ after = pools)
        (fun _ _ => True) (fun _ => True)
  | [], _, _, _, _ => ⟨rfl, rfl⟩
  | bytes :: rest, packet, pools, consistent, fits => by
      rw [List.flatten_cons, List.length_append] at fits
      have appended := (consistent.append_satisfies bytes).and
        (Packet.append_fits (by omega))
      apply Outcome.Satisfies.bind
        (((appended.mono (fun _ _ known => known) (fun _ _ _ => trivial)
          (fun _ _ => trivial)).holding fun _ _ _ => trivial).onFailure
            fun _ after _ => Outcome.Satisfies.trivially)
      rintro longer _ ⟨⟨consistentLonger, grown⟩, sameSegments, rfl⟩
      have room := grown.room rfl
      apply (appendAll_unextended extra owns rest consistentLonger
        (by omega)).monoDone
      rintro _ _ ⟨same, unchanged⟩
      exact ⟨same.trans sameSegments, unchanged⟩

/-- Pieces that fit are all taken. -/
theorem appendAll_fits {blank : Packet}
    (consistent : pools.Consistent origin .never (blank :: others))
    (held : blank.chain ≠ []) {pieces : List Bytes}
    (fits : pieces.flatten.length ≤ blank.available) :
    (blank.appendAll (fun filled => [filled]) pieces pools).Satisfies
      (fun packet after =>
        after.Consistent origin .never (packet :: others) ∧
        blank.Grown .never packet pieces.flatten ∧
        packet.chain.map Segment.identity =
          blank.chain.map Segment.identity ∧ after = pools)
      (fun _ _ => False) (fun _ => False) := by
  have inHand : ∀ packet : Packet, [packet].Perm (packet :: []) :=
    fun packet => .refl [packet]
  apply ((appendAll_satisfies [] inHand pieces consistent).and
    (appendAll_unextended [] inHand pieces consistent fits)).mono
  · rintro packet last ⟨⟨consistentLast, grown⟩, unextended⟩
    exact ⟨consistentLast, grown, unextended⟩
  · intro _ _ known
    obtain ⟨⟨_, full⟩, _⟩ := known
    have short := (full rfl).resolve_left held
    omega
  · exact fun _ impossible => impossible

/-- A pool makes a packet for pieces that are no longer than what was asked
for, at the cost that this has, unless it is short of segments. -/
theorem allocateWith_costs
    (consistent : pools.Consistent origin .never others) (id : PoolId)
    {len : Nat} {pieces : List Bytes} (fits : pieces.flatten.length ≤ len) :
    (Pool.allocateWith id len pieces pools).Satisfies
      (fun packet after =>
        after.Consistent origin .never (packet :: others) ∧
        packet.Made id (origin.get id).layout len pieces.flatten ∧
        (origin.get id).shortage? (pools.get id).freeCount len = none)
      (fun error after => after.Consistent origin .never others ∧
        (origin.get id).shortage? (pools.get id).freeCount len = some error ∧
        pools.Refused id error after)
      (fun _ => False) := by
  have accounts := consistent.balanced.accounts id
  have allocated := (consistent.allocate_satisfies id len).and
    (Pool.allocate_costs id len)
  rw [accounts.layout_eq] at allocated
  simp only [accounts.shortage?_eq] at allocated
  apply Outcome.Satisfies.bind (allocated.mono (fun _ _ known => known)
    (fun _ _ known => ⟨known.1.1, known.2⟩) (fun _ impossible => impossible))
  rintro blank after ⟨⟨consistentBlank, isBlank⟩, affordable, size⟩
  have holds := (origin.get id).layout.le_segmentsFor_mul len
  have roomy : pieces.flatten.length ≤ blank.available := by
    rw [isBlank.room]
    exact Nat.le_trans fits holds
  apply (appendAll_fits consistentBlank isBlank.held roomy).neverRefused.monoDone
  rintro packet last ⟨consistentLast, grown, sameSegments, _⟩
  have sameSize := congrArg List.length sameSegments
  rw [List.length_map, List.length_map] at sameSize
  exact ⟨consistentLast, ⟨⟨blank, isBlank, grown⟩, sameSize.trans size⟩,
    affordable⟩

/-! ## Making a fragment -/

variable {fragmenter : Fragmenter}

/-- Whether a fragment is made depends on the free segments alone, and one that
is not made has taken none of them. -/
theorem build_costs (consistent : pools.Consistent origin .never others)
    (sound : fragmenter.source.Sound) :
    (fragmenter.build fragmenter.nextLength pools).Satisfies
      (fun _ _ => (origin.get fragmenter.pool).shortage?
        (pools.get fragmenter.pool).freeCount fragmenter.nextLength = none)
      (fun error after => (origin.get fragmenter.pool).shortage?
          (pools.get fragmenter.pool).freeCount fragmenter.nextLength =
            some error ∧
        pools.Refused fragmenter.pool error after)
      (fun _ => True) := by
  obtain ⟨pieces, slicing, flat⟩ := sound.slices?_eq_some
    fragmenter.offset fragmenter.nextLength
  have fits : pieces.flatten.length ≤ fragmenter.nextLength := by
    rw [flat, Bytes.between, List.length_drop, List.length_take]
    omega
  rw [Fragmenter.build, slicing]
  apply Outcome.Satisfies.bind ((consistent.allocateWith_costs
    fragmenter.pool fits).mono (fun _ _ known => known.2.2)
      (fun _ _ known => known.2) (fun _ impossible => impossible.elim))
  exact fun _ _ affordable => Outcome.Satisfies.pure affordable

/-- A walk that is underway goes on with a fragment unless the pool is short of
segments. -/
theorem next_costs (consistent : pools.Consistent origin .never others)
    (sound : fragmenter.source.Sound)
    (unfinished : fragmenter.finished = false)
    (unstalled : fragmenter.stalled = false) :
    (fragmenter.next pools).Satisfies
      (fun result after =>
        match result.1 with
        | none => False
        | some (.error error) => after.Consistent origin .never others ∧
            (origin.get fragmenter.pool).shortage?
                (pools.get fragmenter.pool).freeCount
                  fragmenter.nextLength = some error ∧
            pools.Refused fragmenter.pool error after
        | some (.ok fragment) =>
            after.Consistent origin .never (fragment :: others) ∧
            result.2 = fragmenter.advance fragmenter.nextLength ∧
            fragmenter.Makes .never (origin.get fragmenter.pool).layout
              fragment ∧
            (origin.get fragmenter.pool).shortage?
              (pools.get fragmenter.pool).freeCount
                fragmenter.nextLength = none)
      (fun _ _ => False) (fun _ => False) := by
  have built := (consistent.build_satisfies sound).and
    (consistent.build_costs sound)
  rw [(consistent.balanced.accounts fragmenter.pool).layout_eq] at built
  rw [Fragmenter.next, unfinished, unstalled]
  apply Outcome.Satisfies.bind built.attempt.neverRefused
  intro result after known
  cases result with
  | error error => exact Outcome.Satisfies.pure known
  | ok fragment =>
      obtain ⟨⟨consistentFragment, makes⟩, affordable⟩ := known
      apply Outcome.Satisfies.bind
        (consistentFragment.count_satisfies fragmenter.pool _)
      intro _ last consistentLast
      exact Outcome.Satisfies.pure ⟨consistentLast, rfl, makes, affordable⟩

end Pools.Consistent

end PooledPackets
