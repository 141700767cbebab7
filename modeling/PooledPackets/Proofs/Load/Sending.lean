import PooledPackets.Proofs.Load.Links

/-!
# Sending a packet

A packet is cut into portions, which cross the link one after the other.
Whether all of them get across can be told beforehand from the length of the
payload and the free segments at both ends.
-/

namespace PooledPackets

open Operation

namespace Extent

/-- The extents of so many portions of a payload, from a position on. The last
one ends with the payload. -/
def cuts (len portion : Nat) : (start count : Nat) → List Extent
  | _, 0 => []
  | start, count + 1 =>
      ⟨start, min portion (len - start)⟩ ::
        cuts len portion (start + portion) count

theorem length_between {whole : Bytes} {extent : Extent}
    (within : extent.start + extent.length ≤ whole.length) :
    (whole.between extent.start (extent.start + extent.length)).length =
      extent.length := by
  rw [Bytes.length_between within, Nat.add_sub_cancel_left]

end Extent

/-! ## What is left of a walk -/

namespace Fragmenter

/-- The extents of the fragments still to come. -/
def extents (fragmenter : Fragmenter) : List Extent :=
  Extent.cuts fragmenter.source.length fragmenter.fragmentLength
    fragmenter.offset fragmenter.left

variable {fragmenter : Fragmenter}

/-- Behind the fragment that comes next there is either nothing or what is left
of the walk after it. -/
theorem Underway.extents_cases (underway : fragmenter.Underway) :
    (fragmenter.offset + fragmenter.nextLength = fragmenter.source.length ∧
      fragmenter.left = 1 ∧ fragmenter.extents =
        [⟨fragmenter.offset, fragmenter.nextLength⟩]) ∨
    ((0 < fragmenter.nextLength ∧ fragmenter.offset + fragmenter.nextLength <
        fragmenter.source.length) ∧
      (fragmenter.advance fragmenter.nextLength).Underway ∧
      fragmenter.left =
        (fragmenter.advance fragmenter.nextLength).left + 1 ∧
      fragmenter.extents = ⟨fragmenter.offset, fragmenter.nextLength⟩ ::
        (fragmenter.advance fragmenter.nextLength).extents) := by
  rcases underway.advance with ⟨ends, _⟩ | ⟨positive, goesOn, further⟩
  · have alone := left_eq_of_ends underway.progress ends
    refine Or.inl ⟨ends, alone, ?_⟩
    rw [extents, alone]
    rfl
  · have fewer := left_advance underway.progress goesOn
    have behind : fragmenter.offset + fragmenter.fragmentLength =
        (fragmenter.advance fragmenter.nextLength).offset := by
      rw [← nextLength_of_goesOn goesOn]
      rfl
    refine Or.inr ⟨⟨positive, goesOn⟩, further, fewer, ?_⟩
    rw [extents, fewer, Extent.cuts, behind]
    rfl

theorem Underway.exists_extents (underway : fragmenter.Underway) :
    ∃ rest, fragmenter.extents =
      ⟨fragmenter.offset, fragmenter.nextLength⟩ :: rest := by
  rcases underway.extents_cases with ⟨_, _, single⟩ | ⟨_, _, _, several⟩
  · exact ⟨_, single⟩
  · exact ⟨_, several⟩

/-- All that is still to come lies within the payload. -/
theorem Underway.within_of_mem :
    ∀ {count : Nat} {fragmenter : Fragmenter}, fragmenter.Underway →
      fragmenter.left = count → ∀ extent ∈ fragmenter.extents,
        extent.start + extent.length ≤ fragmenter.source.toBytes.length
  | 0, _, _, counted => by
      rw [left] at counted
      omega
  | count + 1, fragmenter, underway, counted => by
      have within := underway.nextLength_le
      rcases underway.extents_cases with
        ⟨_, _, single⟩ | ⟨_, further, fewer, several⟩
      · rw [single]
        simpa using within
      · rw [several, List.forall_mem_cons]
        exact ⟨within, within_of_mem further
          (Nat.succ.inj (fewer.symm.trans counted))⟩

end Fragmenter

namespace Load

namespace Link

/-- Why not all fragments get across, if so many segments are free at the two
ends. -/
def obstacle? (link : Link) (origin : Pools) (here : Nat) :
    (there : Nat) → List Extent → Option BufferError
  | _, [] => none
  | there, extent :: rest =>
      (((origin.get link.sender).shortage? here extent.length).or
        (link.barrier? origin there extent)).or
          (link.obstacle? origin here
            (there - (origin.get link.receiver).layout.segmentsFor
              extent.length) rest)

/-- The payload bytes in each fragment but the last. -/
def portion (link : Link) (origin : Pools) : Nat :=
  if (origin.get link.sender).config.chaining then link.mtu
  else min link.mtu (origin.get link.sender).layout.maxPayload

theorem portion_pos {link : Link} {origin : Pools}
    (ready : link.Ready origin) : 0 < link.portion origin :=
  (origin.get link.sender).portion_pos ready.mtu_pos

/-- The extents of the fragments of a payload. -/
def extents (link : Link) (origin : Pools) (len : Nat) : List Extent :=
  Extent.cuts len (link.portion origin) 0
    (max (Layout.portions len (link.portion origin)) 1)

/-- Why a payload of some length that is in a packet already is not sent, if so
many segments are free at the two ends. -/
def sendRefusal? (link : Link) (origin : Pools) (here there len : Nat) :
    Option BufferError :=
  if link.mtu < len ∧
      (origin.get link.sender).config.fragmentation = false then
    some (.fragmentationDisabled len link.mtu)
  else link.obstacle? origin here there (link.extents origin len)

/-- A packet arrives as the part of a payload that an extent tells. -/
def Carries (link : Link) (origin : Pools) (whole : Bytes)
    (datagram : UInt32) (extent : Extent) (arrival : Packet) : Prop :=
  Arrives link.receiver (origin.get link.receiver).layout
    (link.carried origin {
      datagram
      offset := extent.start
      moreFragments :=
        decide (extent.start + extent.length < whole.length) })
    (whole.between extent.start (extent.start + extent.length)) arrival

end Link

section Sending

variable {link : Link} {origin pools : Pools} {others : List Packet}

namespace Link.Carries

variable {whole : Bytes} {datagram : UInt32} {extent : Extent}
variable {arrival : Packet}

theorem pool_eq
    (carries : link.Carries origin whole datagram extent arrival) :
    arrival.pool = link.receiver :=
  carries.made.filled.pool_eq

theorem size_eq
    (carries : link.Carries origin whole datagram extent arrival)
    (within : extent.start + extent.length ≤ whole.length) :
    arrival.chain.length =
      (origin.get link.receiver).layout.segmentsFor extent.length := by
  rw [← Extent.length_between within]
  exact carries.made.size_eq

/-- What a packet that has arrived takes from the receiving pool. -/
theorem taken_eq
    (carries : link.Carries origin whole datagram extent arrival)
    (within : extent.start + extent.length ≤ whole.length) :
    Pool.taken link.receiver arrival =
      (origin.get link.receiver).layout.segmentsFor extent.length := by
  rw [Pool.taken, if_pos carries.pool_eq, carries.size_eq within]

theorem room (carries : link.Carries origin whole datagram extent arrival)
    (within : extent.start + extent.length ≤ whole.length) :
    (origin.get link.receiver).layout.segmentsFor extent.length *
        (origin.get link.receiver).layout.maxPayload ≤
      arrival.available + extent.length := by
  have room := carries.made.filled.room
  rw [Extent.length_between within] at room
  exact room

end Link.Carries

/-- The fragment that a walk makes next crosses as its part of the payload. -/
theorem transfer_carries {fragmenter : Fragmenter} {fragment : Packet}
    (ready : link.Ready origin) (underway : fragmenter.Underway)
    (own : fragmenter.pool = link.sender)
    (makes : fragmenter.Makes .never (origin.get link.sender).layout fragment)
    (consistent : pools.Consistent origin .never (fragment :: others)) :
    (link.transfer fragment pools).Satisfies
      (fun arrival after =>
        after.Consistent origin .never (arrival :: others) ∧
        link.Carries origin fragmenter.source.toBytes fragmenter.datagram
          ⟨fragmenter.offset, fragmenter.nextLength⟩ arrival ∧
        link.barrier? origin (pools.get link.receiver).freeCount
          ⟨fragmenter.offset, fragmenter.nextLength⟩ = none)
      (fun error after => after.Consistent origin .never others ∧
        link.barrier? origin (pools.get link.receiver).freeCount
          ⟨fragmenter.offset, fragmenter.nextLength⟩ = some error)
      (fun _ => False) := by
  have sound : fragment.Sound :=
    consistent.kept fragment (List.mem_cons_self ..)
  obtain ⟨length, isPiece⟩ := underway.makes_piece makes sound
  have crossed := transfer_satisfies ready consistent isPiece.tag_eq
    isPiece.held (isPiece.pool_eq.trans own)
  rw [isPiece.spelled, length] at crossed
  exact crossed

/-- What is still in the way once a fragment has crossed is what was in the way
of the others. -/
theorem obstacle?_of_crossed {after : Pools} {live : List Packet}
    {whole : Bytes} {datagram : UInt32} {extent : Extent} {arrival : Packet}
    (ready : link.Ready origin)
    (consistent : pools.Consistent origin .never live)
    (grown : after.Consistent origin .never (arrival :: live))
    (carries : link.Carries origin whole datagram extent arrival)
    (within : extent.start + extent.length ≤ whole.length)
    (affordable : (origin.get link.sender).shortage?
      (pools.get link.sender).freeCount extent.length = none)
    (clear : link.barrier? origin (pools.get link.receiver).freeCount
      extent = none) (rest : List Extent) :
    link.obstacle? origin (pools.get link.sender).freeCount
        (pools.get link.receiver).freeCount (extent :: rest) =
      link.obstacle? origin (after.get link.sender).freeCount
        (after.get link.receiver).freeCount rest := by
  have sameHere := consistent.freeCount_cons grown link.sender
  rw [Pool.taken, carries.pool_eq, if_neg (Ne.symm ready.apart),
    Nat.add_zero] at sameHere
  have fewerThere := consistent.freeCount_cons grown link.receiver
  rw [carries.taken_eq within] at fewerThere
  rw [Link.obstacle?, affordable, clear, sameHere, ← fewerThere,
    Nat.add_sub_cancel]
  rfl

/-- How bringing fragments over ends: some more have arrived, the packet that
they are made of is still there, and the reason why no more arrived is the one
that was foretold. -/
def Link.Transferred (link : Link) (origin : Pools) (others : List Packet)
    (fragmenter : Fragmenter) (arrivals : List Packet)
    (foretold : Option BufferError)
    (result : List Packet × Option BufferError) (after : Pools) : Prop :=
  ∃ further, result.1 = arrivals ++ further ∧
    after.Consistent origin .never
      (arrivals ++ further ++ fragmenter.source :: others) ∧
    result.2 = foretold ∧
    (result.2 = none → List.Forall₂
      (link.Carries origin fragmenter.source.toBytes fragmenter.datagram)
      fragmenter.extents further)

/-- Something is in the way of the next fragment. -/
theorem transferred_obstructed {fragmenter : Fragmenter}
    {arrivals : List Packet} {error : BufferError} {here there : Nat}
    {rest : List Extent}
    (consistent : pools.Consistent origin .never
      (arrivals ++ fragmenter.source :: others))
    (obstructed : ((origin.get link.sender).shortage? here
        fragmenter.nextLength).or (link.barrier? origin there
          ⟨fragmenter.offset, fragmenter.nextLength⟩) = some error) :
    link.Transferred origin others fragmenter arrivals
      (link.obstacle? origin here there
        (⟨fragmenter.offset, fragmenter.nextLength⟩ :: rest))
      (arrivals, some error) pools := by
  refine ⟨[], (List.append_nil _).symm, ?_, ?_,
    fun impossible => nomatch impossible⟩
  · rw [List.append_nil]
    exact consistent
  · rw [Link.obstacle?, obstructed]
    rfl

/-- What arrives behind a fragment comes after it. -/
theorem Link.Transferred.arrived {fragmenter : Fragmenter}
    {arrivals : List Packet} {arrival : Packet}
    {foretold : Option BufferError}
    {result : List Packet × Option BufferError}
    (transferred : link.Transferred origin others
      (fragmenter.advance fragmenter.nextLength) (arrivals ++ [arrival])
        foretold result pools)
    (carries : link.Carries origin fragmenter.source.toBytes
      fragmenter.datagram ⟨fragmenter.offset, fragmenter.nextLength⟩ arrival)
    (several : fragmenter.extents =
      ⟨fragmenter.offset, fragmenter.nextLength⟩ ::
        (fragmenter.advance fragmenter.nextLength).extents) :
    link.Transferred origin others fragmenter arrivals foretold result
      pools := by
  obtain ⟨rest, found, consistent, isReason, carried⟩ := transferred
  refine ⟨arrival :: rest, ?_, ?_, isReason, ?_⟩
  · rw [found, List.append_assoc]
    rfl
  · rw [List.append_cons arrivals arrival rest]
    exact consistent
  · intro all
    rw [several]
    exact .cons carries (carried all)

/-- All fragments get across, or the first thing in the way is told. -/
theorem transferAll_satisfies (ready : link.Ready origin) :
    ∀ {count : Nat} {fragmenter : Fragmenter} {arrivals : List Packet}
      {pools : Pools},
      fragmenter.Underway → fragmenter.stalled = false →
      fragmenter.pool = link.sender → fragmenter.left = count →
      pools.Consistent origin .never
        (arrivals ++ fragmenter.source :: others) →
      (link.transferAll count fragmenter arrivals pools).Satisfies
        (link.Transferred origin others fragmenter arrivals
          (link.obstacle? origin (pools.get link.sender).freeCount
            (pools.get link.receiver).freeCount fragmenter.extents))
        (fun _ _ => False) (fun _ => False)
  | 0, fragmenter, _, _, _, _, _, counted, _ => by
      rw [Fragmenter.left] at counted
      omega
  | count + 1, fragmenter, arrivals, pools, underway, unstalled, own,
      counted, consistent => by
      obtain ⟨rest, first⟩ := underway.exists_extents
      have yields := consistent.next_costs underway.sound
        underway.unfinished unstalled
      rw [own] at yields
      apply Outcome.Satisfies.bind yields
      rintro ⟨made, next⟩ stocked known
      cases made with
      | none => exact known.elim
      | some item =>
          cases item with
          | error error =>
              obtain ⟨consistentAfter, short, _⟩ := known
              rw [first]
              exact Outcome.Satisfies.pure
                (transferred_obstructed consistentAfter (by rw [short]; rfl))
          | ok fragment =>
              obtain ⟨consistentFragment, rfl, makes, affordable⟩ := known
              have stillFree := consistent.freeCount_cons consistentFragment
                link.receiver
              rw [Pool.taken, makes.pool_eq, own, if_neg ready.apart,
                Nat.add_zero] at stillFree
              have crossed := transfer_carries ready underway own makes
                consistentFragment
              rw [stillFree] at crossed
              apply Outcome.Satisfies.bind crossed.attempt
              intro result after known
              cases result with
              | error error =>
                  obtain ⟨consistentAfter, barred⟩ := known
                  rw [first]
                  exact Outcome.Satisfies.pure
                    (transferred_obstructed consistentAfter (by
                      rw [affordable, barred]
                      rfl))
              | ok arrival =>
                  obtain ⟨consistentArrival, carries, clear⟩ := known
                  have passed := obstacle?_of_crossed ready consistent
                    consistentArrival carries underway.nextLength_le affordable
                    clear
                  have inOrder : after.Consistent origin .never
                      (arrivals ++ [arrival] ++ fragmenter.source :: others) :=
                    consistentArrival.perm (by
                      rw [List.append_assoc]
                      exact List.perm_middle.symm)
                  rcases underway.extents_cases with
                    ⟨_, alone, single⟩ | ⟨_, further, fewer, several⟩
                  · rw [single, passed]
                    obtain rfl : count = 0 := by omega
                    exact Outcome.Satisfies.pure ⟨[arrival], rfl, inOrder, rfl,
                      fun _ => single ▸ .cons carries .nil⟩
                  · rw [several, passed]
                    apply (transferAll_satisfies ready further unstalled own
                      (by omega) inOrder).monoDone
                    exact fun _ _ later => later.arrived carries several

/-- The fragmenter of a packet that is to cross the link. -/
def Link.fragmenter (link : Link) (origin : Pools) (source : Packet)
    (datagram : UInt32) : Fragmenter where
  pool := link.sender
  source := source
  datagram := datagram
  fragmentLength := link.portion origin
  offset := 0
  finished := false
  stalled := false

theorem underway_fragmenter {source : Packet} (ready : link.Ready origin)
    (sound : source.Sound) (datagram : UInt32) :
    (link.fragmenter origin source datagram).Underway :=
  Fragmenter.underway_unbegun link.sender sound datagram
    (link.portion_pos ready)

/-- A walk begins unless the packet must not be split. -/
theorem fragmentForLink_begins {source : Packet} (ready : link.Ready origin)
    (consistent : pools.Consistent origin .never others)
    (held : source.chain ≠ []) :
    (Pool.fragmentForLink link.sender source link.mtu pools).Satisfies
      (fun fragmenter after => after.Consistent origin .never others ∧
        ¬(link.mtu < source.length ∧
          (origin.get link.sender).config.fragmentation = false) ∧
        ∃ datagram, fragmenter = link.fragmenter origin source datagram)
      (fun error after => after.Consistent origin .never others ∧
        (link.mtu < source.length ∧
          (origin.get link.sender).config.fragmentation = false) ∧
        error = .fragmentationDisabled source.length link.mtu)
      (fun _ => False) := by
  have accounts := consistent.balanced.accounts link.sender
  have unreleased : source.isReleased = false := by
    simpa [Packet.isReleased] using held
  have samePortion : (pools.get link.sender).portion link.mtu =
      link.portion origin := by
    rw [Pool.portion, accounts.config_eq, accounts.layout_eq]
    rfl
  have known := (consistent.fragmentForLink_satisfies link.sender source
    link.mtu).and
      (Pool.fragmentForLink_exactly link.sender source link.mtu pools)
  rw [Pool.splitRefusal?_of_held unreleased ready.mtu_pos,
    accounts.config_eq, samePortion] at known
  by_cases forbidden : link.mtu < source.length ∧
      (origin.get link.sender).config.fragmentation = false
  · rw [if_pos forbidden] at known
    apply known.mono ?_ ?_ (fun _ stopped => stopped)
    · rintro begun after ⟨_, impossible, _⟩
      cases impossible
    · rintro error after ⟨consistentAfter, isRefusal, _⟩
      cases isRefusal
      exact ⟨consistentAfter, forbidden, rfl⟩
  · rw [if_neg forbidden] at known
    apply known.mono ?_ ?_ (fun _ stopped => stopped)
    · rintro begun after ⟨⟨consistentAfter, _⟩, _, isBegun, _⟩
      exact ⟨consistentAfter, forbidden, _, isBegun⟩
    · rintro error after ⟨_, impossible, _⟩
      cases impossible

/-- A packet is sent unless something is in the way, and it is gone then. -/
theorem send_satisfies {source : Packet} (ready : link.Ready origin)
    (consistent : pools.Consistent origin .never (source :: others))
    (held : source.chain ≠ []) :
    (link.send source pools).Satisfies
      (fun result after =>
        after.Consistent origin .never (result.1 ++ others) ∧
        result.2 = link.sendRefusal? origin
          (pools.get link.sender).freeCount
            (pools.get link.receiver).freeCount source.length ∧
        (result.2 = none → ∃ datagram, List.Forall₂
          (link.Carries origin source.toBytes datagram)
            (link.extents origin source.length) result.1))
      (fun _ _ => False) (fun _ => False) := by
  have sound : source.Sound :=
    consistent.kept source (List.mem_cons_self ..)
  apply Outcome.Satisfies.bind
    (fragmentForLink_begins ready consistent held).attempt
  intro begun after known
  cases begun with
  | error error =>
      obtain ⟨consistentAfter, forbidden, rfl⟩ := known
      apply Outcome.Satisfies.bind
        consistentAfter.drop_satisfies.returned.neverRefused
      intro _ last consistentLast
      refine Outcome.Satisfies.pure ⟨consistentLast, ?_,
        fun impossible => nomatch impossible⟩
      rw [Link.sendRefusal?, if_pos forbidden]
  | ok fragmenter =>
      obtain ⟨consistentAfter, allowed, datagram, rfl⟩ := known
      have underway := underway_fragmenter ready sound datagram
      have noneYet : after.Consistent origin .never
          ([] ++ source :: others) := consistentAfter
      apply Outcome.Satisfies.bind
        (transferAll_satisfies ready underway rfl rfl rfl noneYet)
      rintro ⟨arrivals, reason⟩ last
        ⟨_, rfl, consistentLast, isReason, carried⟩
      have sourceFirst : last.Consistent origin .never
          (source :: (arrivals ++ others)) :=
        consistentLast.perm List.perm_middle
      apply Outcome.Satisfies.bind
        sourceFirst.drop_satisfies.returned.neverRefused
      intro _ final consistentFinal
      refine Outcome.Satisfies.pure ⟨consistentFinal, ?_, fun all =>
        ⟨datagram, carried all⟩⟩
      rw [Link.sendRefusal?, if_neg allowed, isReason,
        consistent.freeCount_congr consistentAfter,
        consistent.freeCount_congr consistentAfter]
      rfl

end Sending

end Load

end PooledPackets
