import PooledPackets.Proofs.Fragments.Headers
import PooledPackets.Proofs.Fragments.Reach
import PooledPackets.Proofs.Fragments.Stamping
import PooledPackets.Proofs.Load.Pools
import PooledPackets.Proofs.Ownership.Costs

/-!
# Crossing a link

Fragments cross a link one after the other, as frames or by copying. What
arrives is the same payload in a packet of the receiving pool. Whether it
arrives depends on nothing but how many segments are free at either end.
-/

namespace PooledPackets.Load

open Operation

namespace Link

/-- The header that a tag is sent as. -/
def headerOf (tag : FragmentTag) : FragmentHeader :=
  ⟨tag.datagram, .ofNat tag.offset, tag.moreFragments⟩

theorem toHeader_eq {tag : FragmentTag}
    (small : tag.offset ≤ FragmentTag.maxOffset) :
    tag.toHeader = .ok (headerOf tag) :=
  if_pos small

/-- A header that a tag fits into stands for that tag. -/
theorem toTag_headerOf {tag : FragmentTag}
    (small : tag.offset ≤ FragmentTag.maxOffset) :
    (headerOf tag).toTag = tag := by
  have isWord : (UInt32.ofNat tag.offset).toNat = tag.offset := by
    apply UInt32.toNat_ofNat_of_lt'
    simp only [FragmentTag.maxOffset] at small
    exact Nat.lt_of_le_of_lt small (by decide)
  rw [headerOf, FragmentHeader.toTag]
  dsimp only
  rw [isWord]

/-- The tag that a fragment has once it has crossed. -/
def carried (link : Link) (origin : Pools) (tag : FragmentTag) :
    FragmentTag :=
  if link.frames then
    ((headerOf tag).reread (origin.get link.sender).config.byteOrder
      (origin.get link.receiver).config.byteOrder).toTag
  else tag

/-- Why a fragment does not get across, if so many segments are free on the
other side. -/
def barrier? (link : Link) (origin : Pools) (free : Nat) (extent : Extent) :
    Option BufferError :=
  if link.frames = true ∧ FragmentTag.maxOffset < extent.start then
    some (.outOfBounds extent.start FragmentTag.maxOffset)
  else (origin.get link.receiver).shortage? free extent.length

end Link

/-! ## Frames -/

theorem frameOf_stamped {packet : Packet} {first stamped : Segment}
    {rest : List Segment} {header : FragmentHeader} {order : ByteOrder}
    (isChain : packet.chain = first :: rest)
    (writing : first.writeHeaderEnd? (header.encode order) = some stamped) :
    frameOf { packet with chain := stamped :: rest } =
      header.encode order ++ packet.toBytes := by
  have ending := Segment.drop_header_of_writeHeaderEnd? writing
  rw [FragmentHeader.length_encode] at ending
  have samePayload : ({ packet with chain := stamped :: rest } :
      Packet).toBytes = packet.toBytes := by
    apply Packet.chainBytes_eq_of_payload
    rw [isChain, List.map_cons, List.map_cons,
      Segment.payload_writeHeaderEnd? writing]
  rw [frameOf, samePayload]
  exact congrArg (· ++ packet.toBytes) ending

section Crossing

variable {link : Link} {origin pools : Pools} {others : List Packet}
variable {fragment : Packet} {tag : FragmentTag}

/-- A header that finds room ahead of the payload is written unless the offset
is too large for it. -/
theorem stamp_satisfies
    (consistent : pools.Consistent origin .never (fragment :: others))
    (tagged : fragment.tag = some tag) (held : fragment.chain ≠ [])
    (room : FragmentHeader.size ≤
      (pools.get fragment.pool).layout.headerReserve) :
    (fragment.writeFragmentHeader pools).Satisfies
      (fun stamped after => after = pools ∧
        tag.offset ≤ FragmentTag.maxOffset ∧
        frameOf stamped = (Link.headerOf tag).encode
          (pools.get fragment.pool).config.byteOrder ++ fragment.toBytes)
      (fun error _ => FragmentTag.maxOffset < tag.offset ∧
        error = .outOfBounds tag.offset FragmentTag.maxOffset)
      (fun _ => False) := by
  have decided := consistent.writeFragmentHeader_exactly tagged held
  rw [Packet.headerRefusal?, if_neg (Nat.not_lt_of_le room)] at decided
  by_cases tooFar : FragmentTag.maxOffset < tag.offset
  · rw [if_pos tooFar] at decided
    rw [decided]
    exact ⟨tooFar, rfl⟩
  · rw [if_neg tooFar] at decided
    obtain ⟨header, first, rest, stamped, isHeader, isChain, writing,
      written⟩ := decided
    have small := Nat.le_of_not_lt tooFar
    cases (Link.toHeader_eq small).symm.trans isHeader
    rw [written]
    exact ⟨rfl, small, frameOf_stamped isChain writing⟩

/-- A packet that is dropped after an operation is gone, however that ended. -/
theorem thenDrop_satisfies {operation : Operation Packet}
    {known : Packet → Prop} {reason : BufferError → Prop}
    (contract : (operation pools).Satisfies
      (fun arrival after => after.Consistent origin .never
        (arrival :: fragment :: others) ∧ known arrival)
      (fun error after => after.Consistent origin .never
        (fragment :: others) ∧ reason error)
      (fun _ => False)) :
    (thenDrop operation fragment pools).Satisfies
      (fun arrival after => after.Consistent origin .never
        (arrival :: others) ∧ known arrival)
      (fun error after => after.Consistent origin .never others ∧
        reason error)
      (fun _ => False) := by
  apply Outcome.Satisfies.bind contract.attempt.neverRefused
  intro result after ending
  cases result with
  | ok arrival =>
      have fragmentFirst : after.Consistent origin .never
          (fragment :: (arrival :: others)) :=
        ending.1.perm (List.Perm.swap _ _ _)
      apply Outcome.Satisfies.bind
        fragmentFirst.drop_satisfies.returned.neverRefused
      exact fun _ _ dropped => ⟨dropped, ending.2⟩
  | error error =>
      apply Outcome.Satisfies.bind
        ending.1.drop_satisfies.returned.neverRefused
      exact fun _ _ dropped => ⟨dropped, ending.2⟩

/-! ## Arriving -/

theorem withTag_withTag {body : Packet} (untagged : body.tag = none)
    (tag : Option FragmentTag) : (body.withTag tag).withTag none = body := by
  rw [← untagged]
  rfl

/-- A packet arrives with a tag, made for the payload of a fragment. -/
structure Arrives (id : PoolId) (layout : Layout) (tag : FragmentTag)
    (payload : Bytes) (arrival : Packet) : Prop where
  tag_eq : arrival.tag = some tag
  made : (arrival.withTag none).Made id layout payload.length payload

theorem receiveFrame_satisfies
    (consistent : pools.Consistent origin .never others) (id : PoolId)
    (header : FragmentHeader) (written : ByteOrder) (payload : Bytes) :
    (Pool.receiveFrame id (header.encode written ++ payload)
      pools).Satisfies
        (fun arrival after =>
          after.Consistent origin .never (arrival :: others) ∧
          Arrives id (origin.get id).layout
            (header.reread written (origin.get id).config.byteOrder).toTag
              payload arrival ∧
          (origin.get id).shortage? (pools.get id).freeCount
            payload.length = none)
        (fun error after => after.Consistent origin .never others ∧
          (origin.get id).shortage? (pools.get id).freeCount
            payload.length = some error)
        (fun _ => False) := by
  have sameOrder := congrArg Config.byteOrder
    (consistent.balanced.accounts id).config_eq
  have isHeader := header.decode_encode written
    (pools.get id).config.byteOrder payload
  have isPayload : (header.encode written ++ payload).drop
      FragmentHeader.size = payload :=
    List.drop_left' (header.length_encode written)
  apply Outcome.Satisfies.readPool
  apply Outcome.Satisfies.ofExcept
  · intro error impossible
    cases isHeader.symm.trans impossible
  · intro found isFound
    cases isHeader.symm.trans isFound
    rw [isPayload, Pool.packetFrom, sameOrder]
    apply Outcome.Satisfies.bind
      ((consistent.allocateWith_costs id (by simp)).monoRefused
        fun _ _ known => ⟨known.1, known.2.1⟩)
    rintro body after ⟨consistentBody, made, affordable⟩
    rw [List.flatten_singleton] at made
    refine Outcome.Satisfies.pure
      ⟨consistentBody.withTag _, ⟨rfl, ?_⟩, affordable⟩
    rw [withTag_withTag made.filled.tag_eq]
    exact made

theorem copyPacket_satisfies
    (consistent : pools.Consistent origin .never others) (id : PoolId)
    (sound : fragment.Sound) (tagged : fragment.tag = some tag)
    (held : fragment.chain ≠ []) :
    (Pool.copyPacket id fragment pools).Satisfies
      (fun arrival after =>
        after.Consistent origin .never (arrival :: others) ∧
        Arrives id (origin.get id).layout tag fragment.toBytes arrival ∧
        (origin.get id).shortage? (pools.get id).freeCount
          fragment.toBytes.length = none)
      (fun error after => after.Consistent origin .never others ∧
        (origin.get id).shortage? (pools.get id).freeCount
          fragment.toBytes.length = some error)
      (fun _ => False) := by
  unfold Pool.copyPacket
  rw [if_neg (by simpa [Packet.isReleased] using held),
    ← sound.length_toBytes]
  apply Outcome.Satisfies.bind ((consistent.allocateWith_costs id
    (Nat.le_of_eq (congrArg List.length fragment.flatten_chunks))).monoRefused
      fun _ _ known => ⟨known.1, known.2.1⟩)
  rintro body after ⟨consistentBody, made, affordable⟩
  rw [Packet.flatten_chunks] at made
  refine Outcome.Satisfies.pure
    ⟨consistentBody.withTag _, ⟨tagged, ?_⟩, affordable⟩
  rw [withTag_withTag made.filled.tag_eq]
  exact made

/-- A fragment gets across unless something is in the way. -/
theorem transfer_satisfies (ready : link.Ready origin)
    (consistent : pools.Consistent origin .never (fragment :: others))
    (tagged : fragment.tag = some tag) (held : fragment.chain ≠ [])
    (own : fragment.pool = link.sender) :
    (link.transfer fragment pools).Satisfies
      (fun arrival after =>
        after.Consistent origin .never (arrival :: others) ∧
        Arrives link.receiver (origin.get link.receiver).layout
          (link.carried origin tag) fragment.toBytes arrival ∧
        link.barrier? origin (pools.get link.receiver).freeCount
          ⟨tag.offset, fragment.length⟩ = none)
      (fun error after => after.Consistent origin .never others ∧
        link.barrier? origin (pools.get link.receiver).freeCount
          ⟨tag.offset, fragment.length⟩ = some error)
      (fun _ => False) := by
  have sound : fragment.Sound :=
    consistent.kept fragment (List.mem_cons_self ..)
  have sameLength := sound.length_toBytes
  have accounts := consistent.balanced.accounts link.sender
  unfold Link.transfer Link.carried Link.barrier?
  by_cases frames : link.frames = true
  · rw [if_pos frames, if_pos frames]
    have room := ready.headerRoom frames
    rw [← accounts.layout_eq, ← own] at room
    have stamped := consistent.writeFragmentHeader_satisfies.and
      (stamp_satisfies consistent tagged held room)
    apply Outcome.Satisfies.bind stamped.attempt.neverRefused
    intro result after ending
    cases result with
    | error error =>
        obtain ⟨consistentAfter, tooFar, rfl⟩ := ending
        rw [if_pos ⟨frames, tooFar⟩]
        apply Outcome.Satisfies.bind
          consistentAfter.drop_satisfies.returned.neverRefused
        exact fun _ _ dropped => ⟨dropped, rfl⟩
    | ok stamped =>
        obtain ⟨consistentStamped, rfl, small, isFrame⟩ := ending
        rw [own, accounts.config_eq] at isFrame
        rw [if_neg fun both => Nat.not_lt_of_le small both.2]
        have received := receiveFrame_satisfies consistentStamped
          link.receiver (Link.headerOf tag)
          (origin.get link.sender).config.byteOrder fragment.toBytes
        rw [← isFrame, sameLength] at received
        exact thenDrop_satisfies received
  · rw [if_neg frames, if_neg frames, if_neg fun both => frames both.1]
    have copied :=
      copyPacket_satisfies consistent link.receiver sound tagged held
    rw [sameLength] at copied
    exact thenDrop_satisfies copied

end Crossing

end PooledPackets.Load
