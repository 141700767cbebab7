import PooledPackets.Proofs.Contents.Reserves
import PooledPackets.Proofs.Ownership.Making

/-!
# Packets and their histories

The history of a packet is told without looking at the packet: the bytes that
it was made from, the byte strings added since, and its tag. The operations
that make packets or add to them make them match their histories.
-/

namespace PooledPackets

/-- What happened to a packet. -/
inductive History where
  /-- It was made from some bytes and has the given tag; then byte strings were
  added, in their order. -/
  | lives (origin : Bytes) (added : List Bytes) (tag : Option FragmentTag)
  /-- It was released. -/
  | released

namespace History

/-- The history of a packet just made. -/
def made (origin : Bytes) (tag : Option FragmentTag) : History :=
  lives origin [] tag

def adding (bytes : Bytes) : History → History
  | lives origin added tag => lives origin (added ++ [bytes]) tag
  | released => released

/-- The payload that the packet has come to by now. -/
def bytes : History → Bytes
  | lives origin added _ => origin ++ added.flatten
  | released => []

def tag : History → Option FragmentTag
  | lives _ _ tag => tag
  | released => none

def isReleased : History → Bool
  | lives _ _ _ => false
  | released => true

@[simp]
theorem bytes_made (origin : Bytes) (tag : Option FragmentTag) :
    (made origin tag).bytes = origin :=
  List.append_nil origin

end History

/-- A packet has the payload and the tag that its history says, and it has
segments unless it was released. -/
structure Packet.Matches (packet : Packet) (history : History) : Prop where
  bytes_eq : packet.toBytes = history.bytes
  tag_eq : packet.tag = history.tag
  isReleased_eq : packet.isReleased = history.isReleased

namespace Packet

variable {packet longer : Packet} {history : History} {bytes : Bytes}

theorem isReleased_eq_false_iff :
    packet.isReleased = false ↔ packet.chain ≠ [] := by
  rw [isReleased, List.isEmpty_eq_false_iff]

namespace Matches

theorem made {tag : Option FragmentTag} (held : packet.chain ≠ [])
    (spelled : packet.toBytes = bytes) (tagged : packet.tag = tag) :
    packet.Matches (.made bytes tag) where
  bytes_eq := by rw [spelled, History.bytes_made]
  tag_eq := tagged
  isReleased_eq := isReleased_eq_false_iff.mpr held

theorem husk (packet : Packet) : packet.husk.Matches .released :=
  ⟨rfl, rfl, rfl⟩

/-- A packet with a tag was not released. -/
theorem held_of_tag (told : packet.Matches history) {tag : FragmentTag}
    (tagged : packet.tag = some tag) : packet.chain ≠ [] := by
  have sameTag := told.tag_eq
  rw [tagged] at sameTag
  rw [← isReleased_eq_false_iff, told.isReleased_eq]
  cases history with
  | lives origin added tag => rfl
  | released => cases sameTag

theorem grown (told : packet.Matches history) (held : packet.chain ≠ [])
    (grown : packet.Grown .never longer bytes) :
    longer.Matches (history.adding bytes) := by
  have live := told.isReleased_eq
  rw [isReleased_eq_false_iff.mpr held] at live
  cases history with
  | released => cases live
  | lives origin added tag =>
      refine ⟨?_, grown.tag_eq.trans told.tag_eq, ?_⟩
      · rw [grown.spelled rfl, told.bytes_eq]
        simp [History.adding, History.bytes]
      · exact isReleased_eq_false_iff.mpr (grown.held held)

/-- Only the payload, the tag and whether there are segments matter. -/
theorem of_same (told : packet.Matches history)
    (sameBytes : longer.toBytes = packet.toBytes)
    (sameTag : longer.tag = packet.tag)
    (sameSize : longer.chain.length = packet.chain.length) :
    longer.Matches history where
  bytes_eq := sameBytes.trans told.bytes_eq
  tag_eq := sameTag.trans told.tag_eq
  isReleased_eq := by
    rw [← told.isReleased_eq, isReleased, isReleased, Bool.eq_iff_iff,
      List.isEmpty_iff_length_eq_zero, List.isEmpty_iff_length_eq_zero,
      sameSize]

end Matches

end Packet

namespace Pools.Consistent

variable {pools origin : Pools} {others : List Packet} {packet : Packet}
variable {history : History}

theorem allocate_matches
    (consistent : pools.Consistent origin .never others) (id : PoolId)
    (len : Nat) :
    (Pool.allocate id len pools).Satisfies
      (fun packet _ => packet.Matches (.made [] none)) (fun _ _ => True)
      (fun _ => True) := by
  apply (consistent.allocate_satisfies id len).mono
  · intro packet _ known
    exact .made known.2.held known.2.blank known.2.tag_eq
  · exact fun _ _ _ => trivial
  · exact fun _ _ => trivial

theorem allocateWith_matches
    (consistent : pools.Consistent origin .never others) (id : PoolId)
    (len : Nat) (pieces : List Bytes) :
    (Pool.allocateWith id len pieces pools).Satisfies
      (fun packet _ => packet.Matches (.made pieces.flatten none))
      (fun _ _ => True) (fun _ => True) := by
  apply (consistent.allocateWith_satisfies id len pieces).mono
  · intro packet _ known
    exact .made known.2.held known.2.spelled known.2.tag_eq
  · exact fun _ _ _ => trivial
  · exact fun _ _ => trivial

theorem packetFrom_matches
    (consistent : pools.Consistent origin .never others) (id : PoolId)
    (bytes : Bytes) :
    (Pool.packetFrom id bytes pools).Satisfies
      (fun packet _ => packet.Matches (.made bytes none)) (fun _ _ => True)
      (fun _ => True) := by
  have filled := consistent.allocateWith_matches id bytes.length [bytes]
  rw [List.flatten_singleton] at filled
  exact filled

theorem copyPacket_matches
    (consistent : pools.Consistent origin .never others) (id : PoolId)
    (told : packet.Matches history) :
    (Pool.copyPacket id packet pools).Satisfies
      (fun copy _ => copy.Matches (.made history.bytes history.tag))
      (fun _ _ => True) (fun _ => True) := by
  refine Outcome.Satisfies.ite (fun _ => trivial) ?_
  intro _
  apply Outcome.Satisfies.bind
    (consistent.allocateWith_matches id packet.length packet.chunks)
  intro copy _ filled
  refine Outcome.Satisfies.pure ⟨?_, told.tag_eq, filled.isReleased_eq⟩
  rw [History.bytes_made, ← told.bytes_eq, ← packet.flatten_chunks]
  exact filled.bytes_eq.trans (History.bytes_made _ _)

theorem receiveFrame_matches
    (consistent : pools.Consistent origin .never others) (id : PoolId)
    (frame : Bytes) :
    (Pool.receiveFrame id frame pools).Satisfies
      (fun fragment _ => fragment.Matches
        (.made (frame.drop FragmentHeader.size)
          ((FragmentHeader.decode (pools.get id).config.byteOrder
            frame).toOption.map FragmentHeader.toTag)))
      (fun _ _ => True) (fun _ => True) := by
  apply Outcome.Satisfies.readPool
  apply Outcome.Satisfies.ofExcept (fun _ _ => trivial)
  intro header decoded
  apply Outcome.Satisfies.bind
    (consistent.packetFrom_matches id (frame.drop FragmentHeader.size))
  intro packet _ filled
  refine Outcome.Satisfies.pure
    ⟨filled.bytes_eq, ?_, filled.isReleased_eq⟩
  rw [decoded]
  rfl

theorem append_matches
    (consistent : pools.Consistent origin .never (packet :: others))
    (told : packet.Matches history) (bytes : Bytes) :
    (packet.append bytes pools).Satisfies
      (fun longer _ => longer.Matches (history.adding bytes))
      (fun _ _ => True) (fun _ => True) := by
  cases isReleased : packet.isReleased with
  | true =>
      simp only [Packet.append, isReleased, if_true]
      trivial
  | false =>
      have held := Packet.isReleased_eq_false_iff.mp isReleased
      apply (consistent.append_satisfies bytes).mono
      · exact fun _ _ known => told.grown held known.2
      · exact fun _ _ _ => trivial
      · exact fun _ _ => trivial

end Pools.Consistent

theorem Packet.release_matches (packet : Packet) {pools : Pools} :
    (packet.release pools).Satisfies
      (fun husk _ => husk.Matches .released) (fun _ _ => True)
      (fun _ => True) := by
  refine Outcome.Satisfies.ite ?_ ?_
  · intro _
    exact Outcome.Satisfies.bind
      (@Outcome.Satisfies.trivially _ (Operation.count packet.pool _ pools))
      fun _ _ _ => trivial
  · intro _
    apply Outcome.Satisfies.bind
      (@Outcome.Satisfies.trivially _ (packet.giveBack pools))
    exact fun _ _ _ => Outcome.Satisfies.pure (.husk packet)

theorem Packet.Matches.writeZone {packet : Packet} {history : History}
    (told : packet.Matches history) {zone : Packet.Zone}
    (reserve : zone ≠ .payload) (only : Option Nat) (bytes : Bytes) :
    (packet.writeZone zone only bytes).Matches history :=
  told.of_same (packet.toBytes_writeZone reserve only bytes) rfl
    List.length_mapIdx

theorem Packet.writeFragmentHeader_matches {packet : Packet}
    {history : History} (told : packet.Matches history) {pools : Pools} :
    (packet.writeFragmentHeader pools).Satisfies
      (fun stamped _ => stamped.Matches history) (fun _ _ => True)
      (fun _ => True) := by
  apply packet.writeFragmentHeader_keeps.monoDone
  intro stamped _ same
  exact told.of_same same.1 same.2.1 same.2.2

end PooledPackets
