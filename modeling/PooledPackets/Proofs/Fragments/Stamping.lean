import PooledPackets.Proofs.Ownership.Packets

/-!
# Writing a header

The header of a fragment has a place of its own: the end of the header reserve
of its first segment. Whether it is written is decided by the pool of the
fragment and by its tag alone.
-/

namespace PooledPackets

open Operation

/-- Why the header of a fragment is not written. -/
def Packet.headerRefusal? (sender : Pool) (tag : FragmentTag) :
    Option BufferError :=
  if sender.layout.headerReserve < FragmentHeader.size then
    some (.headerTooSmall sender.layout.headerReserve FragmentHeader.size)
  else if FragmentTag.maxOffset < tag.offset then
    some (.outOfBounds tag.offset FragmentTag.maxOffset)
  else none

theorem Packet.headerRefusal?_eq_none_iff {sender : Pool}
    {tag : FragmentTag} :
    headerRefusal? sender tag = none ↔
      FragmentHeader.size ≤ sender.layout.headerReserve ∧
        tag.offset ≤ FragmentTag.maxOffset := by
  unfold headerRefusal?
  split
  · rename_i noRoom
    simp [Nat.not_le_of_lt noRoom]
  · split
    · rename_i tooFar
      simp [Nat.not_le_of_lt tooFar]
    · rename_i room near
      exact ⟨fun _ => ⟨Nat.le_of_not_lt room, Nat.le_of_not_lt near⟩,
        fun _ => rfl⟩

namespace Pools.Consistent

variable {pools origin : Pools} {others : List Packet}
variable {fragment : Packet} {tag : FragmentTag}

/-- A header is refused with nothing changed, or it is written at the end of
the header reserve of the first segment. -/
theorem writeFragmentHeader_exactly
    (consistent : pools.Consistent origin .never (fragment :: others))
    (tagged : fragment.tag = some tag) (held : fragment.chain ≠ []) :
    match Packet.headerRefusal? (pools.get fragment.pool) tag with
    | some error =>
        fragment.writeFragmentHeader pools = .failed error pools
    | none => ∃ header first rest stamped, tag.toHeader = .ok header ∧
        fragment.chain = first :: rest ∧
        first.writeHeaderEnd? (header.encode
          (pools.get fragment.pool).config.byteOrder) = some stamped ∧
        fragment.writeFragmentHeader pools =
          .done { fragment with chain := stamped :: rest } pools := by
  have isRead : readPool fragment.pool pools =
      .done (pools.get fragment.pool) pools := rfl
  rw [Packet.writeFragmentHeader, tagged, Packet.headerRefusal?]
  dsimp only
  rw [bind_of_done isRead]
  by_cases noRoom : (pools.get fragment.pool).layout.headerReserve <
      FragmentHeader.size
  · rw [if_pos noRoom, if_pos noRoom]
    rfl
  rw [if_neg noRoom, if_neg noRoom]
  by_cases tooFar : FragmentTag.maxOffset < tag.offset
  · have noHeader : tag.toHeader =
        .error (.outOfBounds tag.offset FragmentTag.maxOffset) :=
      if_neg (Nat.not_le_of_lt tooFar)
    rw [if_pos tooFar, noHeader]
    rfl
  obtain ⟨header, isHeader⟩ : ∃ header, tag.toHeader = .ok header :=
    ⟨_, if_pos (Nat.le_of_not_lt tooFar)⟩
  obtain ⟨first, rest, isChain⟩ := List.exists_cons_of_ne_nil held
  cases writing : first.writeHeaderEnd? (header.encode
      (pools.get fragment.pool).config.byteOrder) with
  | none =>
      have tooSmall := Segment.writeHeaderEnd?_eq_none_iff.mp writing
      have laidOut := consistent.laidOut (List.mem_cons_self ..) (by decide)
        first (isChain ▸ List.mem_cons_self ..)
      rw [laidOut, FragmentHeader.length_encode] at tooSmall
      exact absurd tooSmall noRoom
  | some stamped =>
      rw [if_neg tooFar, isHeader, isChain]
      refine ⟨header, first, rest, stamped, rfl, rfl, writing, ?_⟩
      have encoded : ofExcept (.ok header) pools = .done header pools := rfl
      rw [bind_of_done encoded]
      dsimp only
      rw [writing]
      rfl

end Pools.Consistent

end PooledPackets
