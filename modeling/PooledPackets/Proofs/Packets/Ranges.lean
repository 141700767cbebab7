import PooledPackets.Packet

/-!
# Ranges of any packet

What is recorded of a packet may disagree with its chain. A range that begins
beyond the recorded end is out of range exactly if the chain goes on there in a
segment that begins in front of that end; every other range can be read, and a
read at a position never fails for its range.
-/

namespace PooledPackets.Packet

/-- Some segment of a chain that starts at a position begins in front of `stop`
and reaches past `offset`. -/
def Reaches (offset stop : Nat) : (position : Nat) → List Segment → Prop
  | _, [] => False
  | position, segment :: rest =>
      (position < stop ∧ offset < position + segment.length) ∨
        Reaches offset stop (position + segment.length) rest

/-- A packet that is asked for a range beyond its recorded end, but whose chain
still has bytes there in a segment that begins before that end. -/
def Overreaches (packet : Packet) (offset : Nat) : Prop :=
  packet.length < offset ∧ Reaches offset packet.length 0 packet.chain

variable {packet : Packet} {offset stop : Nat}

theorem sliceChain_eq_none_iff :
    ∀ {chain : List Segment} {position : Nat},
      sliceChain offset stop position chain = none ↔
        stop < offset ∧ Reaches offset stop position chain
  | [], _ => by
      simp [sliceChain, Reaches]
  | segment :: rest, position => by
      have later := @sliceChain_eq_none_iff rest (position + segment.length)
      simp only [sliceChain, Segment.length_payload, Reaches]
      by_cases apart : position + segment.length ≤ offset ∨ stop ≤ position
      · have notHere : ¬(position < stop ∧
            offset < position + segment.length) := by
          omega
        rw [if_pos apart, later]
        simp only [notHere, false_or]
      · have here : position < stop ∧
            offset < position + segment.length := by
          omega
        rw [if_neg apart]
        by_cases ordered : offset - position ≤
            min segment.length (stop - position)
        · have notBeyond : ¬stop < offset := by omega
          rw [if_pos ordered, Option.map_eq_none_iff, later]
          simp only [notBeyond, false_and]
        · have beyond : stop < offset := by omega
          rw [if_neg ordered]
          simp only [here, beyond, and_self, true_or]

/-- The pieces of a range are no longer than the range. -/
theorem length_le_of_sliceChain :
    ∀ {chain : List Segment} {position : Nat} {pieces : List Bytes},
      sliceChain offset stop position chain = some pieces →
        pieces.flatten.length ≤ stop - max offset position
  | [], _, _, slicing => by
      cases slicing
      exact Nat.zero_le _
  | segment :: rest, position, pieces, slicing => by
      simp only [sliceChain, Segment.length_payload] at slicing
      split at slicing
      · have shorter := length_le_of_sliceChain slicing
        omega
      · split at slicing
        · rename_i touched ordered
          obtain ⟨later, isLater, rfl⟩ := Option.map_eq_some_iff.mp slicing
          have shorter := length_le_of_sliceChain isLater
          rw [List.flatten_cons, List.length_append, Bytes.between,
            List.length_drop, List.length_take, Segment.length_payload]
          omega
        · cases slicing

/-- A range is out of range only beyond the recorded end of the packet. -/
theorem slices?_eq_none_iff {len : Nat} :
    packet.slices? offset len = none ↔ packet.Overreaches offset := by
  rw [slices?, sliceChain_eq_none_iff, Overreaches]
  by_cases beyond : packet.length < offset
  · have recorded : min (offset + len) packet.length = packet.length := by
      omega
    rw [recorded]
  · have notShort : ¬min (offset + len) packet.length < offset := by omega
    simp only [beyond, notShort, false_and]

/-- A read at a position is refused beyond the recorded end, so it is always
within range. -/
theorem readAt_ne_outOfRange (packet : Packet) (offset : Nat)
    (destination : Bytes) :
    packet.readAt offset destination ≠ .outOfRange := by
  unfold readAt
  split
  · simp
  · split
    · simp
    · rename_i inside
      cases slicing : packet.slices? offset destination.length with
      | none =>
          have beyond := (slices?_eq_none_iff.mp slicing).1
          exact absurd beyond inside
      | some pieces =>
          have shorter := length_le_of_sliceChain slicing
          have fits : pieces.flatten.length ≤ destination.length := by omega
          dsimp only
          rw [if_pos fits]
          exact ReadOutcome.noConfusion

end PooledPackets.Packet
