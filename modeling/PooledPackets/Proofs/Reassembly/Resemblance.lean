import PooledPackets.Proofs.Reassembly.Insertion
import PooledPackets.Proofs.RelatedTables

/-!
# Fragments that look alike

What becomes of a fragment does not depend on which segments hold it. Two
fragments with the same tag and the same payload in segments of the same sizes
lead from datagrams that look alike to datagrams that look alike.
-/

namespace PooledPackets

/-- Two packets that nothing tells apart but the segments that hold them. -/
structure Packet.Resembles (packet other : Packet) : Prop where
  tag_eq : packet.tag = other.tag
  pool_eq : packet.pool = other.pool
  length_eq : packet.length = other.length
  payload_eq : packet.chain.map Segment.payload =
    other.chain.map Segment.payload
  room_eq : packet.available = other.available

namespace Packet.Resembles

instance : DecidableRel Resembles := fun packet other =>
  decidable_of_iff (packet.tag = other.tag ∧ packet.pool = other.pool ∧
    packet.length = other.length ∧
    packet.chain.map Segment.payload = other.chain.map Segment.payload ∧
    packet.available = other.available)
    ⟨fun ⟨tag, pool, length, payload, room⟩ =>
      ⟨tag, pool, length, payload, room⟩,
    fun ⟨tag, pool, length, payload, room⟩ =>
      ⟨tag, pool, length, payload, room⟩⟩

variable {packet other : Packet}

theorem chunks_eq (alike : packet.Resembles other) :
    packet.chunks = other.chunks := by
  rw [chunks, chunks, alike.payload_eq]

theorem toBytes_eq (alike : packet.Resembles other) :
    packet.toBytes = other.toBytes := by
  simp only [toBytes, chainBytes, List.flatMap_def, alike.payload_eq]

end Packet.Resembles

/-- Datagrams of which the same has arrived. -/
structure Assembly.Resembles (assembly other : Assembly) : Prop where
  deadline_eq : assembly.deadline = other.deadline
  held : assembly.held.Related Packet.Resembles other.held
  received_eq : assembly.received = other.received
  frontEnd_eq : assembly.frontEnd = other.frontEnd
  detached_eq : assembly.detached = other.detached
  total_eq : assembly.total = other.total

namespace Assembly

variable {assembly other : Assembly} {fragment fragment' : Packet}
variable {tag : FragmentTag}

theorem Resembles.begun (deadline : Nat) :
    (begun deadline).Resembles (begun deadline) :=
  ⟨rfl, .nil, rfl, rfl, rfl, rfl⟩

theorem follow_eq : ∀ {entries others : List (Nat × Packet)}
    {position : Nat},
    List.Forall₂ (Table.SameEntry Packet.Resembles) entries others →
      follow position entries = follow position others
  | [], [], _, .nil => rfl
  | (start, fragment) :: rest, (_, fragment') :: rest', position,
      .cons same later => by
      obtain ⟨rfl, alike⟩ := same
      have sameLength : fragment.length = fragment'.length :=
        alike.length_eq
      simp only [follow, sameLength, follow_eq later]

namespace Resembles

theorem claims_eq (alike : assembly.Resembles other) (offset stop : Nat) :
    assembly.claims offset stop = other.claims offset stop := by
  have lastOnes := alike.held.lastBelow? stop
  unfold claims
  rw [alike.held.contains_eq]
  generalize assembly.held.lastBelow? stop = found,
    other.held.lastBelow? stop = found' at lastOnes ⊢
  cases lastOnes with
  | none => rfl
  | @some entry entry' same =>
      obtain ⟨sameStart, alikeFragments⟩ := same
      simp only [sameStart, alikeFragments.length_eq]

theorem contradicts_eq (alike : assembly.Resembles other)
    (moreFragments : Bool) (stop : Nat) :
    assembly.contradicts moreFragments stop =
      other.contradicts moreFragments stop := by
  have lastOnes := alike.held.last?
  unfold contradicts
  rw [alike.total_eq]
  generalize assembly.held.last? = found, other.held.last? = found'
    at lastOnes ⊢
  cases lastOnes with
  | none => rfl
  | @some entry entry' same =>
      obtain ⟨sameStart, alikeFragments⟩ := same
      simp only [sameStart, alikeFragments.length_eq]

theorem place (alike : assembly.Resembles other)
    (same : fragment.Resembles fragment') (tag : FragmentTag) :
    (assembly.place tag fragment).Resembles
      (other.place tag fragment') := by
  have sameFollow : follow (tag.offset + fragment'.length)
      (assembly.held.entriesFrom (tag.offset + fragment'.length)) =
        follow (tag.offset + fragment'.length)
          (other.held.entriesFrom (tag.offset + fragment'.length)) :=
    follow_eq (alike.held.entriesFrom _)
  have samePlace := same.length_eq
  constructor
  · exact alike.deadline_eq
  · exact alike.held.insert same tag.offset
  · simp only [received_place, alike.received_eq, samePlace]
  · simp only [Assembly.place, alike.frontEnd_eq, alike.detached_eq,
      samePlace, sameFollow]
  · simp only [Assembly.place, alike.frontEnd_eq, alike.detached_eq,
      samePlace, sameFollow]
  · simp only [total_place, alike.total_eq, samePlace]

/-- Both fragments are accepted, or both are refused for the same reason. -/
theorem insert (alike : assembly.Resembles other)
    (same : fragment.Resembles fragment') (tag : FragmentTag)
    (holdLimit : Nat) :
    (∃ error, assembly.insert tag fragment holdLimit = .error error ∧
      other.insert tag fragment' holdLimit = .error error) ∨
    ∃ longer longer',
      assembly.insert tag fragment holdLimit = .ok longer ∧
      other.insert tag fragment' holdLimit = .ok longer' ∧
      longer.Resembles longer' := by
  simp only [Assembly.insert, alike.claims_eq, alike.contradicts_eq,
    alike.frontEnd_eq, alike.detached_eq, same.length_eq]
  split
  · exact Or.inl ⟨_, rfl, rfl⟩
  · split
    · exact Or.inl ⟨_, rfl, rfl⟩
    · split
      · exact Or.inl ⟨_, rfl, rfl⟩
      · exact Or.inr ⟨_, _, rfl, rfl, alike.place same tag⟩

theorem isComplete_eq (alike : assembly.Resembles other) :
    assembly.isComplete = other.isComplete := by
  rw [isComplete, isComplete, alike.total_eq, alike.received_eq]

theorem fragments (alike : assembly.Resembles other) :
    List.Forall₂ Packet.Resembles assembly.fragments other.fragments := by
  have both := alike.held
  unfold Table.Related at both
  unfold Assembly.fragments Table.values
  rw [List.forall₂_map_left_iff, List.forall₂_map_right_iff]
  exact both.imp fun _ _ same => same.2

end Resembles

end Assembly

end PooledPackets
