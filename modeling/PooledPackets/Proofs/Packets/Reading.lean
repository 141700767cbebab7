import PooledPackets.Proofs.Packets.Soundness

/-!
# Reading sound packets

The pieces of a range of a sound packet, joined, are that range of its
payload. Compared chunk by chunk, its payload is compared as a whole.
-/

namespace PooledPackets

namespace Bytes

/-- A range of a joined string is made of a range of each part. -/
theorem between_append (left right : Bytes) (start stop : Nat) :
    (left ++ right).between start stop =
      left.between start (min left.length stop) ++
        right.between (start - left.length) (stop - left.length) := by
  rw [between, between, between, List.take_append, List.drop_append]
  congr 1
  · congr 1
    rcases Nat.le_total left.length stop with long | short
    · rw [Nat.min_eq_left long, List.take_of_length_le long,
        List.take_of_length_le (Nat.le_refl _)]
    · rw [Nat.min_eq_right short]
  · rw [List.length_take]
    rcases Nat.le_total left.length stop with long | short
    · rw [Nat.min_eq_right long]
    · have nothing : stop - left.length = 0 := by omega
      simp [nothing]

theorem between_eq_nil {bytes : Bytes} {start stop : Nat}
    (nothing : bytes.length ≤ start ∨ stop ≤ start) :
    bytes.between start stop = [] := by
  rw [between, List.drop_eq_nil_iff, List.length_take]
  omega

/-- Two ranges of which one continues the other are one range. -/
theorem between_join {bytes : Bytes} {start middle stop : Nat}
    (before : start ≤ middle) (after : middle ≤ stop) :
    bytes.between start middle ++ bytes.between middle stop =
      bytes.between start stop := by
  have behind : bytes.between middle stop =
      (bytes.drop middle).take (stop - middle) :=
    List.drop_take
  have whole : bytes.take stop =
      bytes.take middle ++ (bytes.drop middle).take (stop - middle) := by
    rw [← List.take_add, Nat.add_sub_cancel' after]
  rw [behind, between, between, whole, List.drop_append, List.length_take]
  congr 1
  rcases Nat.le_total middle bytes.length with long | short
  · have nothing : start - min middle bytes.length = 0 := by omega
    rw [nothing, List.drop_zero]
  · rw [List.drop_of_length_le short, List.take_nil, List.drop_nil]

end Bytes

namespace Packet

/-- The pieces of a range that ends inside the chain, or of one that begins
behind it, are found and spell that range. -/
theorem sliceChain_spec {offset stop : Nat} :
    ∀ {chain : List Segment} {position : Nat},
      stop ≤ position + chainLength chain →
      (offset ≤ stop ∨ position + chainLength chain ≤ offset) →
      ∃ pieces, sliceChain offset stop position chain = some pieces ∧
        pieces.flatten =
          (chainBytes chain).between (offset - position) (stop - position)
  | [], position, _, _ => ⟨[], rfl, by simp [chainBytes, Bytes.between]⟩
  | segment :: rest, position, inside, proper => by
      have total : chainLength (segment :: rest) =
          segment.length + chainLength rest := by
        simp [chainLength]
      have spelled : chainBytes (segment :: rest) =
          segment.payload ++ chainBytes rest := by
        simp [chainBytes]
      obtain ⟨pieces, slicing, flat⟩ := @sliceChain_spec offset
        stop rest (position + segment.length) (by omega) (by omega)
      have restRange :
          (chainBytes rest).between (offset - position - segment.length)
              (stop - position - segment.length) = pieces.flatten := by
        rw [flat, Nat.sub_sub, Nat.sub_sub]
      rw [spelled, Bytes.between_append, Segment.length_payload, restRange]
      simp only [sliceChain, Segment.length_payload]
      split
      · rename_i apart
        refine ⟨pieces, slicing, ?_⟩
        rw [Bytes.between_eq_nil, List.nil_append]
        rw [Segment.length_payload]
        omega
      · rename_i touched
        have ordered : offset - position ≤
            min segment.length (stop - position) := by
          omega
        rw [if_pos ordered, slicing]
        exact ⟨_, rfl, rfl⟩

/-- Every range of a sound packet can be read, whatever its bounds. -/
theorem Sound.slices?_eq_some {packet : Packet} (sound : packet.Sound)
    (offset len : Nat) :
    ∃ pieces, packet.slices? offset len = some pieces ∧
      pieces.flatten = packet.toBytes.between offset (offset + len) := by
  have recorded := sound.length_eq
  obtain ⟨pieces, slicing, flat⟩ := @sliceChain_spec offset
    (min (offset + len) packet.length) packet.chain 0 (by omega) (by omega)
  refine ⟨pieces, slicing, ?_⟩
  rw [flat, Nat.sub_zero, Nat.sub_zero, Bytes.between, Bytes.between, toBytes]
  congr 1
  rw [← List.take_take, recorded, ← length_chainBytes,
    List.take_length]

/-- Chunks that reach up to the end of some bytes are compared with all that
is behind the position. -/
theorem chunksMatch?_eq_decide {bytes : Bytes} :
    ∀ {chunks : List Bytes} {position : Nat},
      position + chunks.flatten.length = bytes.length →
      chunksMatch? bytes position chunks =
        some (decide (chunks.flatten = bytes.drop position))
  | [], position, toEnd => by
      have nothing : bytes.drop position = [] :=
        List.drop_of_length_le (Nat.le_of_eq toEnd.symm)
      rw [nothing]
      rfl
  | chunk :: rest, position, toEnd => by
      rw [List.flatten_cons, List.length_append] at toEnd
      have behind : bytes.drop position =
          bytes.between position (position + chunk.length) ++
            bytes.drop (position + chunk.length) := by
        rw [Bytes.between, List.drop_take, Nat.add_sub_cancel_left,
          ← List.drop_drop, List.take_append_drop]
      have sameLength : chunk.length =
          (bytes.between position (position + chunk.length)).length := by
        rw [Bytes.length_between (by omega), Nat.add_sub_cancel_left]
      rw [chunksMatch?, if_neg (by omega), behind, List.flatten_cons,
        chunksMatch?_eq_decide (by omega)]
      by_cases same :
          chunk = bytes.between position (position + chunk.length)
      · rw [if_pos (beq_iff_eq.mpr same), ← same]
        simp only [List.append_cancel_left_eq]
      · rw [if_neg (same ∘ beq_iff_eq.mp)]
        congr 1
        exact (decide_eq_false fun joined =>
          same (List.append_inj joined sameLength).1).symm

/-- A sound packet is compared with its whole payload. -/
theorem Sound.hasPayload?_eq_decide {packet : Packet} (sound : packet.Sound)
    (bytes : Bytes) :
    packet.hasPayload? bytes =
      some (decide (packet.toBytes = bytes)) := by
  have counted := sound.length_toBytes
  by_cases sameLength : packet.length = bytes.length
  · rw [hasPayload?, if_pos sameLength, chunksMatch?_eq_decide]
    · rw [flatten_chunks, List.drop_zero]
    · rw [flatten_chunks, counted, Nat.zero_add, sameLength]
  · rw [hasPayload?, if_neg sameLength]
    congr 1
    refine (decide_eq_false fun same => sameLength ?_).symm
    rw [← counted, same]

end Packet

end PooledPackets
