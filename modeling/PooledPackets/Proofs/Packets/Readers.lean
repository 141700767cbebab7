import PooledPackets.Proofs.Packets.Reading
import PooledPackets.Proofs.Sessions.Accounts

/-!
# All readers agree

A packet can be read as a whole, chunk by chunk, over a range, from a position
on and into a destination of any size, and it can be compared with given bytes.
Each of these walks over the chain in its own way. As long as no segments were
exchanged they all show the same payload.
-/

namespace PooledPackets

namespace Bytes

/-- Bounds beyond the end of a string may as well be its end. -/
theorem between_min (bytes : Bytes) (start stop : Nat) :
    bytes.between (min start bytes.length) (min stop bytes.length) =
      bytes.between start stop := by
  have sameStop : bytes.take (min stop bytes.length) = bytes.take stop := by
    rw [← List.take_take, List.take_length]
  rw [between, between, sameStop]
  rcases Nat.le_total start bytes.length with inside | beyond
  · rw [Nat.min_eq_left inside]
  · have short : (bytes.take stop).length ≤ bytes.length :=
      List.length_take_le' stop bytes
    rw [Nat.min_eq_right beyond, List.drop_of_length_le short,
      List.drop_of_length_le (Nat.le_trans short beyond)]

end Bytes

namespace Packet

variable {packet : Packet}

theorem ne_nil_of_mem_chunks {chunk : Bytes}
    (member : chunk ∈ packet.chunks) : chunk ≠ [] := by
  have filled := (List.mem_filter.mp member).2
  simpa using filled

/-- Copied one after the other, chunks fill the room that there is with what
they spell together. -/
theorem copyChunks_eq_take :
    ∀ (chunks : List Bytes) (room : Nat),
      copyChunks room chunks = chunks.flatten.take room
  | [], _ => by
      rw [copyChunks, List.flatten_nil, List.take_nil]
  | chunk :: rest, room => by
      have left : room - (chunk.take room).length = room - chunk.length := by
        rw [List.length_take]
        omega
      rw [copyChunks, copyChunks_eq_take rest, left, List.flatten_cons,
        List.take_append]

theorem copyTo_eq (packet : Packet) (destination : Bytes) :
    let count := min packet.toBytes.length destination.length
    packet.copyTo destination =
      (count, packet.toBytes.take count ++ destination.drop count) := by
  intro count
  have taken : packet.toBytes.take destination.length =
      packet.toBytes.take count := by
    rw [List.take_eq_take_iff]
    omega
  have size : (packet.toBytes.take count).length = count := by
    rw [List.length_take]
    omega
  rw [copyTo, copyChunks_eq_take, flatten_chunks, taken,
    Bytes.overwrite_zero, size]

namespace Sound

/-- A position up to the end of the payload can be read from, and as much is
copied as there is and as fits. -/
theorem readAt_eq (sound : packet.Sound) (held : packet.isReleased = false)
    {offset : Nat} (inside : offset ≤ packet.toBytes.length)
    (destination : Bytes) :
    let count := min destination.length (packet.toBytes.length - offset)
    packet.readAt offset destination =
      .copied count (packet.toBytes.between offset (offset + count) ++
        destination.drop count) := by
  intro count
  have counted := sound.length_toBytes
  obtain ⟨pieces, slicing, spelled⟩ :=
    sound.slices?_eq_some offset destination.length
  have sameRange : packet.toBytes.between offset (offset + count) =
      pieces.flatten := by
    have sameStop : min (offset + destination.length) packet.toBytes.length =
        offset + count := by
      omega
    rw [spelled, ← Bytes.between_min _ _ (offset + destination.length),
      sameStop, Nat.min_eq_left inside]
  have size : pieces.flatten.length = count := by
    rw [← sameRange, Bytes.length_between (by omega), Nat.add_sub_cancel_left]
  have fits : pieces.flatten.length ≤ destination.length := by omega
  unfold readAt
  rw [held, if_neg Bool.false_ne_true, if_neg (by omega), slicing]
  dsimp only
  rw [if_pos fits, Bytes.overwrite_zero, size, sameRange]

theorem readAt_eq_released_iff (sound : packet.Sound) {offset : Nat}
    {destination : Bytes} :
    packet.readAt offset destination = .refused .released ↔
      packet.isReleased = true := by
  constructor
  · intro refused
    cases held : packet.isReleased with
    | true => rfl
    | false =>
        by_cases inside : offset ≤ packet.toBytes.length
        · rw [sound.readAt_eq held inside] at refused
          cases refused
        · have beyond : packet.length < offset := by
            rw [← sound.length_toBytes]
            omega
          rw [readAt, held, if_neg Bool.false_ne_true, if_pos beyond]
            at refused
          cases refused
  · exact fun released => if_pos released

theorem readAt_eq_outOfBounds_iff (sound : packet.Sound) {offset : Nat}
    {destination : Bytes} :
    packet.readAt offset destination =
        .refused (.outOfBounds offset packet.toBytes.length) ↔
      packet.isReleased = false ∧ packet.toBytes.length < offset := by
  have counted := sound.length_toBytes
  constructor
  · intro refused
    cases held : packet.isReleased with
    | true =>
        rw [sound.readAt_eq_released_iff.mpr held] at refused
        cases refused
    | false =>
        refine ⟨rfl, Nat.lt_of_not_le fun inside => ?_⟩
        rw [sound.readAt_eq held inside] at refused
        cases refused
  · rintro ⟨held, beyond⟩
    rw [readAt, held, if_neg Bool.false_ne_true, if_pos (counted ▸ beyond),
      counted]

end Sound

/-- Every way of reading a packet shows the same payload, and none of them
looks beyond it. -/
structure ReadsAlike (packet : Packet) : Prop where
  length_eq : packet.toBytes.length = packet.length
  chunks_eq : packet.chunks.flatten = packet.toBytes
  chunks_filled : ∀ chunk ∈ packet.chunks, chunk ≠ []
  slices_eq : ∀ offset len, ∃ pieces,
    packet.slices? offset len = some pieces ∧
    pieces.flatten =
      packet.toBytes.between (min offset packet.toBytes.length)
        (min (offset + len) packet.toBytes.length)
  /-- A sum that stops at the largest number there is makes no difference. -/
  slices_saturating : ∀ limit, packet.length ≤ limit → ∀ offset len,
    sliceChain offset (min (min (offset + len) limit) packet.length) 0
        packet.chain =
      packet.slices? offset len
  copyTo_eq : ∀ destination : Bytes,
    let count := min packet.toBytes.length destination.length
    packet.copyTo destination =
      (count, packet.toBytes.take count ++ destination.drop count)
  readAt_released_iff : ∀ offset destination,
    packet.readAt offset destination = .refused .released ↔
      packet.isReleased = true
  readAt_outOfBounds_iff : ∀ offset destination,
    packet.readAt offset destination =
        .refused (.outOfBounds offset packet.toBytes.length) ↔
      packet.isReleased = false ∧ packet.toBytes.length < offset
  readAt_eq : ∀ offset destination, packet.isReleased = false →
    offset ≤ packet.toBytes.length →
    let count := min destination.length (packet.toBytes.length - offset)
    packet.readAt offset destination =
      .copied count (packet.toBytes.between offset (offset + count) ++
        destination.drop count)
  hasPayload_eq : ∀ bytes,
    packet.hasPayload? bytes = some (decide (packet.toBytes = bytes))

theorem Sound.readsAlike (sound : packet.Sound) : packet.ReadsAlike where
  length_eq := sound.length_toBytes
  chunks_eq := packet.flatten_chunks
  chunks_filled := fun _ => ne_nil_of_mem_chunks
  slices_eq := by
    intro offset len
    obtain ⟨pieces, slicing, spelled⟩ := sound.slices?_eq_some offset len
    exact ⟨pieces, slicing, spelled.trans (Bytes.between_min _ _ _).symm⟩
  slices_saturating := by
    intro limit bounded offset len
    have sameStop : min (min (offset + len) limit) packet.length =
        min (offset + len) packet.length := by
      omega
    rw [sameStop, slices?]
  copyTo_eq := packet.copyTo_eq
  readAt_released_iff := fun _ _ => sound.readAt_eq_released_iff
  readAt_outOfBounds_iff := fun _ _ => sound.readAt_eq_outOfBounds_iff
  readAt_eq := fun _ destination held inside =>
    sound.readAt_eq held inside destination
  hasPayload_eq := sound.hasPayload?_eq_decide

end Packet

namespace Session

variable {configs : List Config} {session : Session} {packet : Packet}

/-- Whatever was done to a packet without exchanging segments, all ways of
reading it agree. -/
theorem Reached.readers_agree (reached : session.Reached configs)
    (isLive : packet ∈ session.live) : packet.ReadsAlike := by
  have sound : packet.Sound := reached.owns.kept packet isLive
  exact sound.readsAlike

/-- Six bytes in segments of four, of which the third one is empty: read over a
range that has no end, from the middle of the second segment on, and into a
destination that is too short. -/
theorem readers_agree_of_six :
    let config : Config :=
      { segmentCapacity := 4, segmentCount := 3, headerReserve := 0 }
    ∃ (session : Session) (packet : Packet) (pieces : List Bytes),
      session.Reached [config] ∧ packet ∈ session.live ∧
      packet.chain.map Segment.length = [4, 2, 0] ∧
      packet.slices? 3 (Config.wordSize - 1) = some pieces ∧
      pieces.flatten = [4, 5, 6] ∧
      packet.readAt 5 [0, 0, 0] = .copied 1 [6, 0, 0] ∧
      packet.readAt 7 [0, 0, 0] = .refused (.outOfBounds 7 6) ∧
      packet.copyTo [0, 0] = (2, [1, 2]) ∧
      packet.hasPayload? [1, 2, 3, 4, 5, 6] = some true := by
  intro config
  have plays : (do
      let session ← ((start (Pools.ofConfigs [config])).runAll
        [.newPool, .allocate 0 9 0, .append 0 [1, 2, 3, 4, 5, 6]]).toOption
      let packet ← session.packets.get? 0
      pure (decide (packet ∈ session.live ∧ packet.isReleased = false ∧
        packet.chain.map Segment.length = [4, 2, 0] ∧
        packet.toBytes = [1, 2, 3, 4, 5, 6]))) = some true := by
    decide +kernel
  obtain ⟨session, ran, plays⟩ := Option.bind_eq_some_iff.mp plays
  obtain ⟨packet, _, plays⟩ := Option.bind_eq_some_iff.mp plays
  rw [toOption_eq_some_iff] at ran
  obtain ⟨isLive, held, lengths, spelled⟩ :=
    of_decide_eq_true (Option.some.inj plays)
  have reached : session.Reached [config] := ⟨by decide, _, by decide, ran⟩
  have alike := reached.readers_agree isLive
  obtain ⟨pieces, slicing, range⟩ := alike.slices_eq 3 (Config.wordSize - 1)
  have middle := alike.readAt_eq 5 [0, 0, 0] held
  have beyond := alike.readAt_outOfBounds_iff 7 [0, 0, 0]
  have copied := alike.copyTo_eq [0, 0]
  have same := alike.hasPayload_eq [1, 2, 3, 4, 5, 6]
  rw [spelled] at range middle beyond copied same
  exact ⟨session, packet, pieces, reached, isLive, lengths, slicing,
    range.trans (by decide), middle (by decide),
    beyond.mpr ⟨held, by decide⟩, copied, same⟩

end Session

end PooledPackets
