import Mathlib.Algebra.GroupWithZero.Nat
import PooledPackets.Packet.Append
import PooledPackets.Packet.Check
import PooledPackets.Proofs.Ownership.Balance

/-!
# Sound packets

A packet is sound if the numbers that describe it agree with its chain: then
every byte that is added lands right behind the last one. Packets stay sound
as long as nobody exchanges segments between them.
-/

namespace PooledPackets

/-! ## One segment -/

namespace Bytes

/-- What is written from a position on follows what stood before it. -/
theorem between_overwrite {buffer bytes : Bytes} {start position : Nat}
    (before : start ≤ position) (inside : position ≤ buffer.length) :
    (overwrite buffer position bytes).between start
        (position + bytes.length) =
      buffer.between start position ++ bytes := by
  have front : (buffer.take position).length = position :=
    List.length_take_of_le inside
  have upTo : (overwrite buffer position bytes).take
      (position + bytes.length) = buffer.take position ++ bytes := by
    rw [overwrite, List.take_append_of_le_length, List.take_of_length_le]
    · simp only [List.length_append, front]
      omega
    · simp only [List.length_append, front]
      omega
  rw [between, upTo, List.drop_append_of_le_length (by omega)]
  rfl

/-- What is written over the start of a buffer is followed by the rest of
it. -/
theorem overwrite_zero (buffer bytes : Bytes) :
    buffer.overwrite 0 bytes = bytes ++ buffer.drop bytes.length := by
  rw [overwrite, List.take_zero, List.nil_append, Nat.zero_add]

end Bytes

namespace Segment

@[simp]
theorem identity_append (segment : Segment) (bytes : Bytes) :
    (segment.append bytes).identity = segment.identity := rfl

theorem length_append (segment : Segment) (bytes : Bytes) :
    (segment.append bytes).length =
      segment.length + min segment.remaining bytes.length := by
  rw [← List.length_take]
  rfl

theorem remaining_append (segment : Segment) (bytes : Bytes) :
    (segment.append bytes).remaining =
      segment.remaining - bytes.length := by
  have inZone := segment.length_le
  have sameLayout : (segment.append bytes).layout = segment.layout := rfl
  simp only [remaining, sameLayout, length_append]
  omega

theorem payload_append (segment : Segment) (bytes : Bytes) :
    (segment.append bytes).payload =
      segment.payload ++ bytes.take segment.remaining := by
  have inZone := segment.length_le
  have zones := segment.layout.payloadEnd_le_capacity
  have room : segment.layout.payloadStart + segment.length +
      (bytes.take segment.remaining).length ≤ segment.layout.capacity := by
    simp only [List.length_take, remaining, Layout.payloadEnd,
      Layout.payloadStart] at zones ⊢
    omega
  have stamped : (segment.append bytes).buffer =
      segment.buffer.overwrite (segment.layout.payloadStart + segment.length)
        (bytes.take segment.remaining) :=
    segment.buffer_stamp _ _ room
  have stop : (segment.append bytes).layout.payloadStart +
      (segment.append bytes).length =
        segment.layout.payloadStart + segment.length +
          (bytes.take segment.remaining).length := by
    rw [length_append, List.length_take]
    exact (Nat.add_assoc ..).symm
  rw [payload_eq_between, payload_eq_between, stop, stamped]
  apply Bytes.between_overwrite (Nat.le_add_right _ _)
  rw [length_buffer]
  omega

/-- What stays with a segment as long as no payload is added to it. -/
def outline (segment : Segment) : (PoolId × Nat × Layout) × Nat :=
  (segment.identity, segment.length)

section Outline

variable {changed chain : List Segment}

theorem map_identity_of_outline
    (same : changed.map outline = chain.map outline) :
    changed.map identity = chain.map identity := by
  have parts := congrArg (List.map Prod.fst) same
  rw [List.map_map, List.map_map] at parts
  exact parts

theorem map_length_of_outline
    (same : changed.map outline = chain.map outline) :
    changed.map length = chain.map length := by
  have parts := congrArg (List.map Prod.snd) same
  rw [List.map_map, List.map_map] at parts
  exact parts

end Outline

theorem outline_writeHeaderEnd? {segment stamped : Segment} {bytes : Bytes}
    (writing : segment.writeHeaderEnd? bytes = some stamped) :
    stamped.outline = segment.outline := by
  simp only [writeHeaderEnd?] at writing
  split at writing
  · cases writing
    rfl
  · cases writing

theorem writeHeaderEnd?_eq_none_iff {segment : Segment} {bytes : Bytes} :
    segment.writeHeaderEnd? bytes = none ↔
      segment.layout.headerReserve < bytes.length := by
  simp only [writeHeaderEnd?]
  split
  · rename_i fits
    simp only [reduceCtorEq, false_iff, Nat.not_lt]
    exact fits
  · rename_i tooLong
    simp only [true_iff]
    exact Nat.lt_of_not_le tooLong

theorem payload_of_empty {segment : Segment} (empty : segment.length = 0) :
    segment.payload = [] := by
  rw [← List.length_eq_zero_iff, length_payload, empty]

end Segment

namespace Packet

/-! ## Chains -/

@[simp]
theorem chainBytes_append (left right : List Segment) :
    chainBytes (left ++ right) = chainBytes left ++ chainBytes right :=
  List.flatMap_append

theorem chainBytes_of_empty {chain : List Segment}
    (empty : ∀ segment ∈ chain, segment.length = 0) :
    chainBytes chain = [] := by
  rw [chainBytes, List.flatMap_eq_nil_iff]
  intro segment member
  exact Segment.payload_of_empty (empty segment member)

theorem chainLength_eq_sum (chain : List Segment) :
    chainLength chain = (chain.map Segment.length).sum := by
  rw [List.sum_eq_foldr, List.foldr_map]
  rfl

theorem available_eq_sum (packet : Packet) : packet.available =
    ((packet.chain.drop packet.writeIndex).map Segment.remaining).sum := by
  rw [List.sum_eq_foldr, List.foldr_map]
  rfl

theorem length_chainBytes (chain : List Segment) :
    (chainBytes chain).length = chainLength chain := by
  rw [chainLength_eq_sum]
  induction chain with
  | nil => rfl
  | cons segment rest inductionHypothesis =>
      simp only [chainBytes, List.flatMap_cons, List.length_append,
        Segment.length_payload, List.map_cons, List.sum_cons] at *
      omega

theorem flatten_chunks (packet : Packet) :
    packet.chunks.flatten = packet.toBytes := by
  simp only [chunks, toBytes, chainBytes]
  induction packet.chain with
  | nil => rfl
  | cons segment rest inductionHypothesis =>
      cases payload : segment.payload with
      | nil => simp [payload, inductionHypothesis]
      | cons first others => simp [payload, inductionHypothesis]

/-! ## Filling a chain -/

theorem identity_fill :
    ∀ {segments filled : List Segment} {bytes : Bytes} {passed : Nat},
      fill segments bytes = some (filled, passed) →
        filled.map Segment.identity = segments.map Segment.identity
  | [], _, _, _, filling => by
      simp [fill] at filling
  | segment :: rest, filled, bytes, passed, filling => by
      simp only [fill] at filling
      split at filling
      · cases filling
        rfl
      · obtain ⟨⟨others, further⟩, restFilling, same⟩ :=
          Option.map_eq_some_iff.mp filling
        cases same
        simp [identity_fill restFilling]

/-- Bytes that fit into a chain which is empty behind its first segment are
written right behind its payload. The segment reached last is not empty, those
behind it are, and the room has shrunk by what was written. -/
theorem fill_fits :
    ∀ {segments : List Segment} {bytes : Bytes}, bytes ≠ [] →
      (∀ segment ∈ segments.tail, segment.length = 0) →
      bytes.length ≤ (segments.map Segment.remaining).sum →
      ∃ filled passed, fill segments bytes = some (filled, passed) ∧
        chainBytes filled = chainBytes segments ++ bytes ∧
        passed < filled.length ∧
        (∀ segment ∈ filled.drop (passed + 1), segment.length = 0) ∧
        (∀ segment, filled[passed]? = some segment → segment.length ≠ 0) ∧
        ((filled.drop passed).map Segment.remaining).sum + bytes.length =
          (segments.map Segment.remaining).sum
  | [], bytes, nonempty, _, fits => by
      simp only [List.map_nil, List.sum_nil, Nat.le_zero_eq,
        List.length_eq_zero_iff] at fits
      exact absurd fits nonempty
  | segment :: rest, bytes, nonempty, emptyBehind, fits => by
      simp only [List.map_cons, List.sum_cons, List.tail_cons] at *
      have restBytes : chainBytes rest = [] :=
        chainBytes_of_empty emptyBehind
      have bytesLong : 0 < bytes.length := List.length_pos_iff.mpr nonempty
      -- Either the bytes end in this segment, or it is left behind full.
      by_cases done : (bytes.drop segment.remaining).isEmpty
      · have short : bytes.length ≤ segment.remaining := by
          simpa using done
        refine ⟨segment.append bytes :: rest, 0, ?_, ?_, ?_, ?_, ?_, ?_⟩
        · simp only [fill, done, if_true]
        · have all : bytes.take segment.remaining = bytes :=
            List.take_of_length_le short
          simp only [chainBytes] at restBytes
          simp [chainBytes, Segment.payload_append, all, restBytes]
        · exact Nat.zero_lt_succ _
        · exact emptyBehind
        · intro reached isReached
          simp only [List.getElem?_cons_zero, Option.some.injEq] at isReached
          rw [← isReached, Segment.length_append]
          omega
        · simp only [List.drop_zero, List.map_cons, List.sum_cons,
            Segment.remaining_append]
          omega
      · have long : segment.remaining < bytes.length := by
          simpa using done
        have leftLength : (bytes.drop segment.remaining).length =
            bytes.length - segment.remaining := List.length_drop
        obtain ⟨others, passed, filling, spelled, inside, behind, reached,
            room⟩ :=
          @fill_fits rest (bytes.drop segment.remaining)
            (by simpa using long)
            (fun other member =>
              emptyBehind other (List.mem_of_mem_tail member))
            (by omega)
        refine ⟨segment.append bytes :: others, passed + 1, ?_, ?_, ?_,
          behind, reached, ?_⟩
        · simp [fill, done, filling]
        · rw [restBytes, List.nil_append] at spelled
          simp only [chainBytes] at spelled restBytes
          simp [chainBytes, Segment.payload_append, spelled, restBytes]
        · exact Nat.succ_lt_succ inside
        · simp only [List.drop_succ_cons]
          omega

/-- Writing keeps the tag, the pool and what stays with the segments. -/
theorem write_keeps {packet written : Packet} {bytes : Bytes}
    (writing : packet.write bytes = .ok written) :
    written.chain.map Segment.identity =
        packet.chain.map Segment.identity ∧
      written.tag = packet.tag ∧ written.pool = packet.pool := by
  simp only [write] at writing
  split at writing
  · cases writing
  · split at writing
    · cases writing
    · rename_i filling
      cases writing
      refine ⟨?_, rfl, rfl⟩
      rw [List.map_append, identity_fill filling, ← List.map_append,
        List.take_append_drop]

theorem write_error {packet : Packet} {bytes : Bytes} {violation : Violation}
    (writing : packet.write bytes = .error violation) :
    ∃ declared actual,
      violation = .chainLengthMismatch declared actual := by
  simp only [write] at writing
  split at writing
  · cases writing
    exact ⟨_, _, rfl⟩
  · split at writing
    · cases writing
      exact ⟨_, _, rfl⟩
    · cases writing

/-! ## Soundness -/

/-- The numbers of a packet agree with its chain: all segments are its pool's
own, the recorded length and count are those of the chain, and the write
position is the last segment with payload, if there is one. -/
structure Sound (packet : Packet) : Prop where
  own : ∀ segment ∈ packet.chain, segment.pool = packet.pool
  length_eq : packet.length = chainLength packet.chain
  count_eq : packet.segmentCount = packet.chain.length
  inside : packet.chain ≠ [] → packet.writeIndex < packet.chain.length
  behind : ∀ segment ∈ packet.chain.drop (packet.writeIndex + 1),
    segment.length = 0
  reached : packet.length ≠ 0 → ∀ segment,
    packet.chain[packet.writeIndex]? = some segment → segment.length ≠ 0

namespace Sound

variable {packet : Packet}

theorem length_toBytes (sound : packet.Sound) :
    packet.toBytes.length = packet.length := by
  rw [toBytes, length_chainBytes, sound.length_eq]

theorem husk (packet : Packet) : packet.husk.Sound where
  own := by simp [Packet.husk]
  length_eq := rfl
  count_eq := rfl
  inside := by simp [Packet.husk]
  behind := by simp [Packet.husk]
  reached := by simp [Packet.husk]

theorem withTag (sound : packet.Sound) (tag : Option FragmentTag) :
    (packet.withTag tag).Sound :=
  { sound with }

theorem extend (sound : packet.Sound) (held : packet.chain ≠ [])
    {segments : List Segment}
    (fresh : ∀ segment ∈ segments,
      segment.pool = packet.pool ∧ segment.length = 0) :
    (packet.extend segments).Sound := by
  have inside := sound.inside held
  have added : chainLength segments = 0 := by
    have noBytes := chainBytes_of_empty fun segment member =>
      (fresh segment member).2
    rw [← length_chainBytes, noBytes, List.length_nil]
  constructor
  · intro segment member
    rcases List.mem_append.mp member with old | new
    · exact sound.own segment old
    · exact (fresh segment new).1
  · have before := sound.length_eq
    simp only [Packet.extend, chainLength_eq_sum, List.map_append,
      List.sum_append] at *
    omega
  · simp [Packet.extend, sound.count_eq]
  · intro _
    simp only [Packet.extend, List.length_append]
    omega
  · intro segment member
    simp only [Packet.extend] at member
    rw [List.drop_append_of_le_length (by omega)] at member
    rcases List.mem_append.mp member with old | new
    · exact sound.behind segment old
    · exact (fresh segment new).2
  · intro notEmpty segment found
    simp only [Packet.extend] at found
    rw [List.getElem?_append_left inside] at found
    exact sound.reached notEmpty segment found

theorem available_extend (sound : packet.Sound) (held : packet.chain ≠ [])
    (segments : List Segment) :
    (packet.extend segments).available =
      packet.available + (segments.map Segment.remaining).sum := by
  have inside := sound.inside held
  simp only [available_eq_sum, Packet.extend]
  rw [List.drop_append_of_le_length (by omega), List.map_append,
    List.sum_append]

/-- Bytes that fit into the chain are written right behind the payload, and
the packet is sound again. -/
theorem write_fits (sound : packet.Sound) (held : packet.chain ≠ [])
    {bytes : Bytes} (nonempty : bytes ≠ [])
    (fits : bytes.length ≤ packet.available) :
    ∃ written, packet.write bytes = .ok written ∧ written.Sound ∧
      written.toBytes = packet.toBytes ++ bytes ∧
      written.available + bytes.length = packet.available := by
  have inside := sound.inside held
  have chainSplit := List.take_append_drop packet.writeIndex packet.chain
  have emptyBehind : ∀ segment ∈
      (packet.chain.drop packet.writeIndex).tail, segment.length = 0 := by
    rw [List.tail_drop]
    exact sound.behind
  obtain ⟨filled, passed, filling, spelled, within, behind, reached, room⟩ :=
    fill_fits nonempty emptyBehind (packet.available_eq_sum ▸ fits)
  have frontLength :
      (packet.chain.take packet.writeIndex).length = packet.writeIndex :=
    List.length_take_of_le (Nat.le_of_lt inside)
  have sameIdentity := identity_fill filling
  have filledLength :
      filled.length = (packet.chain.drop packet.writeIndex).length := by
    simpa using congrArg List.length sameIdentity
  have spelledAll :
      chainBytes (packet.chain.take packet.writeIndex ++ filled) =
        packet.toBytes ++ bytes := by
    rw [chainBytes_append, spelled, ← List.append_assoc, ← chainBytes_append,
      chainSplit, toBytes]
  have skipped (count : Nat) :
      (packet.chain.take packet.writeIndex ++ filled).drop
        (packet.writeIndex + count) = filled.drop count := by
    have behindFront := @List.drop_length_add_append _
      (packet.chain.take packet.writeIndex) filled count
    rw [frontLength] at behindFront
    exact behindFront
  refine ⟨{ packet with
    chain := packet.chain.take packet.writeIndex ++ filled
    writeIndex := packet.writeIndex + passed
    length := packet.length + bytes.length }, ?_, ?_, spelledAll, ?_⟩
  · simp only [write, if_neg (Nat.not_le_of_lt inside), filling]
  · refine ⟨?_, ?_, ?_, ?_, ?_, ?_⟩
    · have same : (packet.chain.take packet.writeIndex ++
          filled).map Segment.identity =
            packet.chain.map Segment.identity := by
        rw [List.map_append, sameIdentity, ← List.map_append, chainSplit]
      exact Segment.own_of_identity same sound.own
    · have spelledLength := congrArg List.length spelledAll
      rw [length_chainBytes, List.length_append, sound.length_toBytes]
        at spelledLength
      exact spelledLength.symm
    · have recorded := sound.count_eq
      simp only [List.length_append, frontLength, filledLength,
        List.length_drop] at *
      omega
    · intro _
      simp only [List.length_append, frontLength]
      omega
    · intro segment member
      simp only [Nat.add_assoc, skipped] at member
      exact behind segment member
    · intro _ segment found
      simp only at found
      rw [List.getElem?_append_right (by omega), frontLength,
        Nat.add_sub_cancel_left] at found
      exact reached segment found
  · simp only [available_eq_sum, skipped]
    exact room

end Sound

/-! ## Writing over the zones -/

/-- A packet stays sound if its segments keep their places, their lengths and
what stays with them for good. -/
theorem Sound.rewritten {packet : Packet} (sound : packet.Sound)
    {chain : List Segment}
    (same : chain.map Segment.outline =
      packet.chain.map Segment.outline) :
    ({ packet with chain } : Packet).Sound := by
  have sameLength : chain.length = packet.chain.length := by
    simpa using congrArg List.length same
  have sameLengths := Segment.map_length_of_outline same
  constructor
  · exact Segment.own_of_identity (Segment.map_identity_of_outline same)
      sound.own
  · rw [sound.length_eq, chainLength_eq_sum, chainLength_eq_sum,
      sameLengths]
  · rw [sound.count_eq, sameLength]
  · intro held
    have heldBefore : packet.chain ≠ [] := by
      intro empty
      rw [empty, List.length_nil, List.length_eq_zero_iff] at sameLength
      exact held sameLength
    rw [sameLength]
    exact sound.inside heldBefore
  · intro segment member
    have sameBehind :=
      congrArg (List.drop (packet.writeIndex + 1)) sameLengths
    rw [← List.map_drop, ← List.map_drop] at sameBehind
    have isLength : segment.length ∈
        (packet.chain.drop (packet.writeIndex + 1)).map Segment.length :=
      sameBehind ▸ List.mem_map_of_mem member
    obtain ⟨source, isBehind, equal⟩ := List.mem_map.mp isLength
    rw [← equal]
    exact sound.behind source isBehind
  · intro notEmpty segment found
    have isLength := congrArg
      (fun lengths => lengths[packet.writeIndex]?) sameLengths
    simp only at found
    simp only [List.getElem?_map, found, Option.map_some] at isLength
    obtain ⟨source, isThere, equal⟩ :=
      Option.map_eq_some_iff.mp isLength.symm
    rw [← equal]
    exact sound.reached notEmpty source isThere

theorem outline_writeZone (packet : Packet) (zone : Zone)
    (only : Option Nat) (bytes : Bytes) :
    (packet.writeZone zone only bytes).chain.map Segment.outline =
      packet.chain.map Segment.outline := by
  have written (segment : Segment) :
      (zone.write segment bytes).outline = segment.outline := by
    cases zone <;> rfl
  apply List.ext_getElem?
  intro place
  simp only [writeZone, List.getElem?_map, List.getElem?_mapIdx]
  cases packet.chain[place]? with
  | none => rfl
  | some segment =>
      simp only [Option.map_some]
      split
      · rw [written]
      · rfl

/-! ## Packets made from segments -/

/-- The position of the last segment with payload, if any has some. -/
theorem lastFilled?_spec :
    ∀ (segments : List Segment) (index : Nat),
      match lastFilled? index segments with
      | none => ∀ segment ∈ segments, segment.length = 0
      | some found => ∃ place, found = index + place ∧
          place < segments.length ∧
          (∀ segment, segments[place]? = some segment →
            segment.length ≠ 0) ∧
          ∀ segment ∈ segments.drop (place + 1), segment.length = 0
  | [], index => by
      simp [lastFilled?]
  | segment :: rest, index => by
      have restSpec := lastFilled?_spec rest (index + 1)
      cases later : lastFilled? (index + 1) rest with
      | some found =>
          simp only [later] at restSpec
          obtain ⟨place, rfl, inside, filled, behind⟩ := restSpec
          simp only [lastFilled?, later]
          refine ⟨place + 1, by omega, Nat.succ_lt_succ inside, filled, ?_⟩
          simpa using behind
      | none =>
          simp only [later] at restSpec
          by_cases empty : segment.isEmpty
          · simp only [lastFilled?, later, empty, if_true]
            intro other member
            rcases List.mem_cons.mp member with rfl | inRest
            · simpa [Segment.isEmpty] using empty
            · exact restSpec other inRest
          · simp only [lastFilled?, later, empty]
            refine ⟨0, rfl, Nat.zero_lt_succ _, ?_, restSpec⟩
            intro other isHead
            cases isHead
            simpa [Segment.isEmpty] using empty

theorem sound_ofSegments {id : PoolId} {segments : List Segment}
    (own : ∀ segment ∈ segments, segment.pool = id) :
    (ofSegments id segments).Sound := by
  have spec := lastFilled?_spec segments 0
  cases last : lastFilled? 0 segments with
  | none =>
      simp only [last] at spec
      have noBytes : chainLength segments = 0 := by
        rw [← length_chainBytes, chainBytes_of_empty spec, List.length_nil]
      refine ⟨own, rfl, rfl, ?_, ?_, ?_⟩
      · intro held
        simpa [ofSegments, last] using List.length_pos_iff.mpr held
      · intro segment member
        exact spec segment (List.mem_of_mem_drop member)
      · intro notEmpty
        exact absurd noBytes notEmpty
  | some found =>
      simp only [last] at spec
      obtain ⟨place, rfl, inside, filled, behind⟩ := spec
      refine ⟨own, rfl, rfl, ?_, ?_, ?_⟩
      · intro _
        simpa [ofSegments, last] using inside
      · simpa [ofSegments, last] using behind
      · intro _
        simpa [ofSegments, last] using filled

theorem available_ofSegments {id : PoolId} {segments : List Segment}
    (empty : ∀ segment ∈ segments, segment.length = 0) :
    (ofSegments id segments).available =
      (segments.map Segment.remaining).sum := by
  have spec := lastFilled?_spec segments 0
  cases last : lastFilled? 0 segments with
  | none => simp [available_eq_sum, ofSegments, last]
  | some found =>
      simp only [last] at spec
      obtain ⟨place, _, inside, filled, _⟩ := spec
      exact absurd (empty _ (List.getElem_mem inside))
        (filled _ (List.getElem?_eq_getElem inside))

/-! ## Checking -/

/-- The check finds nothing wrong with a sound packet whose segments have the
layout of the pool. -/
theorem Sound.disagreement?_eq_none {packet : Packet} (sound : packet.Sound)
    {layout : Layout}
    (laidOut : ∀ segment ∈ packet.chain, segment.layout = layout) :
    packet.disagreement? layout.maxPayload = none := by
  have inZone : packet.chain.find?
      (fun segment => layout.maxPayload < segment.length) = none := by
    rw [List.find?_eq_none]
    intro segment member
    have bounded := segment.length_le
    rw [laidOut segment member] at bounded
    simpa using bounded
  simp only [disagreement?, inZone, sound.length_eq, sound.count_eq, ne_eq,
    not_true_eq_false, if_false]

end Packet

/-! ## Portions -/

namespace Layout

theorem le_portions_mul {len portion : Nat} (positive : 0 < portion) :
    len ≤ portions len portion * portion := by
  have remainder := Nat.mod_add_div (len + portion - 1) portion
  have small := Nat.mod_lt (len + portion - 1) positive
  rw [portions, Nat.mul_comm]
  omega

/-- The segments counted for a payload hold that payload. -/
theorem le_segmentsFor_mul (layout : Layout) (len : Nat) :
    len ≤ layout.segmentsFor len * layout.maxPayload := by
  apply Nat.le_trans (le_portions_mul layout.maxPayload_pos)
  exact Nat.mul_le_mul_right _ (Nat.le_max_left _ _)

theorem segmentsFor_pos (layout : Layout) (len : Nat) :
    0 < layout.segmentsFor len :=
  Nat.le_max_right _ _

end Layout

end PooledPackets
