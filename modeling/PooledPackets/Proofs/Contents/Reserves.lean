import PooledPackets.Pool.Allocation
import PooledPackets.Proofs.Packets.Soundness

/-!
# Writing into the reserves

What a link driver writes ahead of the payload or behind it changes no payload
byte.
-/

namespace PooledPackets

namespace Bytes

variable {buffer bytes : Bytes} {start stop position : Nat}

/-- What is written ahead of a range leaves the range alone. -/
theorem between_overwrite_of_le
    (inside : position + bytes.length ≤ buffer.length)
    (before : position + bytes.length ≤ start) :
    (overwrite buffer position bytes).between start stop =
      buffer.between start stop := by
  apply List.ext_getElem?
  intro place
  simp only [between, overwrite, List.getElem?_drop, List.getElem?_take,
    List.getElem?_append, List.length_append, List.length_take]
  grind

/-- What is written behind a range leaves the range alone. -/
theorem between_overwrite_of_ge
    (inside : position + bytes.length ≤ buffer.length)
    (behind : stop ≤ position) :
    (overwrite buffer position bytes).between start stop =
      buffer.between start stop := by
  apply List.ext_getElem?
  intro place
  simp only [between, overwrite, List.getElem?_drop, List.getElem?_take,
    List.getElem?_append, List.length_append, List.length_take]
  grind

end Bytes

namespace Segment

/-- A stamp ahead of the payload or behind it leaves the payload alone. -/
theorem payload_stamp (segment : Segment) {position : Nat} {bytes : Bytes}
    (inside : position + bytes.length ≤ segment.layout.capacity)
    (apart : position + bytes.length ≤ segment.layout.payloadStart ∨
      segment.layout.payloadStart + segment.length ≤ position) :
    (segment.stamp position bytes inside).payload = segment.payload := by
  have within : position + bytes.length ≤ segment.buffer.length := by
    rw [length_buffer]
    exact inside
  rw [payload_eq_between, payload_eq_between, buffer_stamp]
  rcases apart with before | behind
  · exact Bytes.between_overwrite_of_le within before
  · exact Bytes.between_overwrite_of_ge within behind

theorem payload_writeHeader (segment : Segment) (bytes : Bytes) :
    (segment.writeHeader bytes).payload = segment.payload := by
  apply payload_stamp
  left
  rw [List.length_take]
  omega

theorem payload_writeTrailer (segment : Segment) (bytes : Bytes) :
    (segment.writeTrailer bytes).payload = segment.payload := by
  apply payload_stamp
  right
  have inZone := segment.length_le
  rw [Layout.payloadStart, Layout.payloadEnd]
  omega

theorem payload_writeHeaderEnd? {segment stamped : Segment} {bytes : Bytes}
    (writing : segment.writeHeaderEnd? bytes = some stamped) :
    stamped.payload = segment.payload := by
  unfold writeHeaderEnd? at writing
  split at writing
  · rename_i fits
    cases writing
    apply payload_stamp
    left
    omega
  · cases writing

end Segment

namespace Packet

theorem chainBytes_eq_of_payload {chain changed : List Segment}
    (same : changed.map Segment.payload = chain.map Segment.payload) :
    chainBytes changed = chainBytes chain := by
  rw [chainBytes, chainBytes, List.flatMap_def, List.flatMap_def, same]

/-- Whatever is written into the reserves, the payload stays. -/
theorem toBytes_writeZone (packet : Packet) {zone : Zone}
    (reserve : zone ≠ .payload) (only : Option Nat) (bytes : Bytes) :
    (packet.writeZone zone only bytes).toBytes = packet.toBytes := by
  have written : ∀ segment : Segment,
      (zone.write segment bytes).payload = segment.payload := by
    intro segment
    cases zone with
    | header => exact segment.payload_writeHeader bytes
    | payload => exact absurd rfl reserve
    | trailer => exact segment.payload_writeTrailer bytes
  apply chainBytes_eq_of_payload
  apply List.ext_getElem?
  intro place
  simp only [writeZone, List.getElem?_map, List.getElem?_mapIdx]
  cases packet.chain[place]? with
  | none => rfl
  | some segment =>
      simp only [Option.map_some]
      split
      · rw [written]
      · rfl

/-- A fragment header stands ahead of the payload. -/
theorem writeFragmentHeader_keeps (packet : Packet) {pools : Pools} :
    (packet.writeFragmentHeader pools).Satisfies
      (fun stamped _ => stamped.toBytes = packet.toBytes ∧
        stamped.tag = packet.tag ∧
        stamped.chain.length = packet.chain.length)
      (fun _ _ => True) (fun _ => True) := by
  unfold writeFragmentHeader
  cases tagged : packet.tag with
  | none => trivial
  | some tag =>
      refine Outcome.Satisfies.readPool (Outcome.Satisfies.ite ?_ ?_)
      · exact fun _ => trivial
      · intro _
        apply Outcome.Satisfies.ofExcept (fun _ _ => trivial)
        intro header _
        cases isChain : packet.chain with
        | nil => trivial
        | cons first rest =>
            cases writing : first.writeHeaderEnd? (header.encode
                (pools.get packet.pool).config.byteOrder) with
            | none =>
                simp only [writing]
                trivial
            | some stamped =>
                simp only [writing]
                refine Outcome.Satisfies.pure ⟨?_, rfl, rfl⟩
                apply chainBytes_eq_of_payload
                rw [isChain, List.map_cons, List.map_cons,
                  Segment.payload_writeHeaderEnd? writing]

end Packet

end PooledPackets
