import PooledPackets.Fragment.Header
import PooledPackets.Proofs.Contents.Reserves

/-!
# Headers on the wire

A header is read from the bytes that it was written to. Where it is read in
another byte order than it was written in, its two words come out reversed, the
same way for every header, and its flag as it was. Every frame is read that has
the bytes of a header.
-/

namespace PooledPackets

namespace ByteOrder

/-- What a word comes out as that is written in one order and read in
another. -/
def reread (written read : ByteOrder) (word : UInt32) : UInt32 :=
  match written.wordBytes word with
  | [b₀, b₁, b₂, b₃] => read.readWord b₀ b₁ b₂ b₃
  | _ => word

theorem ofLowestFirst_lowestFirst (word : UInt32) :
    ofLowestFirst (.ofNat word.toNat) (.ofNat (word.toNat / 256))
      (.ofNat (word.toNat / 65536)) (.ofNat (word.toNat / 16777216)) =
        word := by
  apply UInt32.toNat_inj.mp
  have bounded := word.toNat_lt
  simp only [ofLowestFirst, UInt32.toNat_ofNat', UInt8.toNat_ofNat']
  omega

@[simp]
theorem reread_self (order : ByteOrder) (word : UInt32) :
    order.reread order word = word := by
  cases order with
  | little => exact ofLowestFirst_lowestFirst word
  | big => exact ofLowestFirst_lowestFirst word

@[simp]
theorem reread_zero (written read : ByteOrder) :
    written.reread read 0 = 0 := by
  cases written <;> cases read <;> rfl

end ByteOrder

namespace FragmentHeader

/-- What a header comes out as that is written in one order and read in
another. -/
def reread (header : FragmentHeader) (written read : ByteOrder) :
    FragmentHeader where
  datagram := written.reread read header.datagram
  offset := written.reread read header.offset
  moreFragments := header.moreFragments

@[simp]
theorem reread_self (header : FragmentHeader) (order : ByteOrder) :
    header.reread order order = header := by
  simp [reread]

/-- A header is read whatever follows it. -/
theorem decode_encode (header : FragmentHeader) (written read : ByteOrder)
    (payload : Bytes) :
    decode read (header.encode written ++ payload) =
      .ok (header.reread written read) := by
  have flag : (header.flags.toNat % 2 == 1) = header.moreFragments := by
    unfold flags
    cases header.moreFragments <;> rfl
  cases written <;> exact congrArg Except.ok (by simp only [reread, flag]; rfl)

theorem decode_of_short (order : ByteOrder) {frame : Bytes}
    (short : frame.length < size) :
    decode order frame = .error (.truncated frame.length size) := by
  unfold decode
  split
  · simp only [List.length_cons, size] at short
    omega
  · rfl

theorem exists_decode (order : ByteOrder) {frame : Bytes}
    (long : size ≤ frame.length) :
    ∃ header, decode order frame = .ok header := by
  unfold size at long
  iterate 12
    obtain ⟨_, rest, rfl⟩ := @List.exists_cons_of_length_pos _ frame (by omega)
    rename List UInt8 => frame
    rw [List.length_cons] at long
  exact ⟨_, rfl⟩

end FragmentHeader

namespace Segment

/-- What is written at the end of the header reserve is found there. -/
theorem drop_header_of_writeHeaderEnd? {segment stamped : Segment}
    {bytes : Bytes} (writing : segment.writeHeaderEnd? bytes = some stamped) :
    stamped.header.drop (stamped.header.length - bytes.length) = bytes := by
  unfold writeHeaderEnd? at writing
  split at writing
  · rename_i fits
    cases writing
    have place : segment.layout.payloadStart - bytes.length + bytes.length =
        segment.layout.payloadStart := Nat.sub_add_cancel fits
    have inside : segment.layout.payloadStart - bytes.length ≤
        segment.buffer.length := by
      have zone := segment.payload_inside
      rw [length_buffer]
      omega
    have written : (segment.buffer.overwrite
        (segment.layout.payloadStart - bytes.length) bytes).between 0
          segment.layout.payloadStart = segment.buffer.between 0
            (segment.layout.payloadStart - bytes.length) ++ bytes := by
      rw [← Bytes.between_overwrite (Nat.zero_le _) inside, place]
    rw [header_eq_between, buffer_stamp]
    dsimp only [stamp]
    rw [written, List.length_append, Nat.add_sub_cancel, List.drop_left]
  · cases writing

end Segment

/-- A frame whose header is read is received as its payload. -/
theorem Pool.receiveFrame_of_decoded {id : PoolId} {frame : Bytes}
    {pools : Pools} {header : FragmentHeader}
    (decoded : FragmentHeader.decode (pools.get id).config.byteOrder frame =
      .ok header) :
    Pool.receiveFrame id frame pools =
      (Pool.packetFrom id (frame.drop FragmentHeader.size) >>=
        fun packet => pure (packet.withTag (some header.toTag))) pools := by
  change (Operation.ofExcept (FragmentHeader.decode _ frame) >>= _) pools = _
  rw [decoded]
  rfl

end PooledPackets
