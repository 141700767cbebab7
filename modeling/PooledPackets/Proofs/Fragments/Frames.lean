import Mathlib.Data.Nat.Digits.Defs
import PooledPackets.Proofs.Fragments.Headers
import PooledPackets.Proofs.Packets.Reading

/-!
# Frames written again

A header goes over the first twelve bytes of a buffer and over nothing else, and
it is read from there whatever follows it. A frame whose header is read and
written again over itself keeps the two words of its header and all that follows
the header; of its flags it keeps the lowest one, and its reserve is cleared. So
nothing changes exactly in those frames that have neither further flags nor
anything in the reserve.
-/

namespace PooledPackets

namespace ByteOrder

/-- Bytes are the digits of a word in base 256, the lowest one first or last. -/
def Spells (order : ByteOrder) (bytes : Bytes) (word : UInt32) : Prop :=
  match order with
  | .little => Nat.ofDigits 256 (bytes.map UInt8.toNat) = word.toNat
  | .big => Nat.ofDigits 256 (bytes.reverse.map UInt8.toNat) = word.toNat

theorem ofDigits_lowestFirst (word : UInt32) :
    Nat.ofDigits 256 ((lowestFirst word).map UInt8.toNat) = word.toNat := by
  have bounded := word.toNat_lt
  simp only [lowestFirst, List.map_cons, List.map_nil, Nat.ofDigits_cons,
    Nat.ofDigits_nil, UInt8.toNat_ofNat']
  omega

theorem spells_wordBytes (order : ByteOrder) (word : UInt32) :
    order.Spells (order.wordBytes word) word := by
  cases order with
  | little => exact ofDigits_lowestFirst word
  | big =>
      rw [Spells, wordBytes, List.reverse_reverse]
      exact ofDigits_lowestFirst word

theorem lowestFirst_ofLowestFirst (b₀ b₁ b₂ b₃ : UInt8) :
    lowestFirst (ofLowestFirst b₀ b₁ b₂ b₃) = [b₀, b₁, b₂, b₃] := by
  have bounded₀ := b₀.toNat_lt
  have bounded₁ := b₁.toNat_lt
  have bounded₂ := b₂.toNat_lt
  have bounded₃ := b₃.toNat_lt
  simp only [lowestFirst, ofLowestFirst, List.cons.injEq, and_true,
    ← UInt8.toNat_inj, UInt8.toNat_ofNat', UInt32.toNat_ofNat']
  omega

/-- A word that is read from four bytes is written as these bytes again. -/
theorem wordBytes_readWord (order : ByteOrder) (b₀ b₁ b₂ b₃ : UInt8) :
    order.wordBytes (order.readWord b₀ b₁ b₂ b₃) = [b₀, b₁, b₂, b₃] := by
  cases order with
  | little => exact lowestFirst_ofLowestFirst b₀ b₁ b₂ b₃
  | big =>
      rw [wordBytes, readWord, lowestFirst_ofLowestFirst]
      rfl

end ByteOrder

namespace FragmentHeader

variable {order : ByteOrder} {header : FragmentHeader} {buffer frame : Bytes}

/-! ## Written over a buffer -/

/-- How a frame begins that a header was written to. -/
structure Leads (header : FragmentHeader) (order : ByteOrder)
    (frame : Bytes) : Prop where
  datagram_spelled : order.Spells (frame.between 0 4) header.datagram
  offset_spelled : order.Spells (frame.between 4 8) header.offset
  flags_eq : frame.between 8 9 = [if header.moreFragments then 1 else 0]
  reserve_eq : frame.between 9 12 = [0, 0, 0]

theorem leads_encode (header : FragmentHeader) (order : ByteOrder)
    (rest : Bytes) : header.Leads order (header.encode order ++ rest) := by
  have datagram := order.spells_wordBytes header.datagram
  have offset := order.spells_wordBytes header.offset
  cases order with
  | little => exact ⟨datagram, offset, rfl, rfl⟩
  | big => exact ⟨datagram, offset, rfl, rfl⟩

theorem encodeInto?_eq (header : FragmentHeader) (order : ByteOrder)
    (buffer : Bytes) :
    header.encodeInto? order buffer =
      if size ≤ buffer.length then
        some (header.encode order ++ buffer.drop size)
      else none := by
  rw [encodeInto?, Bytes.overwrite_zero, length_encode]

/-! ## Read and written again -/

/-- A frame with its header read and written again over itself. There is no
result if it is too short for a header. -/
def renewed? (order : ByteOrder) (frame : Bytes) : Option Bytes :=
  match decode order frame with
  | .ok header => header.encodeInto? order frame
  | .error _ => none

/-- A frame with no flag but the lowest one and nothing in the reserve. -/
def cleared (frame : Bytes) : Bytes :=
  frame.between 0 8 ++ (frame.between 8 9).map (· &&& 1) ++ [0, 0, 0] ++
    frame.drop size

/-- A frame has no flag but the lowest one and nothing in the reserve. -/
structure Canonical (frame : Bytes) : Prop where
  flags_eq : frame.between 8 9 = [0] ∨ frame.between 8 9 = [1]
  reserve_eq : frame.between 9 12 = [0, 0, 0]

theorem lowestFlag_eq (flags : UInt8) :
    (if flags.toNat % 2 == 1 then 1 else 0 : UInt8) = flags &&& 1 := by
  apply UInt8.toNat_inj.mp
  rw [UInt8.toNat_and, UInt8.toNat_one, Nat.and_one_is_mod]
  split <;> grind

theorem and_one_eq_self_iff (flags : UInt8) :
    flags &&& 1 = flags ↔ flags = 0 ∨ flags = 1 := by
  rw [← UInt8.toNat_inj, ← UInt8.toNat_inj, ← UInt8.toNat_inj,
    UInt8.toNat_and, UInt8.toNat_one, UInt8.toNat_zero, Nat.and_one_is_mod]
  omega

/-- A header that is read is written with the words that it was read from. -/
theorem encode_of_decode (decoded : decode order frame = .ok header) :
    header.encode order =
      frame.between 0 8 ++ (frame.between 8 9).map (· &&& 1) ++
        [0, 0, 0] := by
  unfold decode at decoded
  split at decoded
  · rename_i flag _ _ _ rest
    cases decoded
    rw [encode, ByteOrder.wordBytes_readWord, ByteOrder.wordBytes_readWord,
      flags, lowestFlag_eq]
    rfl
  · cases decoded

theorem decode_eq_error_iff {error : BufferError} :
    decode order frame = .error error ↔
      frame.length < size ∧ error = .truncated frame.length size := by
  by_cases short : frame.length < size
  · rw [decode_of_short order short]
    simp [short, eq_comm]
  · obtain ⟨header, decoded⟩ := exists_decode order (Nat.le_of_not_lt short)
    rw [decoded]
    simp [short]

theorem size_le_of_decode (decoded : decode order frame = .ok header) :
    size ≤ frame.length := by
  by_contra short
  rw [decode_of_short order (Nat.lt_of_not_le short)] at decoded
  cases decoded

theorem renewed?_eq (order : ByteOrder) (frame : Bytes) :
    renewed? order frame =
      if size ≤ frame.length then some (cleared frame) else none := by
  rw [renewed?]
  by_cases long : size ≤ frame.length
  · obtain ⟨header, decoded⟩ := exists_decode order long
    rw [decoded]
    dsimp only
    rw [encodeInto?_eq, if_pos long, if_pos long, encode_of_decode decoded]
    rfl
  · rw [decode_of_short order (Nat.lt_of_not_le long), if_neg long]

theorem Canonical.size_le (canonical : Canonical frame) :
    size ≤ frame.length := by
  have reserve := congrArg List.length canonical.reserve_eq
  simp only [Bytes.between, List.length_drop, List.length_take,
    List.length_cons, List.length_nil] at reserve
  rw [size]
  omega

/-- The words, the flags and the reserve of a header, and what follows it. -/
theorem zones_append (frame : Bytes) :
    frame.between 0 8 ++ frame.between 8 9 ++ frame.between 9 12 ++
      frame.drop size = frame := by
  rw [Bytes.between_join (by decide) (by decide),
    Bytes.between_join (by decide) (by decide)]
  exact List.take_append_drop size frame

theorem cleared_eq_self_iff (long : size ≤ frame.length) :
    cleared frame = frame ↔ Canonical frame := by
  obtain ⟨flag, isFlag⟩ : ∃ flag, frame.between 8 9 = [flag] := by
    rw [← List.length_eq_one_iff]
    exact Bytes.length_between (Nat.le_trans (by decide) long)
  have reserve_length : (frame.between 9 12).length = 3 :=
    Bytes.length_between long
  calc cleared frame = frame
      ↔ cleared frame = frame.between 0 8 ++ frame.between 8 9 ++
          frame.between 9 12 ++ frame.drop size := by rw [zones_append]
    _ ↔ flag &&& 1 = flag ∧ frame.between 9 12 = [0, 0, 0] := by
        rw [cleared, List.append_left_inj, isFlag]
        constructor
        · intro same
          obtain ⟨front, reserve⟩ :=
            List.append_inj' same reserve_length.symm
          rw [List.append_right_inj] at front
          exact ⟨List.singleton_inj.mp front, reserve.symm⟩
        · rintro ⟨same, reserve⟩
          rw [reserve, List.map_singleton, same]
    _ ↔ Canonical frame := by
        rw [and_one_eq_self_iff]
        constructor
        · rintro ⟨known, reserve⟩
          refine ⟨?_, reserve⟩
          simpa [isFlag] using known
        · rintro ⟨known, reserve⟩
          refine ⟨?_, reserve⟩
          simpa [isFlag] using known

theorem Leads.canonical (leads : header.Leads order frame) :
    Canonical frame where
  flags_eq := by
    rw [leads.flags_eq]
    cases header.moreFragments with
    | true => exact .inr rfl
    | false => exact .inl rfl
  reserve_eq := leads.reserve_eq

/-- A frame that is cleared has nothing more to clear. -/
theorem canonical_cleared (long : size ≤ frame.length) :
    Canonical (cleared frame) := by
  -- Either byte order will do: a cleared frame is one that a header was
  -- written to.
  obtain ⟨header, decoded⟩ := exists_decode .little long
  rw [cleared, ← encode_of_decode decoded]
  exact (header.leads_encode .little _).canonical

theorem renewed?_eq_self_iff :
    renewed? order frame = some frame ↔ Canonical frame := by
  rw [renewed?_eq]
  by_cases long : size ≤ frame.length
  · rw [if_pos long, Option.some_inj, cleared_eq_self_iff long]
  · rw [if_neg long]
    constructor
    · intro impossible
      cases impossible
    · intro canonical
      exact absurd canonical.size_le long

theorem renewed?_renewed? (order : ByteOrder) (frame : Bytes) :
    (renewed? order frame).bind (renewed? order) = renewed? order frame := by
  rw [renewed?_eq order frame]
  by_cases long : size ≤ frame.length
  · rw [if_pos long, Option.bind_some]
    exact renewed?_eq_self_iff.mpr (canonical_cleared long)
  · rw [if_neg long, Option.bind_none]

/-! ## Both directions -/

/-- In either byte order, a header goes over the first twelve bytes of a buffer
that has them, over no other byte, and is read back whatever follows it. A frame
is read unless it is too short, and then the error names its length. Written
again over what it was read from, a header clears what it does not know; so that
changes nothing exactly in canonical frames, and nothing more the second
time. -/
theorem codec_laws (order : ByteOrder) :
    (∀ (header : FragmentHeader) (buffer : Bytes),
      if size ≤ buffer.length then
        ∃ frame, header.encodeInto? order buffer = some frame ∧
          header.Leads order frame ∧ frame.length = buffer.length ∧
          frame.drop size = buffer.drop size ∧
          decode order frame = .ok header ∧
          ∀ rest, decode order (frame.take size ++ rest) = .ok header
      else header.encodeInto? order buffer = none) ∧
    (∀ (frame : Bytes) (error : BufferError),
      decode order frame = .error error ↔
        frame.length < size ∧ error = .truncated frame.length size) ∧
    (∀ (frame : Bytes) (header : FragmentHeader),
      decode order frame = .ok header →
        header.encode order =
            frame.between 0 8 ++ (frame.between 8 9).map (· &&& 1) ++
              [0, 0, 0] ∧
          header.encodeInto? order frame = some (cleared frame)) ∧
    (∀ frame, renewed? order frame = some frame ↔ Canonical frame) ∧
    (∀ frame, (renewed? order frame).bind (renewed? order) =
      renewed? order frame) := by
  refine ⟨fun header buffer => ?_, fun frame error => decode_eq_error_iff,
    fun frame header decoded => ?_, fun frame => renewed?_eq_self_iff,
    renewed?_renewed? order⟩
  · rw [encodeInto?_eq]
    split
    · rename_i long
      have front : (header.encode order).length = size :=
        length_encode header order
      have isRead (rest : Bytes) :
          decode order (header.encode order ++ rest) = .ok header := by
        rw [decode_encode, reread_self]
      refine ⟨_, rfl, leads_encode header order _, ?_, ?_, isRead _,
        fun rest => ?_⟩
      · rw [List.length_append, front, List.length_drop]
        omega
      · rw [← front, List.drop_left]
      · rw [← front, List.take_left]
        exact isRead rest
    · rfl
  · have written := encode_of_decode decoded
    rw [encodeInto?_eq, if_pos (size_le_of_decode decoded), written]
    exact ⟨rfl, rfl⟩

/-- A frame with further flags and with something in its reserve, and one byte
of payload. -/
theorem codec_laws_of_further_flags :
    let frame : Bytes := [1, 0, 0, 0, 2, 0, 0, 0, 0xff, 9, 9, 9, 7]
    let header : FragmentHeader := ⟨0x01000000, 0x02000000, true⟩
    decode .big frame = .ok header ∧
      header.encodeInto? .big frame =
        some [1, 0, 0, 0, 2, 0, 0, 0, 1, 0, 0, 0, 7] ∧
      renewed? .big frame ≠ some frame := by
  intro frame header
  have decoded : decode .big frame = .ok header := rfl
  obtain ⟨_, _, written, same, _⟩ := codec_laws .big
  refine ⟨decoded, (written frame header decoded).2, fun unchanged => ?_⟩
  have canonical := (same frame).mp unchanged
  exact absurd canonical.reserve_eq (by decide)

end FragmentHeader

end PooledPackets
