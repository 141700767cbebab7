import PooledPackets.Bytes
import PooledPackets.Config
import PooledPackets.Error

/-!
# Fragment tags and their header on the wire

A fragment knows its datagram, its place in it and whether more follows. On
the wire this takes twelve bytes: the datagram's number, the offset, a byte of
flags of which the lowest bit says that more fragments follow, and three bytes
in reserve. Other flags and the reserve are written as zero and ignored when
read.
-/

namespace PooledPackets

/-- The place of a fragment in its datagram. -/
structure FragmentTag where
  /-- Shared by all fragments of one datagram. -/
  datagram : UInt32
  /-- The position of the fragment's first byte in the datagram. -/
  offset : Nat
  /-- False on the last fragment only. -/
  moreFragments : Bool
  deriving DecidableEq, Repr, Inhabited

namespace FragmentTag

def text (tag : FragmentTag) : String :=
  Text.record "FragmentInfo"
    [("datagram_id", toString tag.datagram), ("offset", toString tag.offset),
      ("more_fragments", toString tag.moreFragments)]

end FragmentTag

/-- A fragment tag as it travels: the offset takes a 32 bit word. -/
structure FragmentHeader where
  datagram : UInt32
  offset : UInt32
  moreFragments : Bool
  deriving DecidableEq, Repr, Inhabited

/-! ## Words as bytes -/

namespace ByteOrder

/-- The four bytes of a word, lowest first. -/
def lowestFirst (word : UInt32) : Bytes :=
  let number := word.toNat
  [UInt8.ofNat number, UInt8.ofNat (number / 256),
    UInt8.ofNat (number / 65536), UInt8.ofNat (number / 16777216)]

/-- The word with the given bytes, lowest first. -/
def ofLowestFirst (b₀ b₁ b₂ b₃ : UInt8) : UInt32 :=
  UInt32.ofNat (b₀.toNat + 256 * b₁.toNat + 65536 * b₂.toNat +
    16777216 * b₃.toNat)

/-- The four bytes of a word as they are sent. -/
def wordBytes (order : ByteOrder) (word : UInt32) : Bytes :=
  match order with
  | .little => lowestFirst word
  | .big => (lowestFirst word).reverse

/-- The word that four received bytes stand for. -/
def readWord (order : ByteOrder) (b₀ b₁ b₂ b₃ : UInt8) : UInt32 :=
  match order with
  | .little => ofLowestFirst b₀ b₁ b₂ b₃
  | .big => ofLowestFirst b₃ b₂ b₁ b₀

@[simp] theorem length_wordBytes (order : ByteOrder) (word : UInt32) :
    (order.wordBytes word).length = 4 := by
  cases order <;> rfl

end ByteOrder

/-! ## The header -/

namespace FragmentHeader

def size : Nat := 12

def flags (header : FragmentHeader) : UInt8 :=
  if header.moreFragments then 1 else 0

def encode (header : FragmentHeader) (order : ByteOrder) : Bytes :=
  order.wordBytes header.datagram ++ order.wordBytes header.offset ++
    [header.flags, 0, 0, 0]

@[simp] theorem length_encode (header : FragmentHeader) (order : ByteOrder) :
    (header.encode order).length = size := by
  simp [encode, size]

/-- The buffer with the header written over its start. There is no result if
the buffer is shorter than a header. -/
def encodeInto? (header : FragmentHeader) (order : ByteOrder)
    (buffer : Bytes) : Option Bytes :=
  if size ≤ buffer.length then
    some (buffer.overwrite 0 (header.encode order))
  else none

/-- The header at the start of a frame; what follows it is not looked at. -/
def decode (order : ByteOrder) : Bytes → Except BufferError FragmentHeader
  | d₀ :: d₁ :: d₂ :: d₃ :: o₀ :: o₁ :: o₂ :: o₃ ::
      flags :: _ :: _ :: _ :: _ =>
      .ok {
        datagram := order.readWord d₀ d₁ d₂ d₃
        offset := order.readWord o₀ o₁ o₂ o₃
        moreFragments := flags.toNat % 2 == 1 }
  | frame => .error (.truncated frame.length size)

/-- The tag that a received header stands for. -/
def toTag (header : FragmentHeader) : FragmentTag :=
  ⟨header.datagram, header.offset.toNat, header.moreFragments⟩

end FragmentHeader

namespace FragmentTag

/-- The largest offset that a header can carry. -/
def maxOffset : Nat := Nat.pow 2 32 - 1

/-- The header for a tag, if its offset can be sent. -/
def toHeader (tag : FragmentTag) : Except BufferError FragmentHeader :=
  if tag.offset ≤ maxOffset then
    .ok ⟨tag.datagram, UInt32.ofNat tag.offset, tag.moreFragments⟩
  else .error (.outOfBounds tag.offset maxOffset)

end FragmentTag

end PooledPackets
