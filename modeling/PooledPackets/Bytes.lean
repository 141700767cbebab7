/-!
# Byte strings

A byte string is a list of bytes. Writing into a buffer replaces the bytes
from a position on and leaves its length alone. Of a large buffer only the
start is kept that was written so far; zeros follow it.
-/

namespace PooledPackets

abbrev Bytes := List UInt8

namespace Bytes

/-- The largest number of bytes that can be kept in one place. -/
def maxSize : Nat := Nat.pow 2 63 - 1

/-- The buffer with `bytes` written over it from a position on. -/
def overwrite (buffer : Bytes) (position : Nat) (bytes : Bytes) : Bytes :=
  buffer.take position ++ bytes ++ buffer.drop (position + bytes.length)

/-- The bytes of a buffer between two positions. -/
def between (buffer : Bytes) (start stop : Nat) : Bytes :=
  (buffer.take stop).drop start

theorem length_between {buffer : Bytes} {start stop : Nat}
    (inside : stop ≤ buffer.length) :
    (between buffer start stop).length = stop - start := by
  simp only [between, List.length_drop, List.length_take]
  omega

/-! ## Buffers that go on with zeros -/

/-- The bytes with zeros behind them, up to a size. -/
def padded (bytes : Bytes) (size : Nat) : Bytes :=
  bytes ++ List.replicate (size - bytes.length) 0

theorem length_padded (bytes : Bytes) (size : Nat) :
    (bytes.padded size).length = max bytes.length size := by
  simp only [padded, List.length_append, List.length_replicate]
  omega

theorem getElem?_padded (bytes : Bytes) (size place : Nat) :
    (bytes.padded size)[place]? =
      if place < bytes.length then bytes[place]?
      else if place < size then some 0 else none := by
  simp only [padded, List.getElem?_append, List.getElem?_replicate]
  split
  · rfl
  · have : place - bytes.length < size - bytes.length ↔ place < size := by
      omega
    simp only [this]

/-- The bytes between two positions of a buffer that goes on with zeros. -/
def window (written : Bytes) (start stop : Nat) : Bytes :=
  (between written start stop).padded (stop - start)

@[simp] theorem length_window (written : Bytes) (start stop : Nat) :
    (window written start stop).length = stop - start := by
  simp only [window, length_padded, between, List.length_drop,
    List.length_take]
  omega

theorem window_eq_between {written : Bytes} {start stop size : Nat}
    (inside : stop ≤ size) :
    window written start stop = between (written.padded size) start stop := by
  apply List.ext_getElem?
  intro place
  simp only [window, between, getElem?_padded, List.getElem?_drop,
    List.getElem?_take, List.length_drop, List.length_take]
  grind

/-- Writes bytes from a position on into a buffer that goes on with zeros. -/
def write (written : Bytes) (position : Nat) (bytes : Bytes) : Bytes :=
  if bytes.isEmpty then written
  else (written.padded position).overwrite position bytes

theorem length_write_le (written bytes : Bytes) (position : Nat) :
    (write written position bytes).length ≤
      max written.length (position + bytes.length) := by
  rw [write]
  split
  · omega
  · simp only [overwrite, List.length_append, List.length_take,
      List.length_drop, length_padded]
    omega

/-- Writing changes the whole buffer where the bytes go, and nowhere else. -/
theorem padded_write {written bytes : Bytes} {position size : Nat}
    (inside : position + bytes.length ≤ size) :
    (write written position bytes).padded size =
      (written.padded size).overwrite position bytes := by
  rw [write]
  split
  case isTrue empty =>
    rw [List.isEmpty_iff.mp empty]
    simp only [overwrite, List.append_nil, List.length_nil, Nat.add_zero,
      List.take_append_drop]
  case isFalse =>
    apply List.ext_getElem?
    intro place
    simp only [getElem?_padded, overwrite, List.getElem?_append,
      List.length_append, List.length_take, List.length_drop, length_padded,
      List.getElem?_take, List.getElem?_drop]
    grind

end Bytes

end PooledPackets
