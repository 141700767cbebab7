import PooledPackets.Bytes
import PooledPackets.Fault
import PooledPackets.Layout

/-!
# Segments

A segment is one buffer of fixed size, numbered within the pool that made it.
Payload is written into the middle zone only, behind the payload already
there; a link driver fills the reserves on both sides. A new buffer holds
zeros; no more of it is kept than was written.
-/

namespace PooledPackets

/-- One segment of a pool. Nothing is written beyond the size that the layout
asks for, and the payload stays inside the payload zone. -/
structure Segment where
  /-- The number of the segment within its pool. -/
  id : Nat
  /-- The pool that the segment belongs to. -/
  pool : PoolId
  layout : Layout
  /-- The buffer up to the last byte that was ever written. -/
  written : Bytes
  /-- The bytes of payload written so far. -/
  length : Nat
  written_le : written.length ≤ layout.capacity
  length_le : length ≤ layout.maxPayload
  deriving DecidableEq

namespace Segment

/-! ## Reading -/

/-- The whole buffer, with the zeros behind the bytes that were written. -/
def buffer (segment : Segment) : Bytes :=
  segment.written.padded segment.layout.capacity

theorem length_buffer (segment : Segment) :
    segment.buffer.length = segment.layout.capacity := by
  have := segment.written_le
  simp only [buffer, Bytes.length_padded]
  omega

def header (segment : Segment) : Bytes :=
  segment.written.window 0 segment.layout.payloadStart

def payload (segment : Segment) : Bytes :=
  segment.written.window segment.layout.payloadStart
    (segment.layout.payloadStart + segment.length)

def trailer (segment : Segment) : Bytes :=
  segment.written.window segment.layout.payloadEnd segment.layout.capacity

/-- The payload bytes that still fit. -/
def remaining (segment : Segment) : Nat :=
  segment.layout.maxPayload - segment.length

def isEmpty (segment : Segment) : Bool :=
  segment.length == 0

/-- The header reserve and the written payload lie inside the buffer. -/
theorem payload_inside (segment : Segment) :
    segment.layout.payloadStart + segment.length ≤
      segment.layout.capacity := by
  have inZone := segment.length_le
  have zones := segment.layout.payloadEnd_le_capacity
  simp only [Layout.payloadStart, Layout.payloadEnd] at *
  omega

@[simp] theorem length_payload (segment : Segment) :
    segment.payload.length = segment.length := by
  rw [payload, Bytes.length_window]
  omega

theorem header_eq_between (segment : Segment) :
    segment.header =
      segment.buffer.between 0 segment.layout.payloadStart := by
  have inside := segment.payload_inside
  exact Bytes.window_eq_between (by omega)

theorem payload_eq_between (segment : Segment) :
    segment.payload =
      segment.buffer.between segment.layout.payloadStart
        (segment.layout.payloadStart + segment.length) :=
  Bytes.window_eq_between segment.payload_inside

theorem trailer_eq_between (segment : Segment) :
    segment.trailer =
      segment.buffer.between segment.layout.payloadEnd
        segment.layout.capacity :=
  Bytes.window_eq_between (Nat.le_refl _)

/-! ## Writing -/

/-- The segment with bytes written over its buffer, from a position on. -/
def stamp (segment : Segment) (position : Nat) (bytes : Bytes)
    (inside : position + bytes.length ≤ segment.layout.capacity) : Segment :=
  { segment with
    written := segment.written.write position bytes
    written_le := by
      have longest :=
        Bytes.length_write_le segment.written bytes position
      have := segment.written_le
      omega }

/-- A stamp changes the buffer where its bytes go, and nowhere else. -/
theorem buffer_stamp (segment : Segment) (position : Nat) (bytes : Bytes)
    (inside : position + bytes.length ≤ segment.layout.capacity) :
    (segment.stamp position bytes inside).buffer =
      segment.buffer.overwrite position bytes :=
  Bytes.padded_write inside

/-- Writes bytes over the start of the header reserve, as far as they fit. -/
def writeHeader (segment : Segment) (bytes : Bytes) : Segment :=
  segment.stamp 0 (bytes.take segment.layout.payloadStart) (by
    have zones := segment.layout.zones_fill
    simp only [List.length_take, Layout.payloadStart]
    omega)

/-- Writes bytes at the very end of the header reserve, right before the
payload. There is no result if the reserve is too small for them. -/
def writeHeaderEnd? (segment : Segment) (bytes : Bytes) : Option Segment :=
  if fits : bytes.length ≤ segment.layout.payloadStart then
    some (segment.stamp (segment.layout.payloadStart - bytes.length) bytes (by
      have zones := segment.layout.zones_fill
      simp only [Layout.payloadStart] at *
      omega))
  else none

/-- Writes bytes over the start of the written payload, as far as it goes. -/
def writePayload (segment : Segment) (bytes : Bytes) : Segment :=
  segment.stamp segment.layout.payloadStart (bytes.take segment.length) (by
    have inside := segment.payload_inside
    simp only [List.length_take]
    omega)

theorem trailer_inside (segment : Segment) (bytes : Bytes) :
    segment.layout.payloadEnd +
      (bytes.take segment.layout.trailerReserve).length ≤
        segment.layout.capacity := by
  have zones := segment.layout.zones_fill
  simp only [List.length_take, Layout.payloadEnd]
  omega

/-- Writes bytes over the start of the trailer reserve, as far as they fit. -/
def writeTrailer (segment : Segment) (bytes : Bytes) : Segment :=
  segment.stamp segment.layout.payloadEnd
    (bytes.take segment.layout.trailerReserve) (segment.trailer_inside bytes)

theorem length_append_le (segment : Segment) (bytes : Bytes) :
    segment.length + (bytes.take segment.remaining).length ≤
      segment.layout.maxPayload := by
  have inZone := segment.length_le
  simp only [List.length_take, remaining]
  omega

theorem append_inside (segment : Segment) (bytes : Bytes) :
    segment.layout.payloadStart + segment.length +
      (bytes.take segment.remaining).length ≤ segment.layout.capacity := by
  have room := segment.length_append_le bytes
  have zones := segment.layout.payloadEnd_le_capacity
  simp only [Layout.payloadStart, Layout.payloadEnd] at *
  omega

/-- Adds as many bytes to the payload as still fit. -/
def append (segment : Segment) (bytes : Bytes) : Segment :=
  let fitting := bytes.take segment.remaining
  { segment.stamp (segment.layout.payloadStart + segment.length) fitting
      (segment.append_inside bytes) with
    length := segment.length + fitting.length
    length_le := segment.length_append_le bytes }

/-- Forgets the payload. No byte of the buffer changes. -/
def clear (segment : Segment) : Segment :=
  { segment with length := 0, length_le := Nat.zero_le _ }

/-! ## Making -/

/-- The segments of a new pool, numbered from zero. -/
def fresh (pool : PoolId) (layout : Layout) (count : Nat) : List Segment :=
  (List.range count).map fun id =>
    { id, pool, layout
      written := []
      length := 0
      written_le := Nat.zero_le _
      length_le := Nat.zero_le _ }

end Segment

end PooledPackets
