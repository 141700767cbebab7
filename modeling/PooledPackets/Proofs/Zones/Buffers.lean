import PooledPackets.Proofs.Contents.Reserves

/-!
# The zones of a buffer

The buffer of a segment is its header reserve, its payload zone and its trailer
reserve, one after the other. What is written into one of them leaves the
others alone, and appending changes only the place right behind the payload.
-/

namespace PooledPackets

namespace Bytes

variable {buffer bytes : Bytes} {start stop position : Nat}

theorem getElem?_between (buffer : Bytes) (start stop place : Nat) :
    (buffer.between start stop)[place]? =
      if start + place < stop then buffer[start + place]? else none := by
  rw [between, List.getElem?_drop, List.getElem?_take]

theorem getElem?_overwrite_of_outside
    (inside : position + bytes.length ≤ buffer.length) {place : Nat}
    (outside : place < position ∨ position + bytes.length ≤ place) :
    (buffer.overwrite position bytes)[place]? = buffer[place]? := by
  simp only [overwrite, List.getElem?_append, List.length_append,
    List.length_take, List.getElem?_take, List.getElem?_drop]
  grind

/-- What is written into a range changes the range as if it were a buffer of
its own. -/
theorem between_overwrite_of_inside (isRange : stop ≤ buffer.length)
    (begins : start ≤ position) (ends : position + bytes.length ≤ stop) :
    (buffer.overwrite position bytes).between start stop =
      (buffer.between start stop).overwrite (position - start) bytes := by
  apply List.ext_getElem?
  intro place
  simp only [getElem?_between, overwrite, List.getElem?_append,
    List.length_append, List.length_take, List.getElem?_take,
    List.getElem?_drop, length_between isRange]
  grind

/-- Two ranges next to each other are one. -/
theorem between_append_between (buffer : Bytes) {middle : Nat}
    (first : start ≤ middle) (second : middle ≤ stop) :
    buffer.between start middle ++ buffer.between middle stop =
      buffer.between start stop := by
  have shorter : buffer.take middle = (buffer.take stop).take middle := by
    rw [List.take_take, Nat.min_eq_left second]
  have goesOn : (buffer.take stop).drop middle =
      ((buffer.take stop).drop start).drop (middle - start) := by
    rw [List.drop_drop, Nat.add_sub_cancel' first]
  rw [between, between, between, shorter, List.drop_take, goesOn,
    List.take_append_drop]

end Bytes

namespace Segment

/-! ## The three zones -/

/-- The whole payload zone, whether payload was written to it or not. -/
def payloadZone (segment : Segment) : Bytes :=
  segment.buffer.between segment.layout.payloadStart segment.layout.payloadEnd

/-- The buffer is its three zones one after the other, each of the size that
the layout gives it, and the payload is the start of the middle one. -/
structure Zoned (segment : Segment) : Prop where
  length_buffer : segment.buffer.length = segment.layout.capacity
  length_header : segment.header.length = segment.layout.headerReserve
  length_payloadZone :
    segment.payloadZone.length = segment.layout.maxPayload
  length_trailer : segment.trailer.length = segment.layout.trailerReserve
  covered :
    segment.header ++ segment.payloadZone ++ segment.trailer = segment.buffer
  payload_eq : segment.payload = segment.payloadZone.take segment.length
  length_le : segment.length ≤ segment.layout.maxPayload

theorem zoned (segment : Segment) : segment.Zoned := by
  have size := segment.length_buffer
  have zones := segment.layout.zones_fill
  have bounded := segment.length_le
  have fits := segment.layout.payloadEnd_le_capacity
  have ordered : segment.layout.payloadStart ≤ segment.layout.payloadEnd :=
    Nat.le_add_right _ _
  refine ⟨size, ?_, ?_, ?_, ?_, ?_, bounded⟩
  · rw [header, Bytes.length_window]
    rfl
  · rw [payloadZone, Bytes.length_between, Layout.payloadEnd,
      Layout.payloadStart, Nat.add_sub_cancel_left]
    rw [size]
    exact fits
  · rw [trailer, Bytes.length_window, Layout.payloadEnd]
    omega
  · rw [header_eq_between, payloadZone, trailer_eq_between,
      Bytes.between_append_between _ (Nat.zero_le _) ordered,
      Bytes.between_append_between _ (Nat.zero_le _) fits, Bytes.between,
      ← size, List.take_length, List.drop_zero]
  · have shorter : min (segment.layout.payloadStart + segment.length)
        segment.layout.payloadEnd =
          segment.layout.payloadStart + segment.length := by
      rw [Layout.payloadEnd, ← Layout.payloadStart]
      omega
    rw [payload_eq_between, payloadZone, Bytes.between, Bytes.between,
      List.take_drop, List.take_take, shorter]

/-! ## Changes within a range -/

/-- The segment has changed between two positions of its buffer at most. -/
structure ChangesWithin (before : Segment) (start stop : Nat)
    (after : Segment) : Prop where
  identity_eq : after.identity = before.identity
  elsewhere : ∀ place, place < start ∨ stop ≤ place →
    after.buffer[place]? = before.buffer[place]?

namespace ChangesWithin

variable {before between after : Segment} {start stop : Nat}

theorem refl (segment : Segment) (start stop : Nat) :
    segment.ChangesWithin start stop segment where
  identity_eq := rfl
  elsewhere := fun _ _ => rfl

theorem trans (first : before.ChangesWithin start stop between)
    (second : between.ChangesWithin start stop after) :
    before.ChangesWithin start stop after where
  identity_eq := second.identity_eq.trans first.identity_eq
  elsewhere := fun place outside =>
    (second.elsewhere place outside).trans (first.elsewhere place outside)

theorem mono (changes : before.ChangesWithin start stop after)
    {earlier later : Nat} (isEarlier : earlier ≤ start)
    (isLater : stop ≤ later) : before.ChangesWithin earlier later after where
  identity_eq := changes.identity_eq
  elsewhere := fun place outside =>
    changes.elsewhere place (by omega)

theorem layout_eq (changes : before.ChangesWithin start stop after) :
    after.layout = before.layout :=
  congrArg (fun identity => identity.2.2) changes.identity_eq

/-- Another range is as it was. -/
theorem between_eq (changes : before.ChangesWithin start stop after)
    {begins ends : Nat} (apart : ends ≤ start ∨ stop ≤ begins) :
    after.buffer.between begins ends = before.buffer.between begins ends := by
  apply List.ext_getElem?
  intro place
  rw [Bytes.getElem?_between, Bytes.getElem?_between]
  by_cases isInside : begins + place < ends
  · rw [if_pos isInside, if_pos isInside]
    exact changes.elsewhere _ (by omega)
  · rw [if_neg isInside, if_neg isInside]

theorem header_eq (changes : before.ChangesWithin start stop after)
    (behind : before.layout.payloadStart ≤ start) :
    after.header = before.header := by
  rw [header_eq_between, header_eq_between, changes.layout_eq]
  exact changes.between_eq (Or.inl behind)

theorem trailer_eq (changes : before.ChangesWithin start stop after)
    (ahead : stop ≤ before.layout.payloadEnd) :
    after.trailer = before.trailer := by
  rw [trailer_eq_between, trailer_eq_between, changes.layout_eq]
  exact changes.between_eq (Or.inr ahead)

end ChangesWithin

theorem changes_stamp (segment : Segment) (position : Nat) (bytes : Bytes)
    (inside : position + bytes.length ≤ segment.layout.capacity) :
    segment.ChangesWithin position (position + bytes.length)
      (segment.stamp position bytes inside) where
  identity_eq := rfl
  elsewhere := by
    intro place outside
    rw [buffer_stamp]
    exact Bytes.getElem?_overwrite_of_outside
      (segment.length_buffer ▸ inside) outside

/-! ## Appending -/

/-- Payload was added to a segment: its buffer has changed from the end of its
payload up to the new one at most. -/
structure Fills (before after : Segment) : Prop where
  length_le : before.length ≤ after.length
  changes : before.ChangesWithin (before.layout.payloadStart + before.length)
    (before.layout.payloadStart + after.length) after

namespace Fills

variable {before between after : Segment}

theorem refl (segment : Segment) : segment.Fills segment where
  length_le := Nat.le_refl _
  changes := .refl _ _ _

theorem trans (first : before.Fills between)
    (second : between.Fills after) : before.Fills after where
  length_le := Nat.le_trans first.length_le second.length_le
  changes := by
    have longer := first.length_le
    have longest := second.length_le
    apply (first.changes.mono (Nat.le_refl _) (by omega)).trans
    have changes := second.changes
    rw [first.changes.layout_eq] at changes
    exact changes.mono (by omega) (Nat.le_refl _)

/-- Payload goes nowhere but into the payload zone. -/
theorem inZone (fills : before.Fills after) :
    before.ChangesWithin before.layout.payloadStart
      before.layout.payloadEnd after := by
  have bounded := after.length_le
  rw [fills.changes.layout_eq] at bounded
  exact fills.changes.mono (Nat.le_add_right _ _)
    (Nat.add_le_add_left bounded _)

end Fills

theorem fills_append (segment : Segment) (bytes : Bytes) :
    segment.Fills (segment.append bytes) where
  length_le := Nat.le_add_right _ _
  changes := by
    have changes := segment.changes_stamp
      (segment.layout.payloadStart + segment.length)
      (bytes.take segment.remaining) (segment.append_inside bytes)
    rw [Nat.add_assoc] at changes
    exact ⟨changes.identity_eq, changes.elsewhere⟩

/-- A segment that was emptied and, if at all, filled any number of times. -/
inductive Descends (mayFill : Prop) (origin : Segment) : Segment → Prop
  | same : Descends mayFill origin origin
  | cleared {segment : Segment} (descends : Descends mayFill origin segment) :
      Descends mayFill origin segment.clear
  | filled {segment : Segment} (fills : mayFill) (bytes : Bytes)
      (descends : Descends mayFill origin segment) :
      Descends mayFill origin (segment.append bytes)

namespace Descends

variable {mayFill : Prop} {origin segment : Segment}

/-- Emptying and filling reach nothing but the payload zone. -/
theorem inZone (descends : origin.Descends mayFill segment) :
    origin.ChangesWithin origin.layout.payloadStart origin.layout.payloadEnd
      segment := by
  induction descends with
  | same => exact .refl _ _ _
  | cleared _ inductionHypothesis =>
      exact ⟨inductionHypothesis.identity_eq, inductionHypothesis.elsewhere⟩
  | @filled between _ bytes _ inductionHypothesis =>
      have changes := (between.fills_append bytes).inZone
      rw [inductionHypothesis.layout_eq] at changes
      exact inductionHypothesis.trans changes

/-- Where nothing is filled no byte changes. -/
theorem buffer_eq (descends : origin.Descends mayFill segment)
    (unfilled : ¬mayFill) : segment.buffer = origin.buffer := by
  induction descends with
  | same => rfl
  | cleared _ inductionHypothesis => exact inductionHypothesis
  | filled fills _ _ _ => exact absurd fills unfilled

end Descends

/-- What is known of a segment that was moved on. Its reserves are as they
were, and so is the whole buffer where nothing is filled. -/
structure Moved (mayFill : Prop) (origin segment : Segment) : Prop where
  descends : origin.Descends mayFill segment
  inZone : origin.ChangesWithin origin.layout.payloadStart
    origin.layout.payloadEnd segment
  header_eq : segment.header = origin.header
  trailer_eq : segment.trailer = origin.trailer
  buffer_eq : ¬mayFill → segment.buffer = origin.buffer

theorem Descends.moved {mayFill : Prop} {origin segment : Segment}
    (descends : origin.Descends mayFill segment) :
    origin.Moved mayFill segment where
  descends := descends
  inZone := descends.inZone
  header_eq := descends.inZone.header_eq (Nat.le_refl _)
  trailer_eq := descends.inZone.trailer_eq (Nat.le_refl _)
  buffer_eq := descends.buffer_eq

/-! ## Writing into the reserves -/

/-- Bytes were written over the end of the header reserve and nowhere else. -/
structure Stamped (before : Segment) (bytes : Bytes) (after : Segment) :
    Prop where
  fits : bytes.length ≤ before.layout.headerReserve
  changes : before.ChangesWithin
    (before.layout.headerReserve - bytes.length)
    before.layout.headerReserve after
  header_eq : after.header =
    before.header.take (before.layout.headerReserve - bytes.length) ++ bytes

theorem stamped_of_writeHeaderEnd? {segment after : Segment}
    {bytes : Bytes} (writing : segment.writeHeaderEnd? bytes = some after) :
    segment.Stamped bytes after := by
  unfold writeHeaderEnd? at writing
  split at writing
  case isFalse => cases writing
  case isTrue fits =>
    cases writing
    rw [Layout.payloadStart] at fits
    have ends : segment.layout.headerReserve - bytes.length + bytes.length =
        segment.layout.headerReserve := Nat.sub_add_cancel fits
    refine ⟨fits, ?_, ?_⟩
    · exact (segment.changes_stamp _ _ _).mono (Nat.le_refl _)
        (Nat.le_of_eq ends)
    · have isRange : segment.layout.payloadStart ≤ segment.buffer.length := by
        have inside := segment.payload_inside
        rw [segment.length_buffer]
        omega
      have nothingBehind : segment.header.drop
          segment.layout.headerReserve = [] := by
        exact List.drop_of_length_le
          (Nat.le_of_eq segment.zoned.length_header)
      have written := Bytes.between_overwrite_of_inside isRange
        (Nat.zero_le _) (Nat.le_of_eq ends)
      rw [← header_eq_between, Nat.sub_zero] at written
      rw [header_eq_between, buffer_stamp]
      refine written.trans ?_
      rw [Bytes.overwrite, ends, nothingBehind, List.append_nil]

theorem header_writeHeader (segment : Segment) (bytes : Bytes) :
    (segment.writeHeader bytes).header =
      segment.header.overwrite 0
        (bytes.take segment.layout.headerReserve) := by
  have inside := segment.payload_inside
  rw [header_eq_between, header_eq_between, writeHeader, buffer_stamp]
  apply Bytes.between_overwrite_of_inside
  · rw [segment.length_buffer]
    exact Nat.le_trans (Nat.le_add_right _ _) inside
  · exact Nat.zero_le _
  · rw [Nat.zero_add]
    exact List.length_take_le _ _

theorem trailer_writeTrailer (segment : Segment) (bytes : Bytes) :
    (segment.writeTrailer bytes).trailer =
      segment.trailer.overwrite 0
        (bytes.take segment.layout.trailerReserve) := by
  have inside := segment.trailer_inside bytes
  rw [trailer_eq_between, trailer_eq_between, writeTrailer, buffer_stamp]
  have fromStart : segment.layout.payloadEnd - segment.layout.payloadEnd =
      0 := Nat.sub_self _
  rw [← fromStart]
  exact Bytes.between_overwrite_of_inside
    (Nat.le_of_eq segment.length_buffer.symm) (Nat.le_refl _) inside

end Segment

namespace Packet.Zone

/-- Where a zone of a segment starts. -/
def start (zone : Zone) (segment : Segment) : Nat :=
  match zone with
  | header => 0
  | payload => segment.layout.payloadStart
  | trailer => segment.layout.payloadEnd

/-- What is written into a zone stays within it. -/
theorem write_changes (zone : Zone) (segment : Segment) (bytes : Bytes) :
    segment.ChangesWithin (zone.start segment)
      (zone.start segment + zone.size segment) (zone.write segment bytes) := by
  cases zone with
  | header =>
      rw [write, Segment.writeHeader]
      apply (segment.changes_stamp _ _ _).mono (Nat.le_refl _)
      exact Nat.add_le_add_left (List.length_take_le _ _) _
  | payload =>
      rw [write, Segment.writePayload]
      apply (segment.changes_stamp _ _ _).mono (Nat.le_refl _)
      exact Nat.add_le_add_left (List.length_take_le _ _) _
  | trailer =>
      rw [write, Segment.writeTrailer]
      apply (segment.changes_stamp _ _ _).mono (Nat.le_refl _)
      exact Nat.add_le_add_left (List.length_take_le _ _) _

end Packet.Zone

end PooledPackets
