import PooledPackets.Proofs.Packets.Soundness

/-!
# Writing in pieces

Bytes that are written one piece after the other, with further segments added
to the chain in between, come to lie where they would lie had they been
written at once.
-/

namespace PooledPackets

/-! ## Portions -/

namespace Layout

variable {len count portion : Nat}

theorem lt_portions_iff (positive : 0 < portion) :
    count < portions len portion ↔ count * portion < len := by
  rw [portions, ← Nat.succ_le_iff, Nat.le_div_iff_mul_le positive,
    Nat.succ_mul]
  omega

theorem portions_le_iff (positive : 0 < portion) :
    portions len portion ≤ count ↔ len ≤ count * portion := by
  rw [← Nat.not_lt, lt_portions_iff positive, Nat.not_lt]

theorem segmentsFor_le_iff {layout : Layout} :
    layout.segmentsFor len ≤ count ↔
      0 < count ∧ len ≤ count * layout.maxPayload := by
  rw [segmentsFor, Nat.max_le, portions_le_iff layout.maxPayload_pos,
    Nat.succ_le_iff, and_comm]

theorem portions_eq_zero_iff (positive : 0 < portion) :
    portions len portion = 0 ↔ len = 0 := by
  rw [← Nat.le_zero, portions_le_iff positive, Nat.zero_mul, Nat.le_zero]

/-- What two requests need one after the other they need together: the second
one begins with what the first one has left over of its last portion. -/
theorem portions_add_sub (positive : 0 < portion) (first second room : Nat) :
    portions (first + second - room) portion =
      portions (first - room) portion +
        portions (second - (room +
          portions (first - room) portion * portion - first)) portion := by
  rcases Nat.le_total first room with fits | tooMuch
  · have nothing : first - room = 0 := Nat.sub_eq_zero_of_le fits
    have noPortion := (portions_eq_zero_iff positive).mpr nothing
    have left : first + second - room = second - (room - first) := by omega
    rw [noPortion, left, Nat.zero_mul, Nat.add_zero, Nat.zero_add]
  · have covers := @le_portions_mul (first - room) portion positive
    apply Nat.le_antisymm
    · have enough := @le_portions_mul (second - (room +
        portions (first - room) portion * portion - first)) portion positive
      rw [portions_le_iff positive, Nat.add_mul]
      omega
    · have enough := @le_portions_mul (first + second - room) portion
        positive
      have fewer : portions (first - room) portion ≤
          portions (first + second - room) portion := by
        rw [portions_le_iff positive]
        omega
      have later : portions (second - (room +
          portions (first - room) portion * portion - first)) portion ≤
            portions (first + second - room) portion -
              portions (first - room) portion := by
        rw [portions_le_iff positive, Nat.sub_mul]
        omega
      omega

end Layout

/-! ## One segment -/

namespace Bytes

theorem padded_of_le {bytes : Bytes} {size : Nat}
    (long : size ≤ bytes.length) : bytes.padded size = bytes := by
  rw [padded, Nat.sub_eq_zero_of_le long, List.replicate_zero,
    List.append_nil]

theorem overwrite_overwrite {buffer : Bytes} {position : Nat}
    (inside : position ≤ buffer.length) (first second : Bytes) :
    (buffer.overwrite position first).overwrite (position + first.length)
        second =
      buffer.overwrite position (first ++ second) := by
  have front : (buffer.take position ++ first).length =
      position + first.length := by
    rw [List.length_append, List.length_take_of_le inside]
  simp only [overwrite]
  rw [List.take_left' front, ← front, List.drop_length_add_append, front,
    List.drop_drop, List.length_append, ← Nat.add_assoc,
    ← List.append_assoc _ first]

/-- What is written behind bytes just written could have been written with
them. -/
theorem write_write (written first second : Bytes) (position : Nat) :
    (written.write position first).write (position + first.length) second =
      written.write position (first ++ second) := by
  by_cases noFirst : first = []
  · simp [noFirst, write]
  · by_cases noSecond : second = []
    · simp [noSecond, write]
    · have inside : position ≤ (written.padded position).length := by
        rw [length_padded]
        omega
      have reaches : position + first.length ≤
          ((written.padded position).overwrite position first).length := by
        simp only [overwrite, List.length_append, List.length_take]
        omega
      simp only [write, List.isEmpty_iff, List.append_eq_nil_iff, noFirst,
        noSecond, false_and, if_false]
      rw [padded_of_le reaches, overwrite_overwrite inside]

end Bytes

namespace Segment

@[simp]
theorem append_nil (segment : Segment) : segment.append [] = segment := by
  simp [append, stamp, Bytes.write]

theorem eq_of_contents {segment other : Segment}
    (sameIdentity : segment.identity = other.identity)
    (sameWritten : segment.written = other.written)
    (sameLength : segment.length = other.length) : segment = other := by
  cases segment
  cases other
  simp_all [identity]

/-- Bytes beyond those that fit do not matter. -/
theorem append_congr {segment : Segment} {first second : Bytes}
    (same : first.take segment.remaining = second.take segment.remaining) :
    segment.append first = segment.append second := by
  simp only [append, same]

/-- A segment that takes bytes in two pieces takes as many of them, and puts
them in the same places. -/
theorem append_append (segment : Segment) (first second : Bytes) :
    (segment.append first).append second =
      segment.append (first ++ second) := by
  have fitting : (first ++ second).take segment.remaining =
      first.take segment.remaining ++
        second.take (segment.append first).remaining := by
    rw [remaining_append, List.take_append]
  apply eq_of_contents
  · simp only [identity_append]
  · have together := Bytes.write_write segment.written
      (first.take segment.remaining)
      (second.take (segment.append first).remaining)
      (segment.layout.payloadStart + segment.length)
    rw [← fitting, Nat.add_assoc] at together
    exact together
  · rw [length_append, length_append, length_append, remaining_append,
      List.length_append]
    omega

end Segment

/-! ## A chain -/

namespace Packet

theorem fill_nil {segments : List Segment} (held : segments ≠ []) :
    fill segments [] = some (segments, 0) := by
  cases segments with
  | nil => exact absurd rfl held
  | cons segment rest => simp [fill]

theorem fill_passed :
    ∀ {segments filled : List Segment} {bytes : Bytes} {passed : Nat},
      fill segments bytes = some (filled, passed) → passed < filled.length
  | [], _, _, _, filling => by
      simp [fill] at filling
  | segment :: rest, filled, bytes, passed, filling => by
      rw [fill] at filling
      split at filling
      · cases filling
        exact Nat.zero_lt_succ _
      · obtain ⟨⟨others, further⟩, restFilling, same⟩ :=
          Option.map_eq_some_iff.mp filling
        cases same
        exact Nat.succ_lt_succ (fill_passed restFilling)

/-- Filling goes on in the segment reached last. -/
theorem fill_append :
    ∀ {segments filled : List Segment} {first : Bytes} {passed : Nat},
      fill segments first = some (filled, passed) →
      ∀ (more : List Segment) (second : Bytes),
        fill (segments ++ more) (first ++ second) =
          (fill (filled.drop passed ++ more) second).map
            fun (others, further) =>
              (filled.take passed ++ others, passed + further)
  | [], _, _, _, filling => by
      simp [fill] at filling
  | segment :: rest, filled, first, passed, filling => by
      intro more second
      rw [fill] at filling
      by_cases done : (first.drop segment.remaining).isEmpty
      · rw [if_pos done] at filling
        cases filling
        have left : (first ++ second).drop segment.remaining =
            second.drop (segment.append first).remaining := by
          rw [Segment.remaining_append, List.drop_append,
            List.isEmpty_iff.mp done, List.nil_append]
        simp only [List.take_zero, List.drop_zero, List.nil_append,
          Nat.zero_add, List.cons_append, fill, left,
          Segment.append_append, Option.map_id']
      · rw [if_neg done] at filling
        obtain ⟨⟨others, further⟩, restFilling, same⟩ :=
          Option.map_eq_some_iff.mp filling
        cases same
        have tooLong : segment.remaining < first.length := by
          simpa using done
        have head : segment.append (first ++ second) =
            segment.append first := by
          apply Segment.append_congr
          rw [List.take_append_of_le_length (Nat.le_of_lt tooLong)]
        have left : (first ++ second).drop segment.remaining =
            first.drop segment.remaining ++ second :=
          List.drop_append_of_le_length (Nat.le_of_lt tooLong)
        have leftOver : ¬(first.drop segment.remaining ++
            second).isEmpty := by
          simp only [List.isEmpty_iff, List.append_eq_nil_iff] at done ⊢
          exact fun nothing => done nothing.1
        rw [List.cons_append, fill, left, if_neg leftOver, head,
          fill_append restFilling more second, Option.map_map]
        simp only [List.take_succ_cons, List.drop_succ_cons]
        congr 1
        funext result
        simp only [Function.comp_apply, List.cons_append, Nat.add_right_comm]

/-- Nothing is written into a packet by writing nothing. -/
theorem Sound.write_nil {packet : Packet} (sound : packet.Sound)
    (held : packet.chain ≠ []) : packet.write [] = .ok packet := by
  have inside := sound.inside held
  have behind : packet.chain.drop packet.writeIndex ≠ [] := by
    simpa using inside
  simp only [write, if_neg (Nat.not_le_of_lt inside), fill_nil behind,
    List.take_append_drop, List.length_nil, Nat.add_zero]

theorem write_eq_ok_iff {packet written : Packet} {bytes : Bytes} :
    packet.write bytes = .ok written ↔
      packet.writeIndex < packet.chain.length ∧
      ∃ filled passed,
        fill (packet.chain.drop packet.writeIndex) bytes =
          some (filled, passed) ∧
        written = { packet with
          chain := packet.chain.take packet.writeIndex ++ filled
          writeIndex := packet.writeIndex + passed
          length := packet.length + bytes.length } := by
  by_cases outside : packet.chain.length ≤ packet.writeIndex
  · simp only [write, if_pos outside, reduceCtorEq, false_iff]
    exact fun given => absurd outside (Nat.not_le_of_lt given.1)
  · have inside := Nat.lt_of_not_le outside
    simp only [write, if_neg outside, inside, true_and]
    cases filling : fill (packet.chain.drop packet.writeIndex) bytes with
    | none => simp
    | some result =>
        obtain ⟨filled, passed⟩ := result
        simp only [Except.ok.injEq, Option.some.injEq, Prod.mk.injEq]
        constructor
        · rintro rfl
          exact ⟨filled, passed, ⟨rfl, rfl⟩, rfl⟩
        · rintro ⟨_, _, ⟨rfl, rfl⟩, rfl⟩
          rfl

/-- Bytes that are written in two pieces, the second one once there are further
segments, end up where they would if all segments had been there from the
start. -/
theorem write_extend {packet longer longest : Packet}
    {segments more : List Segment} {first second : Bytes}
    (before : (packet.extend segments).write first = .ok longer)
    (behind : (longer.extend more).write second = .ok longest) :
    (packet.extend (segments ++ more)).write (first ++ second) =
      .ok longest := by
  obtain ⟨inside, filled, passed, filling, rfl⟩ := write_eq_ok_iff.mp before
  obtain ⟨_, others, further, goesOn, rfl⟩ := write_eq_ok_iff.mp behind
  have reached := fill_passed filling
  simp only [extend] at inside filling goesOn ⊢
  have front : ((packet.chain ++ segments).take packet.writeIndex).length =
      packet.writeIndex := List.length_take_of_le (Nat.le_of_lt inside)
  have goesOnThere : ((packet.chain ++ segments).take packet.writeIndex ++
      filled ++ more).drop (packet.writeIndex + passed) =
        filled.drop passed ++ more := by
    have skipped := @List.drop_length_add_append _
      ((packet.chain ++ segments).take packet.writeIndex)
      (filled ++ more) passed
    rw [front, List.drop_append_of_le_length (Nat.le_of_lt reached)]
      at skipped
    rw [List.append_assoc]
    exact skipped
  have keeps : ((packet.chain ++ segments).take packet.writeIndex ++
      filled ++ more).take (packet.writeIndex + passed) =
        (packet.chain ++ segments).take packet.writeIndex ++
          filled.take passed := by
    have kept := @List.take_length_add_append _
      ((packet.chain ++ segments).take packet.writeIndex)
      (filled ++ more) passed
    rw [front, List.take_append_of_le_length (Nat.le_of_lt reached)] at kept
    rw [List.append_assoc]
    exact kept
  rw [goesOnThere] at goesOn
  apply write_eq_ok_iff.mpr
  refine ⟨?_, filled.take passed ++ others, passed + further, ?_, ?_⟩
  · simp only [List.length_append] at inside ⊢
    omega
  · simp only
    rw [← List.append_assoc, List.drop_append_of_le_length
      (Nat.le_of_lt inside), fill_append filling, goesOn]
    rfl
  · simp only [keeps]
    rw [← List.append_assoc packet.chain,
      List.take_append_of_le_length (Nat.le_of_lt inside)]
    simp only [List.append_assoc, List.length_append, Nat.add_assoc]

end Packet

end PooledPackets
