import Mathlib.Order.Bounds.Basic
import PooledPackets.Proofs.Packets.Writing

/-!
# The verdict on a configuration

A configuration is accepted if its numbers are in order and its reserves, the
header's rounded up, leave room for payload. Then the layout is the one that the
configuration describes. Otherwise it is refused, unless the reserves come to
more than a machine word holds: their sum is taken before it is compared with
the capacity of a segment, so that the largest reserves of all are not answered
with an error.
-/

namespace PooledPackets

/-- The segments for a payload are the fewest that hold it. -/
theorem Layout.isLeast_segmentsFor (layout : Layout) (len : Nat) :
    IsLeast {count | 1 ≤ count ∧ len ≤ count * layout.maxPayload}
      (layout.segmentsFor len) :=
  ⟨segmentsFor_le_iff.mp (Nat.le_refl _),
    fun _ holds => segmentsFor_le_iff.mpr holds⟩

namespace Config

variable {config : Config} {layout : Layout} {header size unit : Nat}

/-! ## Rounding up -/

theorem le_roundUp : size ≤ roundUp size unit := by
  unfold roundUp
  split
  · exact Nat.le_refl size
  · exact Nat.le_add_right size _

theorem dvd_roundUp (positive : 0 < unit) : unit ∣ roundUp size unit := by
  unfold roundUp
  split
  · rename_i whole
    exact Nat.dvd_of_mod_eq_zero whole
  · have remainder := Nat.mod_lt size positive
    have division := Nat.div_add_mod size unit
    refine ⟨size / unit + 1, ?_⟩
    rw [Nat.mul_add, Nat.mul_one]
    omega

/-- Rounding up passes no multiple. -/
theorem roundUp_le {multiple : Nat} (whole : unit ∣ multiple)
    (large : size ≤ multiple) : roundUp size unit ≤ multiple := by
  unfold roundUp
  split
  · exact large
  · rename_i broken
    obtain ⟨count, rfl⟩ := whole
    have division := Nat.div_add_mod size unit
    have fewer : size / unit < count := by
      apply Nat.div_lt_of_lt_mul
      apply Nat.lt_of_le_of_ne large
      rintro rfl
      exact broken (Nat.mul_mod_right unit count)
    have next := Nat.mul_le_mul_left unit fewer
    rw [Nat.mul_succ] at next
    omega

theorem isLeast_roundUp (positive : 0 < unit) :
    IsLeast {multiple | unit ∣ multiple ∧ size ≤ multiple}
      (roundUp size unit) :=
  ⟨⟨dvd_roundUp positive, le_roundUp⟩,
    fun _ multiple => roundUp_le multiple.1 multiple.2⟩

theorem isPowerOfTwo_iff {number : Nat} :
    isPowerOfTwo number = true ↔ ∃ power, number = 2 ^ power := by
  rw [isPowerOfTwo, Bool.and_eq_true, bne_iff_ne, beq_iff_eq]
  constructor
  · rintro ⟨_, isPower⟩
    exact ⟨_, isPower.symm⟩
  · rintro ⟨power, rfl⟩
    refine ⟨Nat.pos_iff_ne_zero.mp (Nat.two_pow_pos power), ?_⟩
    rw [Nat.log2_two_pow]
    rfl

/-! ## What is checked -/

/-- The payload of a segment starts at a multiple of this. -/
def granularity (config : Config) : Nat :=
  config.alignment.getD 1

/-- A header reserve is the configured one, rounded up as far as the alignment
asks for. -/
def RoundsTo (config : Config) (header : Nat) : Prop :=
  IsLeast {multiple | config.granularity ∣ multiple ∧
    config.headerReserve ≤ multiple} header

/-- There are segments, no more than a 16 bit word can number, and an alignment
is a power of two that divides their capacity. -/
structure Regular (config : Config) : Prop where
  count_pos : 1 ≤ config.segmentCount
  count_le : config.segmentCount ≤ 65535
  alignment_spec : ∀ alignment, config.alignment = some alignment →
    (∃ power, alignment = 2 ^ power) ∧ alignment ∣ config.segmentCapacity

/-- The remaining limits are within their bounds. -/
structure Limited (config : Config) : Prop where
  holdLimit_pos : 1 ≤ config.reassembly.holdLimit
  maxDatagrams_pos : 1 ≤ config.reassembly.maxDatagrams
  stratum_pos : 1 ≤ config.stack.sntpMinStratum
  stratum_le : config.stack.sntpMinStratum ≤ 15

theorem countError?_eq_none_iff :
    config.countError? = none ↔
      1 ≤ config.segmentCount ∧ config.segmentCount ≤ 65535 := by
  unfold countError? maxSegments
  split
  · rename_i nothing
    simp [nothing]
  · rename_i something
    split
    · rename_i tooMany
      simp [Nat.not_le_of_lt tooMany]
    · rename_i few
      simp only [true_iff]
      omega

theorem alignmentError?_eq_none_iff :
    config.alignmentError? = none ↔
      ∀ alignment, config.alignment = some alignment →
        (∃ power, alignment = 2 ^ power) ∧
          alignment ∣ config.segmentCapacity := by
  unfold alignmentError?
  cases config.alignment with
  | none => simp
  | some alignment =>
      simp only [Option.some.injEq, forall_eq', Bool.not_eq_eq_eq_not,
        Bool.not_true, Nat.dvd_iff_mod_eq_zero, ← isPowerOfTwo_iff]
      by_cases power : isPowerOfTwo alignment = true
      · by_cases divides : config.segmentCapacity % alignment = 0
        · simp [power, divides]
        · simp [power, divides]
      · simp [power]

theorem limitError?_eq_none_iff :
    config.limitError? = none ↔ config.Limited := by
  unfold limitError?
  constructor
  · intro noError
    split at noError
    · cases noError
    · rename_i someHold
      split at noError
      · cases noError
      · rename_i someDatagrams
        split at noError
        · cases noError
        · rename_i within
          exact ⟨by omega, by omega, by omega, by omega⟩
  · rintro ⟨holdLimit_pos, maxDatagrams_pos, stratum_pos, stratum_le⟩
    rw [if_neg (by omega), if_neg (by omega), if_neg (by omega)]

theorem regular_iff :
    config.Regular ↔
      config.countError? = none ∧ config.alignmentError? = none := by
  rw [countError?_eq_none_iff, alignmentError?_eq_none_iff]
  constructor
  · rintro ⟨count_pos, count_le, alignment_spec⟩
    exact ⟨⟨count_pos, count_le⟩, alignment_spec⟩
  · rintro ⟨⟨count_pos, count_le⟩, alignment_spec⟩
    exact ⟨count_pos, count_le, alignment_spec⟩

theorem refused_of_irregular (irregular : ¬config.Regular) :
    ∃ error, config.validate = .refused error := by
  rw [regular_iff] at irregular
  unfold validate
  cases isCount : config.countError? with
  | some error => exact ⟨error, rfl⟩
  | none =>
      cases isAlignment : config.alignmentError? with
      | some error => exact ⟨error, rfl⟩
      | none => exact absurd ⟨isCount, isAlignment⟩ irregular

theorem Regular.exists_roundsTo (regular : config.Regular) :
    ∃ header, config.RoundsTo header := by
  refine ⟨_, isLeast_roundUp ?_⟩
  unfold granularity
  cases isAligned : config.alignment with
  | none => exact Nat.one_pos
  | some alignment =>
      obtain ⟨⟨power, rfl⟩, _⟩ := regular.alignment_spec alignment isAligned
      exact Nat.two_pow_pos power

/-! ## The verdict -/

theorem Regular.roundedHeader?_eq (regular : config.Regular)
    (rounds : config.RoundsTo header) :
    config.roundedHeader? = some header ∨
      config.roundedHeader? = none ∧ 2 ^ 64 ≤ header := by
  unfold RoundsTo granularity at rounds
  unfold roundedHeader?
  cases isAligned : config.alignment with
  | none =>
      rw [isAligned] at rounds
      have unrounded : IsLeast {multiple | 1 ∣ multiple ∧
          config.headerReserve ≤ multiple} config.headerReserve :=
        ⟨⟨Nat.one_dvd _, Nat.le_refl _⟩, fun _ multiple => multiple.2⟩
      exact .inl (congrArg some (unrounded.unique rounds))
  | some alignment =>
      obtain ⟨⟨power, rfl⟩, _⟩ := regular.alignment_spec alignment isAligned
      rw [isAligned] at rounds
      have same := (isLeast_roundUp (Nat.two_pow_pos power)).unique rounds
      dsimp only
      rw [same]
      by_cases fits : header < 2 ^ 64
      · exact .inl (word?_of_lt fits)
      · exact .inr ⟨word?_of_ge (Nat.le_of_not_lt fits),
          Nat.le_of_not_lt fits⟩

theorem Regular.validate_eq (regular : config.Regular)
    (rounds : config.RoundsTo header) :
    config.validate =
      if 2 ^ 64 ≤ header + config.trailerReserve then .overflow
      else match config.zones header, config.limitError? with
        | .error error, _ => .refused error
        | .ok _, some error => .refused error
        | .ok layout, none => .accepted layout := by
  obtain ⟨noCountError, noAlignmentError⟩ := regular_iff.mp regular
  unfold validate
  rw [noCountError, noAlignmentError]
  dsimp only
  rcases regular.roundedHeader?_eq rounds with isHeader | ⟨noHeader, tooLarge⟩
  · rw [isHeader]
    dsimp only
    -- The zones are decided only if the sum of the reserves is a word.
    split
    · rename_i noWord
      by_cases fits : header + config.trailerReserve < 2 ^ 64
      · rw [word?_of_lt fits] at noWord
        cases noWord
      · exact (if_pos (Nat.le_of_not_lt fits)).symm
    · rename_i isWord
      by_cases fits : header + config.trailerReserve < 2 ^ 64
      · exact (if_neg (Nat.not_le_of_lt fits)).symm
      · rw [word?_of_ge (Nat.le_of_not_lt fits)] at isWord
        cases isWord
  · -- Where the rounding passes the word, the sum does so too.
    rw [noHeader, if_pos (Nat.le_add_right_of_le tooLarge)]

theorem zones_eq_ok_iff :
    config.zones header = .ok layout ↔
      layout.capacity = config.segmentCapacity ∧
        layout.headerReserve = header ∧
        layout.trailerReserve = config.trailerReserve := by
  obtain ⟨capacity, headerReserve, trailerReserve, maxPayload, fill,
    positive⟩ := layout
  unfold zones
  split
  · rename_i fits
    simp only [Except.ok.injEq, Layout.mk.injEq]
    omega
  · rename_i tooLarge
    simp only [reduceCtorEq, false_iff]
    omega

theorem zones_eq_error_of_le
    (tooLarge : config.segmentCapacity ≤ header + config.trailerReserve) :
    config.zones header = .error
      (.noPayload config.segmentCapacity header config.trailerReserve) :=
  dif_neg (Nat.not_lt_of_le tooLarge)

theorem exists_zones
    (fits : header + config.trailerReserve < config.segmentCapacity) :
    ∃ layout, config.zones header = .ok layout :=
  ⟨_, dif_pos fits⟩

theorem regular_of_accepted (accepted : config.validate = .accepted layout) :
    config.Regular := by
  by_contra irregular
  obtain ⟨error, refused⟩ := refused_of_irregular irregular
  rw [refused] at accepted
  cases accepted

theorem validate_eq_accepted_iff :
    config.validate = .accepted layout ↔
      config.Regular ∧ config.Limited ∧
        config.RoundsTo layout.headerReserve ∧
        layout.headerReserve + config.trailerReserve < 2 ^ 64 ∧
        config.zones layout.headerReserve = .ok layout := by
  constructor
  · intro accepted
    have regular := regular_of_accepted accepted
    obtain ⟨header, rounds⟩ := regular.exists_roundsTo
    rw [regular.validate_eq rounds] at accepted
    split at accepted
    · cases accepted
    · rename_i fits
      split at accepted
      · cases accepted
      · cases accepted
      · rename_i zoned noError
        cases accepted
        obtain ⟨_, rfl, _⟩ := zones_eq_ok_iff.mp zoned
        exact ⟨regular, limitError?_eq_none_iff.mp noError, rounds,
          Nat.lt_of_not_le fits, zoned⟩
  · rintro ⟨regular, limited, rounds, fits, zoned⟩
    rw [regular.validate_eq rounds, if_neg (Nat.not_le_of_lt fits), zoned,
      limitError?_eq_none_iff.mpr limited]

theorem validate_eq_overflow_iff :
    config.validate = .overflow ↔
      config.Regular ∧ ∃ header, config.RoundsTo header ∧
        2 ^ 64 ≤ header + config.trailerReserve := by
  by_cases regular : config.Regular
  · obtain ⟨header, rounds⟩ := regular.exists_roundsTo
    rw [regular.validate_eq rounds]
    constructor
    · intro overflow
      split at overflow
      · rename_i tooLarge
        exact ⟨regular, header, rounds, tooLarge⟩
      · split at overflow
        · cases overflow
        · cases overflow
        · cases overflow
    · rintro ⟨_, other, same, tooLarge⟩
      rw [rounds.unique same, if_pos tooLarge]
  · obtain ⟨error, refused⟩ := refused_of_irregular regular
    rw [refused]
    simp [regular]

/-! ## Reserves that leave no payload -/

/-- Reserves are never accepted that leave no payload. If the other numbers are
in order, they are refused with what they come to, as long as that fits a
machine word; it is exactly the reserves beyond that which overflow.

This speaks of a build that checks its arithmetic, where an overflow ends the
call. In a build without these checks the sum wraps, and reserves that wrap to
less than the capacity are accepted. -/
theorem validate_of_reserves (config : Config) :
    (config.validate = .overflow ↔
      config.Regular ∧ ∃ header, config.RoundsTo header ∧
        2 ^ 64 ≤ header + config.trailerReserve) ∧
    ∀ header, config.RoundsTo header →
      config.segmentCapacity ≤ header + config.trailerReserve →
        (∀ layout, config.validate ≠ .accepted layout) ∧
        (¬config.Regular → ∃ error, config.validate = .refused error) ∧
        (config.Regular → header + config.trailerReserve < 2 ^ 64 →
          config.validate = .refused (.noPayload config.segmentCapacity
            header config.trailerReserve)) := by
  refine ⟨validate_eq_overflow_iff, fun header rounds tooLarge =>
    ⟨fun layout accepted => ?_, refused_of_irregular,
      fun regular fits => ?_⟩⟩
  · obtain ⟨_, _, rounded, _, zoned⟩ := validate_eq_accepted_iff.mp accepted
    rw [rounded.unique rounds, zones_eq_error_of_le tooLarge] at zoned
    cases zoned
  · rw [regular.validate_eq rounds, if_neg (Nat.not_le_of_lt fits),
      zones_eq_error_of_le tooLarge]

/-- Reserves that come to the largest machine word are still refused. -/
theorem validate_of_reserves_of_full_word :
    let config : Config :=
      { headerReserve := 2 ^ 64 - 2, trailerReserve := 1 }
    config.validate = .refused (.noPayload 1536 (2 ^ 64 - 2) 1) := by
  intro config
  have rounds : config.RoundsTo (2 ^ 64 - 2) :=
    ⟨⟨Nat.one_dvd _, Nat.le_refl _⟩, fun _ multiple => multiple.2⟩
  have regular : config.Regular :=
    regular_iff.mpr ⟨by decide, by decide⟩
  exact ((validate_of_reserves config).2 _ rounds (by decide)).2.2 regular
    (by decide)

/-- Reserves that come to one byte more, and a header reserve that is too large
to be rounded up, are not refused, although all sizes are machine words. -/
theorem overflows_of_full_word :
    let summed : Config :=
      { headerReserve := 2 ^ 64 - 1, trailerReserve := 1 }
    let rounded : Config :=
      { headerReserve := 2 ^ 64 - 1, alignment := some 16 }
    (summed.headerReserve < 2 ^ 64 ∧ summed.trailerReserve < 2 ^ 64 ∧
      summed.segmentCapacity ≤
        summed.headerReserve + summed.trailerReserve ∧
      summed.validate = .overflow) ∧
    (rounded.headerReserve < 2 ^ 64 ∧ rounded.trailerReserve < 2 ^ 64 ∧
      rounded.segmentCapacity ≤
        rounded.headerReserve + rounded.trailerReserve ∧
      rounded.validate = .overflow) := by
  decide

/-! ## The layout -/

/-- Where the reserves fit a machine word, a configuration is accepted exactly
if its numbers are in order, its limits within their bounds and its reserves
leave payload, and refused with an error otherwise. The layout has the header
reserve rounded up, the zones fill the segments, the payload starts where the
alignment asks for it, and the number of segments for a payload is the least
that holds it. -/
theorem validate_exactly {config : Config}
    (fits : ∀ header, config.RoundsTo header →
      header + config.trailerReserve < 2 ^ 64) :
    ((∃ layout, config.validate = .accepted layout) ↔
      config.Regular ∧ config.Limited ∧ ∃ header, config.RoundsTo header ∧
        header + config.trailerReserve < config.segmentCapacity) ∧
    ((∃ layout, config.validate = .accepted layout) ∨
      ∃ error, config.validate = .refused error) ∧
    ∀ layout, config.validate = .accepted layout →
      config.RoundsTo layout.headerReserve ∧
      layout.capacity = config.segmentCapacity ∧
      layout.trailerReserve = config.trailerReserve ∧
      layout.headerReserve + layout.maxPayload + layout.trailerReserve =
        layout.capacity ∧
      1 ≤ layout.maxPayload ∧
      config.granularity ∣ layout.payloadStart ∧
      ∀ len, IsLeast {count | 1 ≤ count ∧ len ≤ count * layout.maxPayload}
        (layout.segmentsFor len) := by
  refine ⟨⟨?_, ?_⟩, ?_, fun layout accepted => ?_⟩
  · rintro ⟨layout, accepted⟩
    obtain ⟨regular, limited, rounds, _, zoned⟩ :=
      validate_eq_accepted_iff.mp accepted
    obtain ⟨sameCapacity, _, sameTrailer⟩ := zones_eq_ok_iff.mp zoned
    have fill := layout.zones_fill
    have positive := layout.maxPayload_pos
    exact ⟨regular, limited, _, rounds, by omega⟩
  · rintro ⟨regular, limited, header, rounds, room⟩
    obtain ⟨layout, zoned⟩ := exists_zones room
    obtain ⟨_, rfl, _⟩ := zones_eq_ok_iff.mp zoned
    exact ⟨layout, validate_eq_accepted_iff.mpr
      ⟨regular, limited, rounds, fits _ rounds, zoned⟩⟩
  · cases verdict : config.validate with
    | accepted layout => exact .inl ⟨layout, rfl⟩
    | refused error => exact .inr ⟨error, rfl⟩
    | overflow =>
        obtain ⟨_, header, rounds, tooLarge⟩ :=
          validate_eq_overflow_iff.mp verdict
        exact absurd (fits header rounds) (Nat.not_lt_of_le tooLarge)
  · obtain ⟨_, _, rounds, _, zoned⟩ := validate_eq_accepted_iff.mp accepted
    obtain ⟨sameCapacity, _, sameTrailer⟩ := zones_eq_ok_iff.mp zoned
    exact ⟨rounds, sameCapacity, sameTrailer, layout.zones_fill,
      layout.maxPayload_pos, rounds.1.1, layout.isLeast_segmentsFor⟩

/-- Segments almost as large as a machine word can tell, aligned to 4096 bytes,
whose reserves leave one byte of payload after the rounding. -/
theorem validate_exactly_of_one_byte :
    let config : Config :=
      { segmentCapacity := 2 ^ 64 - 4096, segmentCount := 65535
        headerReserve := 2 ^ 64 - 12287, trailerReserve := 4095
        alignment := some 4096
        reassembly := { holdLimit := 1, maxDatagrams := 1 }
        stack := { sntpMinStratum := 15 } }
    config.RoundsTo (2 ^ 64 - 8192) ∧
    ∃ layout, config.validate = .accepted layout ∧
      layout.payloadStart = 2 ^ 64 - 8192 ∧ layout.maxPayload = 1 ∧
      layout.segmentsFor (2 ^ 64 - 1) = 2 ^ 64 - 1 := by
  intro config
  have rounds : config.RoundsTo (2 ^ 64 - 8192) := by
    refine ⟨⟨⟨2 ^ 52 - 2, by decide⟩, by decide⟩, ?_⟩
    rintro _ ⟨⟨count, rfl⟩, large⟩
    change 2 ^ 64 - 12287 ≤ 4096 * count at large
    change 2 ^ 64 - 8192 ≤ 4096 * count
    omega
  have fits : ∀ header, config.RoundsTo header →
      header + config.trailerReserve < 2 ^ 64 := by
    intro header same
    rw [← rounds.unique same]
    decide
  obtain ⟨accepted_iff, _, describes⟩ := validate_exactly fits
  have regular : config.Regular := regular_iff.mpr ⟨by decide, by decide⟩
  have limited : config.Limited :=
    limitError?_eq_none_iff.mp (by decide)
  obtain ⟨layout, accepted⟩ :=
    accepted_iff.mpr ⟨regular, limited, _, rounds, by decide⟩
  obtain ⟨same, sameCapacity, sameTrailer, fill, _, _, least⟩ :=
    describes layout accepted
  have header_eq : layout.headerReserve = 2 ^ 64 - 8192 :=
    same.unique rounds
  have payload_eq : layout.maxPayload = 1 := by
    rw [header_eq, sameCapacity, sameTrailer] at fill
    change 2 ^ 64 - 8192 + layout.maxPayload + 4095 = 2 ^ 64 - 4096 at fill
    omega
  have needed := least (2 ^ 64 - 1)
  rw [payload_eq] at needed
  refine ⟨rounds, layout, accepted, header_eq, payload_eq,
    needed.unique ⟨⟨by decide, by decide⟩, fun count holds => ?_⟩⟩
  exact Nat.mul_one count ▸ holds.2

end Config

end PooledPackets
