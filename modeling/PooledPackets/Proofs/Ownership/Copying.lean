import PooledPackets.Proofs.Ownership.Joining
import PooledPackets.Proofs.Reassembly.Decisions

/-!
# Copying within a pool that does not chain

Whether fragments of such a pool can be joined depends on the first of them
and on the pieces of payload behind it. The answer, down to the error, is
written down here without any operation on the pools.
-/

namespace PooledPackets

open Operation

/-! ## Room behind a packet -/

/-- What decides whether bytes can be added to a packet that must not get
another segment. -/
structure Gauge where
  released : Bool
  length : Nat
  room : Nat

namespace Gauge

/-- The gauge once so many bytes have been added. -/
def filled (gauge : Gauge) (count : Nat) : Gauge :=
  { gauge with length := gauge.length + count, room := gauge.room - count }

/-- Why bytes cannot be added, if segments hold at most `limit` bytes. -/
def refusal? (gauge : Gauge) (limit count : Nat) : Option BufferError :=
  if gauge.released then some .released
  else if count ≤ gauge.room then none
  else some (.oversizedPacket (gauge.length + count) limit)

/-- Why byte strings cannot be added one after the other. -/
def firstRefusal? (gauge : Gauge) (limit : Nat) :
    List Bytes → Option BufferError
  | [] => none
  | piece :: rest =>
      match gauge.refusal? limit piece.length with
      | some error => some error
      | none => (gauge.filled piece.length).firstRefusal? limit rest

theorem filled_filled (gauge : Gauge) (first second : Nat) :
    (gauge.filled first).filled second = gauge.filled (first + second) := by
  simp only [filled, Nat.add_assoc, Nat.sub_sub]

@[simp]
theorem filled_zero (gauge : Gauge) : gauge.filled 0 = gauge := rfl

theorem firstRefusal?_append (limit : Nat) :
    ∀ (front behind : List Bytes) (gauge : Gauge),
      gauge.firstRefusal? limit (front ++ behind) =
        match gauge.firstRefusal? limit front with
        | some error => some error
        | none =>
            (gauge.filled front.flatten.length).firstRefusal? limit behind
  | [], _, _ => rfl
  | piece :: rest, behind, gauge => by
      simp only [List.cons_append, firstRefusal?]
      cases gauge.refusal? limit piece.length with
      | some error => rfl
      | none =>
          simp only
          rw [firstRefusal?_append limit rest behind, filled_filled,
            List.flatten_cons, List.length_append]

end Gauge

namespace Packet

def gauge (packet : Packet) : Gauge where
  released := packet.isReleased
  length := packet.length
  room := packet.available

variable {packet : Packet} {pools : Pools}

/-- A check that does not stop the run changes nothing. -/
theorem check_ends (packet : Packet) :
    (packet.check pools).Satisfies (fun _ after => after = pools)
      (fun _ _ => False) (fun _ => True) := by
  refine Outcome.Satisfies.readPool (Outcome.Satisfies.ite ?_ ?_)
  · intro _
    cases packet.disagreement? (pools.get packet.pool).layout.maxPayload with
    | none => rfl
    | some violation => trivial
  · exact fun _ => rfl

/-- Without chaining there is room only if there was. -/
theorem makeRoom_unchained
    (unchained : (pools.get packet.pool).config.chaining = false)
    (count : Nat) :
    (packet.makeRoom count pools).Satisfies
      (fun roomy _ => roomy = packet ∧ count ≤ packet.available)
      (fun error _ => packet.available < count ∧
        error = .oversizedPacket (packet.length + count)
          (pools.get packet.pool).layout.maxPayload)
      (fun _ => True) := by
  refine Outcome.Satisfies.ite ?_ ?_
  · exact fun fits => Outcome.Satisfies.pure ⟨rfl, fits⟩
  · intro short
    apply Outcome.Satisfies.readPool
    rw [unchained]
    exact ⟨Nat.lt_of_not_le short, rfl⟩

theorem Sound.gauge_of_write (sound : packet.Sound)
    (held : packet.chain ≠ []) {bytes : Bytes} (nonempty : bytes ≠ [])
    (fits : bytes.length ≤ packet.available) :
    ∃ written, packet.write bytes = .ok written ∧
      written.gauge = packet.gauge.filled bytes.length := by
  obtain ⟨written, writing, soundWritten, spelled, room⟩ :=
    sound.write_fits held nonempty fits
  have sameLength := congrArg List.length (write_keeps writing).1
  rw [List.length_map, List.length_map] at sameLength
  have counted := congrArg List.length spelled
  rw [List.length_append, soundWritten.length_toBytes,
    sound.length_toBytes] at counted
  have heldWritten : written.chain ≠ [] := by
    intro nothing
    rw [nothing, List.length_nil] at sameLength
    exact held (List.length_eq_zero_iff.mp sameLength.symm)
  refine ⟨written, writing, ?_⟩
  rw [gauge, gauge, Gauge.filled, isReleased, isReleased,
    List.isEmpty_eq_false_iff.mpr heldWritten,
    List.isEmpty_eq_false_iff.mpr held, counted, ← room,
    Nat.add_sub_cancel]

/-- Without chaining, bytes are added exactly if the gauge says so. -/
theorem Sound.append_gauged (sound : packet.Sound)
    (unchained : (pools.get packet.pool).config.chaining = false)
    (bytes : Bytes) :
    (packet.append bytes pools).Satisfies
      (fun longer _ => longer.gauge = packet.gauge.filled bytes.length ∧
        packet.gauge.refusal? (pools.get packet.pool).layout.maxPayload
          bytes.length = none)
      (fun error _ => packet.gauge.refusal?
        (pools.get packet.pool).layout.maxPayload bytes.length = some error)
      (fun _ => True) := by
  refine Outcome.Satisfies.ite ?_ ?_
  · intro released
    apply Outcome.Satisfies.fail
    simp [Gauge.refusal?, gauge, released]
  · intro notReleased
    have held : packet.chain ≠ [] := by
      simpa [isReleased] using notReleased
    refine Outcome.Satisfies.ite ?_ ?_
    · intro nothing
      rw [List.isEmpty_iff] at nothing
      subst nothing
      apply Outcome.Satisfies.pure
      simp [Gauge.refusal?, gauge, notReleased]
    · intro something
      refine Outcome.Satisfies.bind
        ((makeRoom_unchained unchained bytes.length).monoRefused ?_) ?_
      · rintro _ _ ⟨short, rfl⟩
        simp [Gauge.refusal?, gauge, notReleased, Nat.not_le_of_lt short]
      · rintro _ _ ⟨rfl, fits⟩
        obtain ⟨written, writing, sameGauge⟩ := sound.gauge_of_write held
          (by simpa using something) fits
        simp only [writing]
        apply Outcome.Satisfies.bind written.check_ends.neverRefused
        intro _ _ _
        apply Outcome.Satisfies.pure
        exact ⟨sameGauge, by simp [Gauge.refusal?, gauge, notReleased, fits]⟩

end Packet

/-! ## Copying fragments -/

namespace Reassembly

/-- Why fragments of one pool cannot be joined there. -/
def refusal? (chaining : Bool) (limit : Nat) :
    List Packet → Option BufferError
  | [] => none
  | first :: rest =>
      if chaining then none
      else first.gauge.firstRefusal? limit (rest.flatMap Packet.chunks)

end Reassembly

namespace Pools.Consistent

variable {pools origin : Pools} {id : PoolId}
variable {others fragments : List Packet} {packet : Packet}

theorem appendAll_gauged {inHand : Packet → List Packet}
    (extra : List Packet)
    (owns : ∀ packet, (inHand packet).Perm (packet :: extra)) :
    ∀ (pieces : List Bytes) {packet : Packet} {pools : Pools},
      pools.Consistent origin .never (packet :: (extra ++ others)) →
      (origin.get packet.pool).config.chaining = false →
      (packet.appendAll inHand pieces pools).Satisfies
        (fun longer after =>
          after.Consistent origin .never (longer :: (extra ++ others)) ∧
          longer.pool = packet.pool ∧
          longer.gauge = packet.gauge.filled pieces.flatten.length ∧
          packet.gauge.firstRefusal?
            (origin.get packet.pool).layout.maxPayload pieces = none)
        (fun error _ => packet.gauge.firstRefusal?
          (origin.get packet.pool).layout.maxPayload pieces = some error)
        (fun _ => True)
  | [], packet, _, consistent, _ => ⟨consistent, rfl, rfl, rfl⟩
  | bytes :: rest, packet, pools, consistent, unchained => by
      have accounts := consistent.balanced.accounts packet.pool
      have sound : packet.Sound :=
        consistent.kept packet (List.mem_cons_self ..)
      rw [← accounts.config_eq] at unchained
      have gauged := sound.append_gauged unchained bytes
      rw [accounts.layout_eq] at gauged
      have appended := (consistent.append_satisfies bytes).and gauged
      refine Outcome.Satisfies.bind (Outcome.Satisfies.onFailure
        ((appended.mono (fun _ _ known => known) (fun _ _ known => known)
          (fun _ _ => trivial)).holding fun _ _ _ => trivial) ?_) ?_
      · rintro error after ⟨_, refused⟩
        have whole : packet.gauge.firstRefusal?
            (origin.get packet.pool).layout.maxPayload (bytes :: rest) =
              some error := by
          simp only [Gauge.firstRefusal?, refused]
        apply (Packet.dropAll_returns (inHand packet) after).mono
        · exact fun _ _ _ => whole
        · exact fun _ _ impossible => impossible.elim
        · exact fun _ _ => trivial
      · rintro longer after ⟨⟨consistentLonger, grown⟩, sameGauge, fits⟩
        have samePool := grown.pool_eq
        rw [accounts.config_eq, ← samePool] at unchained
        have further :=
          appendAll_gauged extra owns rest consistentLonger unchained
        rw [samePool, sameGauge] at further
        apply further.mono
        · rintro longest last ⟨consistentLast, lastPool, lastGauge, noMore⟩
          refine ⟨consistentLast, lastPool, ?_, ?_⟩
          · rw [lastGauge, Gauge.filled_filled, List.flatten_cons,
              List.length_append]
          · simp only [Gauge.firstRefusal?, fits, noMore]
        · intro error _ refused
          simp only [Gauge.firstRefusal?, fits, refused]
        · exact fun _ known => known

theorem copyInto_gauged :
    ∀ {fragments : List Packet} {packet : Packet} {pools : Pools},
      pools.Consistent origin .never (packet :: (fragments ++ others)) →
      (origin.get packet.pool).config.chaining = false →
      (Reassembly.copyInto packet fragments pools).Satisfies
        (fun _ _ => packet.gauge.firstRefusal?
          (origin.get packet.pool).layout.maxPayload
            (fragments.flatMap Packet.chunks) = none)
        (fun error _ => packet.gauge.firstRefusal?
          (origin.get packet.pool).layout.maxPayload
            (fragments.flatMap Packet.chunks) = some error)
        (fun _ => True)
  | [], _, _, _, _ => rfl
  | fragment :: rest, packet, pools, consistent, unchained => by
      have inHand : ∀ packet : Packet,
          (fragment :: rest ++ [packet]).Perm
            (packet :: (fragment :: rest)) :=
        fun packet => List.perm_append_comm
      simp only [List.flatMap_cons, Gauge.firstRefusal?_append]
      refine Outcome.Satisfies.bind ((appendAll_gauged (fragment :: rest)
        inHand fragment.chunks consistent unchained).monoRefused ?_) ?_
      · intro error _ refused
        simp only [refused]
      · rintro longer after
          ⟨consistentLonger, samePool, sameGauge, fits⟩
        simp only [fits]
        rw [← samePool] at unchained ⊢
        rw [← sameGauge]
        have dropped := consistentLonger.dropCopied_satisfies
        apply Outcome.Satisfies.bind (dropped.neverRefused.mono
          (fun _ _ known => known) (fun _ _ known => known)
          (fun _ _ => trivial))
        intro _ last consistentDropped
        exact copyInto_gauged consistentDropped unchained

/-- Whether a datagram of the pool's own fragments can be joined depends on
nothing but these fragments. -/
theorem join_gauged {assembly : Assembly}
    (consistent : pools.Consistent origin .never
      (assembly.fragments ++ others))
    (own : ∀ fragment ∈ assembly.fragments, fragment.pool = id)
    (nonempty : assembly.fragments ≠ []) :
    (Reassembly.join id assembly pools).Satisfies
      (fun _ _ => Reassembly.refusal? (origin.get id).config.chaining
        (origin.get id).layout.maxPayload assembly.fragments = none)
      (fun error _ => Reassembly.refusal? (origin.get id).config.chaining
        (origin.get id).layout.maxPayload assembly.fragments = some error)
      (fun _ => True) := by
  have isOwn : assembly.fragments.all (fun fragment => fragment.pool == id) =
      true := by
    rw [List.all_eq_true]
    intro fragment member
    simpa using own fragment member
  obtain ⟨first, rest, isCons⟩ := List.exists_cons_of_ne_nil nonempty
  rw [isCons] at consistent isOwn own
  -- Either way a joined datagram is counted, which is never refused.
  have counting : ∀ {decision : Option BufferError} (packet : Packet)
      (after : Pools), decision = none →
      (((Operation.count id fun counters =>
          { counters with reassembled := counters.reassembled + 1 }) >>=
        fun _ => (pure packet : Operation Packet)) after).Satisfies
          (fun _ _ => decision = none) (fun error _ => decision = some error)
          (fun _ => True) :=
    fun _ _ known => known
  apply Outcome.Satisfies.namesakes_of_distinct consistent.balanced.distinct
  apply Outcome.Satisfies.readPool
  rw [(consistent.balanced.accounts id).config_eq, isCons, isOwn,
    Bool.and_true]
  simp only [Reassembly.refusal?]
  cases chaining : (origin.get id).config.chaining with
  | true =>
      apply Outcome.Satisfies.bind ((consistent.splice_satisfies own).mono
        (fun _ _ _ => trivial) (fun _ _ impossible => impossible.elim)
        (fun _ _ => trivial))
      exact fun packet after _ => counting packet after rfl
  | false =>
      have ownFirst := own first (List.mem_cons_self ..)
      have copied := (consistent.withTag none).copyInto_gauged
        (by rw [← chaining, ← ownFirst]; rfl)
      rw [show (first.withTag none).pool = id from ownFirst] at copied
      apply Outcome.Satisfies.bind copied
      exact fun packet after fits => counting packet after fits

end Pools.Consistent

end PooledPackets
