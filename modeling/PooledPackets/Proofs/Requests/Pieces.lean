import PooledPackets.Proofs.Requests.Exact
import PooledPackets.Proofs.Sessions.Accounts

/-!
# Appending in pieces

Each call of append rounds what it is short of up to whole segments, and the
next one finds what is left over of them. So it does not matter how the bytes
are cut: the pieces are all taken if they are taken at once, and then nothing
shows that there were several.
-/

namespace PooledPackets

open Operation

/-- Both operations are refused, or both are done, with the same value and the
same pools. -/
def Outcome.Alike {α : Type} : Outcome α → Outcome α → Prop
  | .done value pools, .done other after =>
      value = other ∧ ∀ id, pools.get id = after.get id
  | .failed _ _, .failed _ _ => True
  | _, _ => False

namespace Outcome.Alike

variable {α : Type} {first second third : Outcome α}

theorem trans (one : first.Alike second) (other : second.Alike third) :
    first.Alike third := by
  cases first <;> cases second <;> cases third <;>
    simp_all [Alike]

theorem symm (alike : first.Alike second) : second.Alike first := by
  cases first <;> cases second <;>
    simp_all [Alike]

/-- An operation is done with the same value as one that is like it. -/
theorem of_done (alike : first.Alike second) {value : α} {pools : Pools}
    (isDone : first = .done value pools) :
    ∃ after, second = .done value after ∧
      ∀ id, pools.get id = after.get id := by
  subst isDone
  cases second with
  | done other after =>
      obtain ⟨rfl, samePools⟩ := alike
      exact ⟨after, rfl, samePools⟩
  | failed error after => exact alike.elim
  | stopped stop => exact alike.elim

end Outcome.Alike

namespace Pools.Consistent

variable {pools origin : Pools} {others : List Packet} {packet : Packet}

/-- Two pieces are appended as one, whether the pool can spare the segments for
both or not. -/
theorem append_append
    (consistent : pools.Consistent origin .never (packet :: others))
    (held : packet.chain ≠ []) (first second : Bytes) :
    ((packet.append first >>= fun longer => longer.append second)
        pools).Alike
      (packet.append (first ++ second) pools) := by
  by_cases spared : (pools.get packet.pool).Spares
      (packet.missing (pools.get packet.pool).layout first.length)
  · obtain ⟨longer, between, one, consistentLonger, grown, writing, lent⟩ :=
      consistent.append_of_spared held spared
    have samePool := grown.pool_eq
    have heldLonger := grown.held held
    have left := consistent.available_append held spared writing
    have together := packet.missing_add _ second.length left
    rw [← List.length_append] at together
    have nowThere : between.get longer.pool = (pools.get packet.pool).lend
        (packet.missing (pools.get packet.pool).layout first.length) := by
      rw [samePool, lent.here]
    rw [Operation.bind_of_done one]
    by_cases further : (between.get longer.pool).Spares
        (longer.missing (between.get longer.pool).layout second.length)
    · obtain ⟨longest, last, other, _, _, goesOn, lentMore⟩ :=
        consistentLonger.append_of_spared heldLonger further
      rw [nowThere, Pool.layout_lend] at further goesOn lentMore
      have both := Pool.spares_add.mpr ⟨spared, further⟩
      rw [← together] at both
      obtain ⟨whole, after, atOnce, _, _, written, lentAtOnce⟩ :=
        consistent.append_of_spared held both
      rw [together, List.take_add, ← Pool.free_lend,
        Packet.write_extend writing goesOn] at written
      rw [samePool] at lentMore
      rw [other, atOnce]
      refine ⟨Except.ok.inj written, fun id => ?_⟩
      rw [(lent.trans lentMore) id, lentAtOnce id, together,
        Function.comp_apply, Pool.lend_lend]
    · obtain ⟨error, last, other⟩ :=
        consistentLonger.append_of_short heldLonger further
      rw [nowThere] at further
      have tooMuch : ¬(pools.get packet.pool).Spares
          (packet.missing (pools.get packet.pool).layout
            (first ++ second).length) := by
        rw [together, Pool.spares_add]
        exact fun both => further both.2
      obtain ⟨_, after, whole⟩ := consistent.append_of_short held tooMuch
      rw [other, whole]
      trivial
  · obtain ⟨error, between, one⟩ := consistent.append_of_short held spared
    have tooMuch : ¬(pools.get packet.pool).Spares
        (packet.missing (pools.get packet.pool).layout
          (first ++ second).length) := by
      intro both
      apply spared (both.of_le (packet.missing_le_of_le _ _))
      rw [List.length_append]
      exact Nat.le_add_right _ _
    obtain ⟨_, after, whole⟩ := consistent.append_of_short held tooMuch
    rw [Operation.bind_of_failed one, whole]
    trivial

theorem append_pieces (pieces : List Bytes) :
    ∀ {packet : Packet} {pools : Pools},
      pools.Consistent origin .never (packet :: others) →
      packet.chain ≠ [] →
      (pieces.foldlM Packet.append packet pools).Alike
        (packet.append pieces.flatten pools) := by
  induction pieces with
  | nil =>
      intro packet pools _ held
      have notReleased : ¬packet.isReleased = true := by
        simpa [Packet.isReleased] using held
      have same : packet.append [] = pure packet :=
        (if_neg notReleased).trans (if_pos rfl)
      rw [List.foldlM_nil, List.flatten_nil, same]
      exact ⟨rfl, fun _ => rfl⟩
  | cons first rest inductionHypothesis =>
      intro packet pools consistent held
      rw [List.foldlM_cons, List.flatten_cons]
      refine Outcome.Alike.trans ?_
        (consistent.append_append held first rest.flatten)
      have contract := consistent.append_exactly held first
      cases one : packet.append first pools with
      | stopped stop =>
          rw [one] at contract
          exact contract.elim
      | failed error between =>
          rw [Operation.bind_of_failed one, Operation.bind_of_failed one]
          trivial
      | done longer between =>
          rw [one] at contract
          obtain ⟨consistentLonger, grown, _⟩ := contract
          rw [Operation.bind_of_done one, Operation.bind_of_done one]
          exact inductionHypothesis consistentLonger (grown.held held)

end Pools.Consistent

namespace Session

variable {configs : List Config} {session : Session} {packet : Packet}

/-- However bytes are cut, appending the pieces to a packet comes to the same
as appending all of them at once; and the pool that can spare the segments for
all of them takes the pieces. -/
theorem Reached.append_pieces_alike (reached : session.Reached configs)
    (isLive : packet ∈ session.live) (held : packet.isReleased = false)
    (pieces : List Bytes) :
    (pieces.foldlM Packet.append packet session.pools).Alike
        (packet.append pieces.flatten session.pools) ∧
      ((session.pools.get packet.pool).Spares
          (packet.missing (session.pools.get packet.pool).layout
            pieces.flatten.length) →
        ∃ longer after,
          pieces.foldlM Packet.append packet session.pools =
            .done longer after ∧
          longer.toBytes = packet.toBytes ++ pieces.flatten) := by
  have consistent := reached.consistent isLive
  have notEmpty : packet.chain ≠ [] := by
    simpa [Packet.isReleased] using held
  have alike := consistent.append_pieces pieces notEmpty
  refine ⟨alike, fun spared => ?_⟩
  obtain ⟨whole, last, atOnce, _, grown, _⟩ :=
    consistent.append_of_spared notEmpty spared
  obtain ⟨after, inPieces, _⟩ := alike.symm.of_done atOnce
  exact ⟨whole, after, inPieces, grown.spelled rfl⟩

/-- Seven bytes behind three others, in segments of four: the first piece ends
in the middle of a segment, the second one is empty, and the third one takes a
further segment. -/
theorem append_pieces_alike_of_three :
    let config : Config :=
      { segmentCapacity := 4, segmentCount := 3, headerReserve := 0 }
    let pieces : List Bytes := [[4, 5], [], [6, 7, 8, 9, 10]]
    ∃ (session : Session) (packet longer : Packet) (after last : Pools),
      session.Reached [config] ∧ packet ∈ session.live ∧
      packet.isReleased = false ∧
      pieces.foldlM Packet.append packet session.pools =
        .done longer after ∧
      packet.append [4, 5, 6, 7, 8, 9, 10] session.pools =
        .done longer last ∧
      longer.toBytes = [1, 2, 3, 4, 5, 6, 7, 8, 9, 10] ∧
      ∀ id, after.get id = last.get id := by
  intro config pieces
  have plays : (do
      let session ← ((start (Pools.ofConfigs [config])).runAll
        [.newPool, .packetFrom 0 [1, 2, 3] 0]).toOption
      let packet ← session.packets.get? 0
      let longer ← (pieces.foldlM Packet.append packet session.pools).done?
      pure (decide (packet ∈ session.live ∧ packet.isReleased = false ∧
        longer.1.toBytes = [1, 2, 3, 4, 5, 6, 7, 8, 9, 10]))) =
      some true := by
    decide +kernel
  obtain ⟨session, ran, plays⟩ := Option.bind_eq_some_iff.mp plays
  obtain ⟨packet, _, plays⟩ := Option.bind_eq_some_iff.mp plays
  obtain ⟨⟨longer, after⟩, inPieces, plays⟩ :=
    Option.bind_eq_some_iff.mp plays
  rw [toOption_eq_some_iff] at ran
  rw [Outcome.done?_eq_some_iff] at inPieces
  obtain ⟨isLive, held, spelled⟩ :=
    of_decide_eq_true (Option.some.inj plays)
  have reached : session.Reached [config] := ⟨by decide, _, by decide, ran⟩
  have alike := (reached.append_pieces_alike isLive held pieces).1
  obtain ⟨last, atOnce, samePools⟩ := alike.of_done inPieces
  exact ⟨session, packet, longer, after, last, reached, isLive, held,
    inPieces, atOnce, spelled, samePools⟩

end Session

end PooledPackets
