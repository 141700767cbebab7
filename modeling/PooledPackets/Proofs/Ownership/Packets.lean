import PooledPackets.Proofs.Ownership.Exchange

/-!
# Operations on single packets

Making a packet, adding bytes to it and giving it back, from pools that are
consistent with the live packets to pools that are consistent with the live
packets afterwards.
-/

namespace PooledPackets

open Operation

namespace Pools.Consistent

variable {pools origin : Pools} {exchange : Exchange}
variable {others : List Packet} {packet : Packet}

/-! ## Giving back -/

/-- Segments that leave their chains go back to a pool; this can only stop the
run where an exchange brought in a segment of another pool. -/
theorem checkIn_satisfies {chain : List Segment} {id : PoolId}
    (balanced : pools.Balanced origin
      (chain ++ others.flatMap Packet.chain))
    (kept : ∀ packet ∈ others, packet.Kept exchange)
    (own : exchange ≠ .freely → ∀ segment ∈ chain, segment.pool = id) :
    (Pool.checkIn id (Returned.unlinked chain) pools).Satisfies
      (fun _ after => after.Consistent origin exchange others)
      (fun _ _ => False) exchange.MayStopReturns := by
  apply (Pool.checkIn_satisfies balanced id).mono
  · intro _ after ending
    exact ⟨ending.1, kept⟩
  · exact fun _ _ impossible => impossible
  · exact Exchange.mayStopReturns_of_foreign own

theorem giveBack_satisfies
    (consistent : pools.Consistent origin exchange (packet :: others)) :
    (packet.giveBack pools).Satisfies
      (fun _ after => after.Consistent origin exchange others)
      (fun _ _ => False) exchange.MayStopReturns := by
  have kept := consistent.kept packet (List.mem_cons_self ..)
  have balanced : pools.Balanced origin
      (packet.chain ++ others.flatMap Packet.chain) := by
    simpa using consistent.balanced
  have keptOthers : ∀ other ∈ others, other.Kept exchange :=
    fun other member => consistent.kept other (.tail _ member)
  apply Outcome.Satisfies.bind
    (checkIn_satisfies balanced keptOthers kept.own)
  intro _ after consistentAfter
  exact consistentAfter.count_satisfies _ _

theorem drop_satisfies
    (consistent : pools.Consistent origin exchange (packet :: others)) :
    (packet.drop pools).Satisfies
      (fun _ after => after.Consistent origin exchange others)
      (fun _ _ => False) exchange.MayStopReturns := by
  unfold Packet.drop
  split
  · rename_i released
    exact ((cons_iff_of_released (List.isEmpty_iff.mp released)).mp
      consistent).1
  · exact consistent.giveBack_satisfies

theorem dropAll_satisfies :
    ∀ {packets : List Packet} {pools : Pools},
      pools.Consistent origin exchange (packets ++ others) →
        (Packet.dropAll packets pools).Satisfies
          (fun _ after => after.Consistent origin exchange others)
          (fun _ _ => False) exchange.MayStopReturns
  | [], _, consistent => consistent
  | packet :: rest, _, consistent => by
      refine Outcome.Satisfies.bind (Pools.Consistent.holding_returns ?_
        consistent.drop_satisfies) ?_
      · intro other member
        exact consistent.kept other
          (List.mem_cons_of_mem _ (List.mem_append_left _ member))
      · intro _ after consistentAfter
        exact dropAll_satisfies consistentAfter

/-- A released packet stays behind as a husk. -/
theorem release_satisfies
    (consistent : pools.Consistent origin exchange (packet :: others)) :
    (packet.release pools).Satisfies
      (fun husk after => after.Consistent origin exchange (husk :: others))
      (fun _ after => after.Consistent origin exchange (packet :: others))
      exchange.MayStop := by
  unfold Packet.release
  split
  · apply Outcome.Satisfies.bind
      (consistent.count_satisfies _ _).neverRefused
    intro _ after consistentAfter
    exact Outcome.Satisfies.fail consistentAfter
  · apply Outcome.Satisfies.bind consistent.giveBack_satisfies.returned.neverRefused
    intro _ after consistentAfter
    apply Outcome.Satisfies.pure
    exact (cons_iff_of_released rfl).mpr
      ⟨consistentAfter, Packet.kept_husk exchange packet⟩

/-! ## Adding bytes -/

theorem room_of_fresh {segments : List Segment} {layout : Layout}
    (fresh : ∀ segment ∈ segments,
      segment.length = 0 ∧ segment.layout = layout) :
    (segments.map Segment.remaining).sum =
      segments.length * layout.maxPayload := by
  induction segments with
  | nil => simp
  | cons segment rest inductionHypothesis =>
      obtain ⟨empty, laidOut⟩ := fresh segment (List.mem_cons_self ..)
      have restRoom := inductionHypothesis
        (fun other member => fresh other (.tail _ member))
      have room : segment.remaining = layout.maxPayload := by
        simp [Segment.remaining, empty, laidOut]
      simp only [List.map_cons, List.sum_cons, List.length_cons, room,
        restRoom, Nat.succ_mul]
      omega

/-- Making room for bytes adds empty segments if the chain is too short. -/
theorem makeRoom_satisfies
    (consistent : pools.Consistent origin exchange (packet :: others))
    (held : packet.chain ≠ []) (count : Nat) :
    (packet.makeRoom count pools).Satisfies
      (fun roomy after =>
        after.Consistent origin exchange (roomy :: others) ∧
        packet.Grown exchange roomy [] ∧
        (exchange = .never → count ≤ roomy.available))
      (fun _ after => after.Consistent origin exchange (packet :: others) ∧
        packet.available < count)
      exchange.MayStop := by
  unfold Packet.makeRoom
  split
  · rename_i fits
    exact Outcome.Satisfies.pure
      ⟨consistent, .refl exchange packet, fun _ => fits⟩
  · rename_i tooMuch
    have short : packet.available < count := Nat.lt_of_not_le tooMuch
    apply Outcome.Satisfies.readPool
    split
    · refine Outcome.Satisfies.bind
        ((Pool.checkOut_satisfies consistent.balanced _ _).monoRefused ?_) ?_
      · intro _ after ending
        exact ⟨⟨ending.1, consistent.kept⟩, short⟩
      · intro segments after ending
        obtain ⟨balanced, counted, fresh⟩ := ending
        have kept := consistent.kept packet (List.mem_cons_self ..)
        have keptLonger := kept.extend held fun segment isNew =>
          ⟨(fresh segment isNew).1, (fresh segment isNew).2.1⟩
        have grown := kept.grown_extend held fun segment isNew =>
          (fresh segment isNew).2.1
        refine Outcome.Satisfies.pure ⟨⟨?_, ?_⟩, grown, ?_⟩
        · apply balanced.perm
          simp only [List.flatMap_cons, Packet.extend, List.append_assoc]
          exact List.perm_append_comm_assoc ..
        · intro other member
          rcases List.mem_cons.mp member with rfl | inOthers
          · exact keptLonger
          · exact consistent.kept other (.tail _ inOthers)
        · intro intact
          subst intact
          have layout := (consistent.balanced.accounts packet.pool).layout_eq
          have room := room_of_fresh fun segment isNew =>
            ⟨(fresh segment isNew).2.1, (fresh segment isNew).2.2⟩
          have enough := @Layout.le_portions_mul (count - packet.available)
            _ (pools.get packet.pool).layout.maxPayload_pos
          rw [Packet.Sound.available_extend kept held, room, counted,
            ← layout]
          omega
    · apply Outcome.Satisfies.bind
        (consistent.count_satisfies _ _).neverRefused
      intro _ after consistentAfter
      exact Outcome.Satisfies.fail ⟨consistentAfter, short⟩

/-- Appending either adds the bytes behind the payload or leaves the packet as
it was, which without an exchange happens only if they do not fit. -/
theorem append_satisfies
    (consistent : pools.Consistent origin exchange (packet :: others))
    (bytes : Bytes) :
    (packet.append bytes pools).Satisfies
      (fun longer after =>
        after.Consistent origin exchange (longer :: others) ∧
        packet.Grown exchange longer bytes)
      (fun _ after => after.Consistent origin exchange (packet :: others) ∧
        (packet.chain = [] ∨ packet.available < bytes.length))
      exchange.MayStop := by
  unfold Packet.append
  split
  · rename_i released
    exact Outcome.Satisfies.fail
      ⟨consistent, Or.inl (List.isEmpty_iff.mp released)⟩
  · rename_i notReleased
    have held : packet.chain ≠ [] := by
      simpa [Packet.isReleased] using notReleased
    split
    · rename_i nothing
      rw [List.isEmpty_iff.mp nothing]
      exact Outcome.Satisfies.pure ⟨consistent, .refl exchange packet⟩
    · rename_i something
      have nonempty : bytes ≠ [] := by simpa using something
      have roomMade := consistent.makeRoom_satisfies held bytes.length
      apply Outcome.Satisfies.bind
        (roomMade.monoRefused fun _ _ known => ⟨known.1, Or.inr known.2⟩)
      intro roomy after ending
      obtain ⟨consistentRoomy, grown, fits⟩ := ending
      have heldRoomy := grown.held held
      have kept := consistentRoomy.kept roomy (List.mem_cons_self ..)
      cases writing : roomy.write bytes with
      | error violation =>
          exact kept.mayStop_of_write_error heldRoomy nonempty fits writing _
      | ok written =>
          obtain ⟨keptWritten, further⟩ :=
            kept.write heldRoomy nonempty fits writing
          have consistentWritten :
              after.Consistent origin exchange (written :: others) := by
            refine Pools.Consistent.replace [roomy] [written]
              consistentRoomy ?_ ?_
            · simp [(Packet.write_keeps writing).1]
            · simpa using keptWritten
          have checked :=
            consistentWritten.check_satisfies (List.mem_cons_self ..)
          apply Outcome.Satisfies.bind checked.neverRefused
          intro _ _ unchanged
          subst unchanged
          exact Outcome.Satisfies.pure
            ⟨consistentWritten, grown.trans further⟩

/-! ## Writing over the zones -/

theorem writeZone
    (consistent : pools.Consistent origin exchange (packet :: others))
    (zone : Packet.Zone) (only : Option Nat) (bytes : Bytes) :
    pools.Consistent origin exchange
      (packet.writeZone zone only bytes :: others) :=
  consistent.rewritten (packet.outline_writeZone zone only bytes)

/-- The header of a fragment goes into a reserve and touches no payload. -/
theorem writeFragmentHeader_satisfies
    (consistent : pools.Consistent origin exchange (packet :: others)) :
    (packet.writeFragmentHeader pools).Satisfies
      (fun stamped after =>
        after.Consistent origin exchange (stamped :: others))
      (fun _ after => after.Consistent origin exchange (packet :: others))
      exchange.MayStop := by
  cases tagged : packet.tag with
  | none =>
    simp only [Packet.writeFragmentHeader, tagged]
    exact Outcome.Satisfies.fail consistent
  | some tag =>
    simp only [Packet.writeFragmentHeader, tagged]
    apply Outcome.Satisfies.readPool
    split
    · exact Outcome.Satisfies.fail consistent
    · rename_i enough
      apply Outcome.Satisfies.ofExcept (fun _ _ => consistent)
      intro header _
      cases isChain : packet.chain with
      | nil => exact consistent
      | cons first rest =>
          cases writing : first.writeHeaderEnd?
              (header.encode (pools.get packet.pool).config.byteOrder) with
          | some stamped =>
              have sameOutline := Segment.outline_writeHeaderEnd? writing
              have same : (stamped :: rest).map Segment.outline =
                  packet.chain.map Segment.outline := by
                rw [isChain, List.map_cons, List.map_cons, sameOutline]
              have consistentStamped := consistent.rewritten same
              rw [tagged] at consistentStamped
              simp only [writing]
              exact consistentStamped
          | none =>
              have tooSmall := Segment.writeHeaderEnd?_eq_none_iff.mp writing
              have freely : exchange = .freely := by
                by_cases bounded : exchange = .freely
                · exact bounded
                · have laidOut := consistent.laidOut (List.mem_cons_self ..)
                    bounded first (isChain ▸ List.mem_cons_self ..)
                  rw [laidOut, FragmentHeader.length_encode] at tooSmall
                  exact absurd tooSmall enough
              subst freely
              simp only [writing]
              trivial

end Pools.Consistent
end PooledPackets
