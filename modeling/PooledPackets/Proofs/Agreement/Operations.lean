import PooledPackets.Fragment.Fragmenter
import PooledPackets.Proofs.Agreement.Contracts
import PooledPackets.Reassembly.Reassembler

/-!
# Operations on pools that differ in their checks

Making packets, adding to them, splitting and reassembling them come to the
same, whether the pools check their packets or not.
-/

namespace PooledPackets

open Operation

namespace Packet

/-! ## Giving back -/

theorem giveBack_steady (packet : Packet) : packet.giveBack.Steady :=
  (Agrees.checkIn _ _).bind fun _ => .count _ _

theorem drop_steady (packet : Packet) : packet.drop.Steady :=
  .ite (fun _ => .pure _) (fun _ => packet.giveBack_steady)

theorem dropAll_steady :
    ∀ packets : List Packet, (dropAll packets).Steady
  | [] => .pure _
  | packet :: rest =>
      (Agrees.holding rest packet.drop_steady).bind
        fun _ => dropAll_steady rest

theorem release_steady (packet : Packet) : packet.release.Steady := by
  refine .ite (fun _ => ?_) (fun _ => ?_)
  · exact (Agrees.count _ _).bind fun _ => .fail _
  · exact packet.giveBack_steady.bind fun _ => .pure _

/-! ## Checking -/

/-- A check that finds nothing does nothing, and one that was left out finds
nothing either. -/
theorem check_steady (packet : Packet) : packet.check.Steady := by
  apply Agrees.readPool
  intro pool other alike
  rw [alike.layout_eq]
  cases packet.disagreement? other.layout.maxPayload with
  | none =>
      simp only [ite_self]
      exact .pure _
  | some violation =>
      by_cases checks : pool.config.errorChecking = true
      · rw [if_pos checks]
        exact .violated _ _ _
      · rw [if_neg checks]
        by_cases checksOther : other.config.errorChecking = true
        · rw [if_pos checksOther]
          exact fun _ _ _ => .brokenSecond (by simp) _
        · rw [if_neg checksOther]
          exact .pure _

theorem assemble_steady (id : PoolId) (segments : List Segment) :
    (assemble id segments).Steady :=
  (Agrees.holding _ (check_steady _)).bind fun _ => .pure _

/-! ## Adding bytes -/

theorem makeRoom_steady (packet : Packet) (count : Nat) :
    (packet.makeRoom count).Steady := by
  refine .ite (fun _ => .pure _) (fun _ => Agrees.readPool ?_)
  intro pool other alike
  rw [alike.chaining_eq, alike.layout_eq]
  refine .ite (fun _ => ?_) (fun _ => ?_)
  · exact (Agrees.checkOut _ _).bind fun _ => .pure _
  · exact (Agrees.count _ _).bind fun _ => .fail _

theorem append_steady (packet : Packet) (bytes : Bytes) :
    (packet.append bytes).Steady := by
  refine .ite (fun _ => .fail _) (fun _ => ?_)
  refine .ite (fun _ => .pure _) (fun _ => ?_)
  apply (packet.makeRoom_steady bytes.length).bind
  intro roomy
  cases roomy.write bytes with
  | error violation => exact .violated _ _ _
  | ok written => exact written.check_steady.bind fun _ => .pure _

theorem appendAll_steady (inHand : Packet → List Packet) :
    ∀ (pieces : List Bytes) (packet : Packet),
      (packet.appendAll inHand pieces).Steady
  | [], _ => .pure _
  | bytes :: rest, packet =>
      ((Agrees.holding _ (packet.append_steady bytes)).onFailure
        (dropAll_steady _)).bind fun _ => appendAll_steady inHand rest _

theorem writeFragmentHeader_steady (packet : Packet) :
    packet.writeFragmentHeader.Steady := by
  unfold Operation.Steady writeFragmentHeader
  cases packet.tag with
  | none => exact .fail _
  | some tag =>
      apply Agrees.readPool
      intro pool other alike
      rw [alike.layout_eq, alike.byteOrder_eq]
      refine .ite (fun _ => .fail _) (fun _ => .ofExcept _ ?_)
      intro header
      cases packet.chain with
      | nil => exact .fail _
      | cons first rest =>
          dsimp only
          cases first.writeHeaderEnd?
              (header.encode other.config.byteOrder) with
          | none => exact .outOfRange
          | some stamped => exact .pure _

end Packet

/-! ## Making packets -/

namespace Pool

theorem allocate_steady (id : PoolId) (len : Nat) :
    (allocate id len).Steady := by
  apply Agrees.readPool
  intro pool other alike
  rw [alike.chaining_eq, alike.layout_eq]
  refine .ite (fun _ => ?_) (fun _ => ?_)
  · exact (Agrees.count _ _).bind fun _ => .fail _
  · refine (Agrees.checkOut _ _).bind fun segments => ?_
    exact (Agrees.count _ _).bind fun _ => Packet.assemble_steady id segments

theorem allocateWith_steady (id : PoolId) (len : Nat)
    (pieces : List Bytes) : (allocateWith id len pieces).Steady :=
  (allocate_steady id len).bind fun _ => Packet.appendAll_steady _ pieces _

theorem copyPacket_steady (id : PoolId) (packet : Packet) :
    (copyPacket id packet).Steady := by
  refine .ite (fun _ => .fail _) (fun _ => ?_)
  exact (allocateWith_steady id _ _).bind fun _ => .pure _

theorem receiveFrame_steady (id : PoolId) (frame : Bytes) :
    (receiveFrame id frame).Steady := by
  apply Agrees.readPool
  intro pool other alike
  rw [alike.byteOrder_eq]
  refine .ofExcept _ fun header => ?_
  exact (allocateWith_steady id _ _).bind fun _ => .pure _

/-! ## Splitting packets -/

theorem fragmentForLink_steady (id : PoolId) (packet : Packet)
    (mtu : Nat) : (fragmentForLink id packet mtu).Steady := by
  refine .ite (fun _ => .fail _) (fun _ => ?_)
  refine .ite (fun _ => .fail _) (fun _ => Agrees.readPool ?_)
  intro pool other alike
  rw [alike.fragmentation_eq, alike.chaining_eq, alike.layout_eq,
    alike.nextDatagram_eq]
  refine .ite (fun _ => .fail _) (fun _ => Agrees.bind ?_ fun _ => .pure _)
  intro pools others alike
  have now := alike.get id
  exact .done _ (alike.set { now with
    nextDatagram_eq := congrArg (· + 1) now.nextDatagram_eq })

end Pool

namespace Fragmenter

theorem build_steady (fragmenter : Fragmenter) (len : Nat) :
    (fragmenter.build len).Steady := by
  unfold Operation.Steady build
  cases fragmenter.source.slices? fragmenter.offset len with
  | none =>
      exact (Pool.allocate_steady fragmenter.pool len).bind
        fun _ => .outOfRange
  | some pieces =>
      exact (Pool.allocateWith_steady fragmenter.pool len pieces).bind
        fun _ => .pure _

theorem next_steady (fragmenter : Fragmenter) : fragmenter.next.Steady := by
  refine .ite (fun _ => .pure _) (fun _ => ?_)
  apply (fragmenter.build_steady _).attempt.bind
  intro result
  cases result with
  | error error => exact .pure _
  | ok fragment => exact (Agrees.count _ _).bind fun _ => .pure _

end Fragmenter

/-! ## Joining -/

namespace Reassembly

theorem splice_steady (id : PoolId) (fragments : List Packet) :
    (splice id fragments).Steady :=
  (Agrees.checkIn _ _).bind fun _ => Packet.assemble_steady _ _

theorem copyInto_steady :
    ∀ (fragments : List Packet) (packet : Packet),
      (copyInto packet fragments).Steady
  | [], _ => .pure _
  | fragment :: rest, packet => by
      apply (packet.appendAll_steady _ fragment.chunks).bind
      intro longer
      exact (Agrees.holding _ fragment.drop_steady).bind
        fun _ => copyInto_steady rest longer

theorem copy_steady (id : PoolId) (total : Nat) (own : Bool)
    (fragments : List Packet) : (copy id total own fragments).Steady := by
  cases fragments with
  | nil => exact Pool.allocate_steady id 0
  | cons first rest =>
      refine .ite (fun _ => copyInto_steady rest _) (fun _ => ?_)
      apply ((Pool.allocate_steady id total).onFailure
        (Packet.dropAll_steady _)).bind
      intro packet
      apply (packet.appendAll_steady _ first.chunks).bind
      intro filled
      exact (Agrees.holding _ first.drop_steady).bind
        fun _ => copyInto_steady rest filled

theorem join_steady (id : PoolId) (assembly : Assembly) :
    (join id assembly).Steady := by
  have counting {change : Counters → Counters} (packet : Packet) :
      (do Operation.count id change; pure packet).Steady :=
    (Agrees.count id change).bind fun _ => .pure packet
  apply Agrees.namesakes
  intro same
  apply Agrees.readPool
  intro pool other alike
  dsimp only
  rw [alike.chaining_eq]
  refine .ite (fun _ => ?_) (fun _ => ?_)
  · exact (splice_steady id _).bind counting
  · exact (copy_steady id _ _ _).bind counting

end Reassembly

namespace Reassembler

/-! ## Dropping datagrams -/

theorem dropLate_steady (id : PoolId) :
    ∀ assemblies : List Assembly, (dropLate id assemblies).Steady
  | [] => .pure _
  | assembly :: rest =>
      (Packet.dropAll_steady assembly.fragments).bind fun _ =>
        Agrees.bind (.count id _) fun _ => dropLate_steady id rest

theorem expire_steady (reassembler : Reassembler) (now : Nat) :
    (reassembler.expire now).Steady :=
  (dropLate_steady reassembler.pool _).bind fun _ => .pure _

theorem clear_steady (reassembler : Reassembler) (choices : List Nat) :
    (reassembler.clear choices).Steady := by
  have dropped : ∀ assemblies : List Assembly,
      (dropDatagrams assemblies).Steady := by
    intro assemblies
    induction assemblies with
    | nil => exact .pure _
    | cons assembly rest inductionHypothesis =>
        exact (Packet.dropAll_steady assembly.fragments).bind
          fun _ => inductionHypothesis
  exact (dropped _).bind fun _ => .pure _

/-! ## Accepting fragments -/

theorem forPool_steady (id : PoolId) : (forPool id).Steady := by
  apply Agrees.readPool
  intro pool other alike
  rw [alike.reassembly_eq]
  exact .pure _

variable (reassembler : Reassembler) (hand : Hand)

theorem makeRoom_steady (datagram : Nat) (fragment : Packet) (now : Nat) :
    (reassembler.makeRoom datagram fragment now).Steady := by
  refine .ite (fun _ => ?_) (fun _ => .pure _)
  exact (Agrees.holding _ (reassembler.expire_steady now)).bind
    fun _ => .pure _

theorem giveUp_steady (assembly : Assembly) (tag : FragmentTag)
    (fragment : Packet) (error : BufferError) :
    (reassembler.giveUp hand assembly tag fragment error).Steady := by
  apply (Agrees.holding _ fragment.drop_steady).bind
  intro _
  apply (Agrees.holding _ (Packet.dropAll_steady assembly.fragments)).bind
  intro _
  cases error with
  | overlap datagram offset len =>
      exact (Agrees.count reassembler.pool _).bind fun _ => .pure _
  | _ => exact .pure _

theorem add_steady (assembly : Assembly) (tag : FragmentTag)
    (fragment : Packet) :
    (reassembler.add hand assembly tag fragment).Steady := by
  unfold Operation.Steady add
  cases assembly.insert tag fragment reassembler.limits.holdLimit with
  | error error =>
      exact reassembler.giveUp_steady hand assembly tag fragment error
  | ok longer =>
      refine .ite (fun _ => ?_) (fun _ => .pure _)
      have joined := Reassembly.join_steady reassembler.pool longer
      exact (Agrees.holding _ joined.attempt).bind fun _ => .pure _

theorem pushUntil_steady (fragment : Packet) (now deadline : Nat) :
    (reassembler.pushUntil hand fragment now deadline).Steady := by
  have dropped (reassembler : Reassembler) :=
    Agrees.holding (hand reassembler) fragment.drop_steady
  unfold Operation.Steady pushUntil
  cases fragment.tag with
  | none => exact (dropped reassembler).bind fun _ => .pure _
  | some tag =>
      apply (reassembler.makeRoom_steady _ fragment now).bind
      intro roomy
      cases roomy.pending.get? tag.datagram.toNat with
      | some assembly =>
          refine .ite (fun _ => ?_)
            (fun _ => roomy.add_steady hand assembly tag fragment)
          apply (Agrees.holding _
            (Packet.dropAll_steady assembly.fragments)).bind
          intro _
          apply Agrees.bind (.count _ _)
          exact fun _ => (dropped _).bind fun _ => .pure _
      | none =>
          refine .ite (fun _ => ?_)
            (fun _ => roomy.add_steady hand _ tag fragment)
          exact (dropped roomy).bind fun _ => .pure _

theorem push_steady (fragment : Packet) (now : Nat) :
    (reassembler.push fragment now).Steady := by
  unfold Operation.Steady push
  cases reassembler.limits.timeout.after? now with
  | none => exact .holding _ .outOfRange
  | some deadline => exact reassembler.pushUntil_steady _ fragment now _

end Reassembler

/-! ## Reassembling one datagram -/

namespace Pool

variable (choices : List Nat)

theorem dropLeftovers_steady (reassembler : Reassembler)
    (rest : List Packet) : (dropLeftovers reassembler rest choices).Steady :=
  (Agrees.holding _ (Packet.dropAll_steady rest)).bind fun _ =>
    (reassembler.clear_steady choices).bind fun _ => .pure _

theorem abandon_steady {α : Type} (reassembler : Reassembler)
    (rest : List Packet) (error : BufferError) :
    (abandon reassembler rest choices error : Operation α).Steady :=
  (dropLeftovers_steady choices reassembler rest).bind fun _ => .fail _

theorem reassembleFrom_steady (deadline : Nat) :
    ∀ (arrivals : List (Nat × Packet)) (latest : UInt32)
      (reassembler : Reassembler),
      (reassembleFrom reassembler deadline choices latest arrivals).Steady
  | [], _, reassembler =>
      Agrees.bind (.count reassembler.pool _)
        fun _ => abandon_steady choices _ _ _
  | (now, fragment) :: later, latest, reassembler => by
      refine .ite (fun _ => ?_) (fun _ => ?_)
      · exact Agrees.bind (.count reassembler.pool _)
          fun _ => abandon_steady choices _ _ _
      · apply (reassembler.pushUntil_steady _ fragment now deadline).bind
        intro acceptance
        match acceptance with
        | (.error error, next) => exact abandon_steady choices _ _ _
        | (.ok none, next) =>
            exact reassembleFrom_steady deadline later _ next
        | (.ok (some packet), next) =>
            exact (dropLeftovers_steady choices _ _).bind fun _ => .pure _

theorem reassemble_steady (id : PoolId) (arrivals : List (Nat × Packet))
    (deadline : Nat) : (reassemble id arrivals deadline choices).Steady :=
  (Reassembler.forPool_steady id).bind fun reassembler =>
    reassembleFrom_steady choices deadline arrivals 0 reassembler

end Pool

end PooledPackets
