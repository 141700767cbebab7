import PooledPackets.Proofs.Ownership.Reassembling
import PooledPackets.Proofs.Steps

/-!
# Sessions and live packets

The live packets of a session are those in its slots and the fragments held by
its reassemblers. Every command keeps the pools consistent with them.
-/

namespace PooledPackets

/-- The ways in which a session may end: a stop that exchanges have made
possible, or a position or a clock reading out of range. -/
def Exchange.MayEnd (exchange : Exchange) (stop : Stop) : Prop :=
  exchange.MayStop stop ∨ stop = .outOfRange

namespace Session

/-- All packets that hold segments. -/
def live (session : Session) : List Packet :=
  session.packets.values ++
    session.reassemblers.values.flatMap Reassembler.fragments

/-- The pools of a session are consistent with its live packets and with some
more in hand. -/
def Owns (session : Session) (origin : Pools) (exchange : Exchange)
    (inHand : List Packet) : Prop :=
  session.pools.Consistent origin exchange (inHand ++ session.live)

/-! ## The session with one part changed -/

def withPools (session : Session) (pools : Pools) : Session :=
  { session with pools }

/-- The session with a slot emptied. -/
def vacated (session : Session) (slot : Nat) : Session :=
  { session with packets := session.packets.erase slot }

/-- The session with a packet in a slot. -/
def filed (session : Session) (slot : Nat) (packet : Packet) : Session :=
  { session with packets := session.packets.insert slot packet }

/-- The session without one of its reassemblers. -/
def unattended (session : Session) (index : Nat) : Session :=
  { session with reassemblers := session.reassemblers.erase index }

/-- The session with a reassembler in its place. -/
def attended (session : Session) (index : Nat)
    (reassembler : Reassembler) : Session :=
  { session with
    reassemblers := session.reassemblers.insert index reassembler }

/-- The session with a walk in its place. -/
def walking (session : Session) (index : Nat) (walk : Walk) : Session :=
  { session with walks := session.walks.insert index walk }

/-- The session without one of its walks. -/
def unwalked (session : Session) (index : Nat) : Session :=
  { session with walks := session.walks.erase index }

/-- The session after so many pools have had their turn. -/
def making (session : Session) (made : Nat) : Session :=
  { session with made }

variable {session : Session} {slot index : Nat} {packet : Packet}
variable {reassembler : Reassembler}

theorem vacated_of_absent (absent : session.packets.get? slot = none) :
    session.vacated slot = session := by
  rw [vacated, Table.erase_of_get?_eq_none absent]

theorem unattended_of_absent
    (absent : session.reassemblers.get? index = none) :
    session.unattended index = session := by
  rw [unattended, Table.erase_of_get?_eq_none absent]

/-- A walk as it stands is one that was begun, over the packet in its slot. -/
theorem walk?_eq_some_iff {walk : Walk} :
    session.walk? index = some walk ↔
      session.packets.get? walk.slot = some walk.fragmenter.source ∧
        ∃ source, session.walks.get? index = some
          { walk with fragmenter := { walk.fragmenter with source } } := by
  simp only [walk?, Option.bind_eq_bind, Option.pure_def,
    Option.bind_eq_some_iff, Option.some.injEq]
  constructor
  · intro found
    obtain ⟨begun, isBegun, source, isSource, rfl⟩ := found
    exact ⟨isSource, begun.fragmenter.source, isBegun⟩
  · intro found
    obtain ⟨isSource, source, isBegun⟩ := found
    exact ⟨_, isBegun, walk.fragmenter.source, isSource, rfl⟩

/-- A packet that a walk has borrowed stays in its slot. -/
theorem sources_subset (session : Session) :
    session.sources ⊆ session.packets.values := by
  intro source borrowed
  obtain ⟨walk, _, found⟩ := List.mem_filterMap.mp borrowed
  exact (Table.values_perm_of_get? found).mem_iff.mpr
    (List.mem_cons_self ..)

theorem live_perm_of_packet
    (found : session.packets.get? slot = some packet) :
    session.live.Perm (packet :: (session.vacated slot).live) :=
  (Table.values_perm_of_get? found).append_right _

theorem mem_live_of_packet
    (found : session.packets.get? slot = some packet) :
    packet ∈ session.live :=
  (live_perm_of_packet found).mem_iff.mpr (List.mem_cons_self ..)

theorem live_vacated_subset (session : Session) (slot : Nat) :
    (session.vacated slot).live ⊆ session.live := by
  cases found : session.packets.get? slot with
  | none =>
      rw [vacated_of_absent found]
      exact List.Subset.refl _
  | some packet =>
      intro other isLive
      exact (live_perm_of_packet found).mem_iff.mpr (.tail _ isLive)

theorem live_filed_perm (session : Session) (slot : Nat)
    (packet : Packet) :
    (session.filed slot packet).live.Perm
      (packet :: (session.vacated slot).live) :=
  (Table.values_insert_perm _ _ _).append_right _

/-- Two packets can be taken out of their slots one after the other. -/
theorem live_perm_of_two {first second : Nat} {one other : Packet}
    (different : first ≠ second)
    (foundOne : session.packets.get? first = some one)
    (foundOther : session.packets.get? second = some other) :
    session.live.Perm
      (other :: one :: ((session.vacated second).vacated first).live) := by
  have oneStays : (session.vacated second).packets.get? first =
      some one := by
    simp [vacated, different, foundOne]
  exact (live_perm_of_packet foundOther).trans
    ((live_perm_of_packet oneStays).cons other)

theorem live_filed_two_perm (session : Session) {first second : Nat}
    (different : first ≠ second) (one other : Packet) :
    ((session.filed first one).filed second other).live.Perm
      (other :: one :: ((session.vacated second).vacated first).live) := by
  have oneStays : ((session.filed first one).vacated
      second).packets.get? first = some one := by
    simp [vacated, filed, different]
  have sameRest : ((session.filed first one).vacated second).vacated first =
      (session.vacated second).vacated first := by
    simp only [vacated, filed]
    rw [Table.erase_comm, Table.erase_insert_self, Table.erase_comm]
  rw [← sameRest]
  exact (live_filed_perm _ second other).trans
    ((live_perm_of_packet oneStays).cons other)

/-- Moves the fragments of one reassembler in front of all else that is
live. -/
theorem perm_fragments_first {packets own all rest : List Packet}
    (split : all.Perm (own ++ rest)) :
    (packets ++ all).Perm (own ++ (packets ++ rest)) :=
  (List.Perm.append_left packets split).trans
    (List.perm_append_comm_assoc ..)

theorem live_perm_of_reassembler
    (found : session.reassemblers.get? index = some reassembler) :
    session.live.Perm
      (reassembler.fragments ++ (session.unattended index).live) :=
  perm_fragments_first ((Table.values_perm_of_get? found).flatMap_right _)

theorem live_unattended_subset (session : Session) (index : Nat) :
    (session.unattended index).live ⊆ session.live := by
  cases found : session.reassemblers.get? index with
  | none =>
      rw [unattended_of_absent found]
      exact List.Subset.refl _
  | some reassembler =>
      intro other isLive
      exact (live_perm_of_reassembler found).mem_iff.mpr
        (List.mem_append_right _ isLive)

theorem live_attended_perm (session : Session) (index : Nat)
    (reassembler : Reassembler) :
    (session.attended index reassembler).live.Perm
      (reassembler.fragments ++ (session.unattended index).live) :=
  perm_fragments_first ((Table.values_insert_perm _ _ _).flatMap_right _)

/-! ## The parts of a step -/

variable {origin : Pools} {exchange : Exchange}
variable {inHand : List Packet}

theorem Owns.keptSources (owns : session.Owns origin exchange inHand) :
    ∀ source ∈ session.sources, source.Kept exchange := by
  intro source borrowed
  refine owns.kept source (List.mem_append_right inHand ?_)
  exact List.mem_append_left _ (session.sources_subset borrowed)

theorem Owns.perm (owns : session.Owns origin exchange inHand)
    {packets : List Packet} (same : (inHand ++ session.live).Perm packets) :
    session.pools.Consistent origin exchange packets :=
  Pools.Consistent.perm owns same

/-- A packet that is handed to a reassembler is live besides what that
holds. -/
theorem Owns.handed (owns : session.Owns origin exchange [])
    (found : session.reassemblers.get? index = some reassembler)
    (isPacket : session.packets.get? slot = some packet) :
    session.pools.Consistent origin exchange
      (packet :: (reassembler.fragments ++
        ((session.vacated slot).unattended index).live)) := by
  have attended : (session.vacated slot).live.Perm
      (reassembler.fragments ++
        ((session.vacated slot).unattended index).live) :=
    live_perm_of_reassembler found
  exact owns.perm
    ((live_perm_of_packet isPacket).trans (attended.cons packet))

/-- Where a step breaks off, the packets being split are given back. -/
theorem breakOff_ends {α : Type} {stop : Stop}
    {done : α → Session → Prop} {ended : Stop → Prop}
    (keptSources : ∀ source ∈ session.sources, source.Kept exchange)
    (collapses : exchange.MayStopReturns .collapse → ended .collapse)
    (stops : ended stop) :
    SessionStep.Satisfies (breakOff stop : SessionStep α) session done
      ended := by
  unfold SessionStep.Satisfies breakOff
  by_cases foreign : (stop.givesBack &&
      session.sources.any session.pools.findsForeign) = true
  · rw [if_pos foreign]
    rw [Bool.and_eq_true] at foreign
    exact collapses (Packet.Kept.collapses keptSources foreign.2)
  · rw [if_neg foreign]
    exact stops

theorem breakOff_satisfies {α : Type} {stop : Stop}
    {done : α → Session → Prop}
    (keptSources : ∀ source ∈ session.sources, source.Kept exchange)
    (stops : exchange.MayEnd stop) :
    SessionStep.Satisfies (breakOff stop : SessionStep α) session done
      exchange.MayEnd :=
  breakOff_ends keptSources (fun collapses => Or.inl collapses.mayStop) stops

/-- An operation carried out in a session changes nothing but the pools. -/
theorem perform_ends {α : Type} {operation : Operation α}
    {done : α → Pools → Prop} {refused : BufferError → Pools → Prop}
    {stopped ended : Stop → Prop}
    (contract : (operation session.pools).Satisfies done refused stopped)
    (breaksOff : ∀ stop, stopped stop → SessionStep.Satisfies
      (breakOff stop : SessionStep (Except BufferError α)) session
        (fun _ _ => False) ended) :
    SessionStep.Satisfies (perform operation) session
      (fun result after => ∃ pools, after = session.withPools pools ∧
        match result with
        | .ok value => done value pools
        | .error error => refused error pools)
      ended := by
  cases ending : operation session.pools with
  | done value pools =>
      rw [ending] at contract
      simp only [SessionStep.Satisfies, perform, ending]
      exact ⟨pools, rfl, contract⟩
  | failed error pools =>
      rw [ending] at contract
      simp only [SessionStep.Satisfies, perform, ending]
      exact ⟨pools, rfl, contract⟩
  | stopped stop =>
      rw [ending] at contract
      have same : perform operation session = breakOff stop session := by
        simp only [perform, ending]
      have broken := breaksOff stop contract
      unfold SessionStep.Satisfies at broken ⊢
      rw [same]
      split at broken
      · exact broken.elim
      · exact broken

theorem perform_satisfies {α : Type} {operation : Operation α}
    {done : α → Pools → Prop} {refused : BufferError → Pools → Prop}
    {stopped : Stop → Prop}
    (keptSources : ∀ source ∈ session.sources, source.Kept exchange)
    (contract : (operation session.pools).Satisfies done refused stopped)
    (ends : ∀ stop, stopped stop → exchange.MayEnd stop) :
    SessionStep.Satisfies (perform operation) session
      (fun result after => ∃ pools, after = session.withPools pools ∧
        match result with
        | .ok value => done value pools
        | .error error => refused error pools)
      exchange.MayEnd :=
  perform_ends contract fun stop stops =>
    breakOff_satisfies keptSources (ends stop stops)

/-- An operation that gives segments back can stop a session only where
exchanges have made that possible. -/
theorem perform_stops {α : Type} {operation : Operation α}
    {done : α → Pools → Prop} {refused : BufferError → Pools → Prop}
    (keptSources : ∀ source ∈ session.sources, source.Kept exchange)
    (contract : (operation session.pools).Satisfies done refused
      exchange.MayStop) :
    SessionStep.Satisfies (perform operation) session
      (fun result after => ∃ pools, after = session.withPools pools ∧
        match result with
        | .ok value => done value pools
        | .error error => refused error pools)
      exchange.MayStop :=
  perform_ends contract fun _ stops =>
    breakOff_ends keptSources Exchange.MayStopReturns.mayStop stops

theorem perform_returns {α : Type} {operation : Operation α}
    {done : α → Pools → Prop} {refused : BufferError → Pools → Prop}
    (keptSources : ∀ source ∈ session.sources, source.Kept exchange)
    (contract : (operation session.pools).Satisfies done refused
      exchange.MayStopReturns) :
    SessionStep.Satisfies (perform operation) session
      (fun result after => ∃ pools, after = session.withPools pools ∧
        match result with
        | .ok value => done value pools
        | .error error => refused error pools)
      exchange.MayStopReturns :=
  perform_ends contract fun _ stops =>
    breakOff_ends keptSources id stops

theorem discarding_satisfies {packet : Packet} {rest : List Packet}
    (keptSources : ∀ source ∈ session.sources, source.Kept exchange)
    (consistent : session.pools.Consistent origin exchange
      (packet :: rest)) :
    SessionStep.Satisfies (discard packet) session
      (fun _ after => ∃ pools, after = session.withPools pools ∧
        pools.Consistent origin exchange rest) exchange.MayStopReturns := by
  apply SessionStep.Satisfies.bind
    (perform_returns keptSources consistent.drop_satisfies)
  intro result after ending
  obtain ⟨pools, rfl, known⟩ := ending
  cases result with
  | error error => exact known.elim
  | ok value => exact ⟨pools, rfl, known⟩

theorem discard_returns
    (owns : session.Owns origin exchange (packet :: inHand)) :
    SessionStep.Satisfies (discard packet) session
      (fun _ after => after.Owns origin exchange inHand)
      exchange.MayStopReturns := by
  apply (discarding_satisfies owns.keptSources owns).monoDone
  intro _ _ ending
  obtain ⟨pools, rfl, consistent⟩ := ending
  exact consistent

theorem discard_stops
    (owns : session.Owns origin exchange (packet :: inHand)) :
    SessionStep.Satisfies (discard packet) session
      (fun _ after => after.Owns origin exchange inHand)
      exchange.MayStop :=
  (discard_returns owns).mono (fun _ _ known => known)
    (fun _ stops => stops.mayStop)

theorem discard_satisfies
    (owns : session.Owns origin exchange (packet :: inHand)) :
    SessionStep.Satisfies (discard packet) session
      (fun _ after => after.Owns origin exchange inHand)
      exchange.MayEnd :=
  (discard_stops owns).mono (fun _ _ known => known) (fun _ => Or.inl)

/-- A packet that goes into a slot takes the place of the one there. -/
theorem keep_stops
    (owns : session.Owns origin exchange (packet :: inHand)) :
    SessionStep.Satisfies (keep slot packet) session
      (fun _ after => after.Owns origin exchange inHand)
      exchange.MayStop := by
  apply SessionStep.Satisfies.get
  have filing : (packet :: inHand ++ (session.vacated slot).live).Perm
      (inHand ++ (session.filed slot packet).live) := by
    refine List.Perm.trans ?_
      ((live_filed_perm session slot packet).symm.append_left inHand)
    exact List.perm_middle.symm
  cases found : session.packets.get? slot with
  | none =>
      have ownsFiled : (session.filed slot packet).Owns origin exchange
          inHand := by
        apply Owns.perm owns
        rw [vacated_of_absent found] at filing
        exact filing
      exact ownsFiled
  | some previous =>
      have ownsFiled : (session.filed slot packet).Owns origin exchange
          (previous :: inHand) := by
        apply Owns.perm owns
        apply ((live_perm_of_packet found).append_left _).trans
        exact List.perm_middle.trans (filing.cons previous)
      exact discard_stops ownsFiled

theorem keep_satisfies
    (owns : session.Owns origin exchange (packet :: inHand)) :
    SessionStep.Satisfies (keep slot packet) session
      (fun _ after => after.Owns origin exchange inHand)
      exchange.MayEnd :=
  (keep_stops owns).mono (fun _ _ known => known) (fun _ => Or.inl)

theorem keepResult_satisfies {operation : Operation Packet}
    (owns : session.Owns origin exchange inHand)
    (contract : (operation session.pools).Satisfies
      (fun packet after => after.Consistent origin exchange
        (packet :: session.live))
      (fun _ after => after.Consistent origin exchange session.live)
      exchange.MayStop) :
    SessionStep.Satisfies (keepResult slot operation) session
      (fun _ after => after.Owns origin exchange [])
      exchange.MayEnd := by
  apply SessionStep.Satisfies.bind
    (perform_satisfies owns.keptSources contract (fun _ => Or.inl))
  intro result after ending
  obtain ⟨pools, rfl, known⟩ := ending
  cases result with
  | error error => exact SessionStep.Satisfies.pure known
  | ok packet =>
      have ownsPacket : (session.withPools pools).Owns origin exchange
          [packet] := known
      exact SessionStep.Satisfies.giving (keep_satisfies ownsPacket)

theorem updateResult_satisfies {operation : Operation Packet}
    {reply : Packet → Reply}
    (owns : session.Owns origin exchange [])
    (found : session.packets.get? slot = some packet)
    (contract : (operation session.pools).Satisfies
      (fun changed after => after.Consistent origin exchange
        (changed :: (session.vacated slot).live))
      (fun _ after => after.Consistent origin exchange
        (packet :: (session.vacated slot).live)) exchange.MayStop) :
    SessionStep.Satisfies (updateResult slot operation reply) session
      (fun _ after => after.Owns origin exchange []) exchange.MayEnd := by
  apply SessionStep.Satisfies.bind
    (perform_satisfies owns.keptSources contract (fun _ => Or.inl))
  intro result after ending
  obtain ⟨pools, rfl, known⟩ := ending
  cases result with
  | error error =>
      exact SessionStep.Satisfies.pure
        (Pools.Consistent.perm known (live_perm_of_packet found).symm)
  | ok changed =>
      have ownsAfter : ((session.withPools pools).filed slot changed).Owns
          origin exchange [] :=
        Pools.Consistent.perm known (live_filed_perm _ slot changed).symm
      exact ownsAfter

theorem withPacket_satisfies {next : Packet → SessionStep Reply}
    (owns : session.Owns origin exchange [])
    (goesOn : ∀ packet, session.packets.get? slot = some packet →
      session.pools.Consistent origin exchange
        (packet :: (session.vacated slot).live) →
      SessionStep.Satisfies (next packet) session
        (fun _ after => after.Owns origin exchange []) exchange.MayEnd) :
    SessionStep.Satisfies (withPacket slot next) session
      (fun _ after => after.Owns origin exchange []) exchange.MayEnd := by
  apply SessionStep.Satisfies.get
  cases found : session.packets.get? slot with
  | none => exact SessionStep.Satisfies.pure owns
  | some packet =>
      exact goesOn packet found (Owns.perm owns (live_perm_of_packet found))

theorem withPool_satisfies {id : PoolId} {next : SessionStep Reply}
    (owns : session.Owns origin exchange [])
    (goesOn : SessionStep.Satisfies next session
      (fun _ after => after.Owns origin exchange []) exchange.MayEnd) :
    SessionStep.Satisfies (withPool id next) session
      (fun _ after => after.Owns origin exchange []) exchange.MayEnd :=
  SessionStep.Satisfies.get (SessionStep.Satisfies.ite
    (fun _ => goesOn) (fun _ => SessionStep.Satisfies.pure owns))

theorem withReassembler_satisfies {next : Reassembler → SessionStep Reply}
    (owns : session.Owns origin exchange [])
    (goesOn : ∀ reassembler,
      session.reassemblers.get? index = some reassembler →
      session.pools.Consistent origin exchange
        (reassembler.fragments ++ (session.unattended index).live) →
      SessionStep.Satisfies (next reassembler) session
        (fun _ after => after.Owns origin exchange []) exchange.MayEnd) :
    SessionStep.Satisfies (withReassembler index next) session
      (fun _ after => after.Owns origin exchange []) exchange.MayEnd := by
  apply SessionStep.Satisfies.get
  cases found : session.reassemblers.get? index with
  | none => exact SessionStep.Satisfies.pure owns
  | some reassembler =>
      exact goesOn reassembler found
        (Owns.perm owns (live_perm_of_reassembler found))

theorem withWalk_satisfies {next : Walk → SessionStep Reply}
    (owns : session.Owns origin exchange [])
    (goesOn : ∀ walk, session.walk? index = some walk →
      walk.fragmenter.source.Kept exchange →
      SessionStep.Satisfies (next walk) session
        (fun _ after => after.Owns origin exchange []) exchange.MayEnd) :
    SessionStep.Satisfies (withWalk index next) session
      (fun _ after => after.Owns origin exchange []) exchange.MayEnd := by
  apply SessionStep.Satisfies.get
  cases found : session.walk? index with
  | none => exact SessionStep.Satisfies.pure owns
  | some walk =>
      have isSource := (walk?_eq_some_iff.mp found).1
      exact goesOn walk found (owns.kept _ (mem_live_of_packet isSource))

end Session
end PooledPackets
