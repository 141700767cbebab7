import PooledPackets.Proofs.Ownership.Sessions

/-!
# Commands and live packets

Every command leaves the pools of a session consistent with its live packets.
A session stops only where exchanges have made that possible, or where a
position or a clock reading is out of range.
-/

namespace PooledPackets

/-- Whether a command exchanges segments between packets. -/
def Command.exchanges : Command → Bool
  | .swapFirst .. => true
  | _ => false

namespace Session

variable {session : Session} {origin : Pools} {exchange : Exchange}

/-! ## Splitting packets -/

theorem nextFragment_satisfies {index slot : Nat}
    (owns : session.Owns origin exchange []) :
    SessionStep.Satisfies (nextFragment index slot) session
      (fun _ after => after.Owns origin exchange []) exchange.MayEnd := by
  apply withWalk_satisfies owns
  intro walk _ kept
  apply SessionStep.Satisfies.bind (perform_satisfies owns.keptSources
    (Pools.Consistent.next_satisfies owns kept) (fun _ => Or.inl))
  intro result after ending
  obtain ⟨pools, rfl, known⟩ := ending
  match result with
  | .error error => exact known.elim
  | .ok (none, fragmenter) =>
      obtain ⟨_, rfl, rfl⟩ := known
      exact SessionStep.Satisfies.changing owns
  | .ok (some (.error error), fragmenter) =>
      exact SessionStep.Satisfies.changing known.2.1
  | .ok (some (.ok fragment), fragmenter) =>
      have ownsNow : ((session.withPools pools).walking index
          { walk with fragmenter }).Owns origin exchange [fragment] :=
        known.2.1
      exact SessionStep.Satisfies.changing
        (SessionStep.Satisfies.giving (keep_satisfies ownsNow))

theorem collectFragments_satisfies :
    ∀ {max index slot : Nat} {session : Session},
      session.Owns origin exchange [] →
      SessionStep.Satisfies (collectFragments index slot max) session
        (fun _ after => after.Owns origin exchange []) exchange.MayEnd
  | 0, _, _, _, owns => owns
  | max + 1, _, slot, _, owns => by
      apply SessionStep.Satisfies.bind (nextFragment_satisfies owns)
      intro reply after ownsAfter
      match reply with
      | .fragment (some (.ok fragment)) =>
          exact SessionStep.Satisfies.giving
            (collectFragments_satisfies ownsAfter)
      | .fragment (some (.error error)) =>
          exact SessionStep.Satisfies.giving
            (collectFragments_satisfies ownsAfter)
      | .fragment none | .nothing | .packet _ | .refused _ | .noSuchPool
      | .noSuchSlot | .noSuchReassembler | .noSuchWalk | .lent | .pieces _
      | .copied _ _ | .counts _ | .swapped _ | .headerZone _ | .walk _
      | .fragments _ | .pushed _ _ | .expired _ =>
          exact SessionStep.Satisfies.pure ownsAfter

/-- A packet being split stays where it is. -/
theorem beginWalk_satisfies {pool : PoolId} {slot mtu index : Nat}
    (owns : session.Owns origin exchange []) :
    SessionStep.Satisfies (beginWalk pool slot mtu index) session
      (fun _ after => after.Owns origin exchange []) exchange.MayEnd := by
  refine withPool_satisfies owns (withPacket_satisfies owns ?_)
  intro packet found split
  apply SessionStep.Satisfies.bind (perform_satisfies owns.keptSources
    (split.fragmentForLink_satisfies pool packet mtu)
      (fun _ => Or.inl))
  intro result after ending
  obtain ⟨pools, rfl, known⟩ := ending
  cases result with
  | error error =>
      exact SessionStep.Satisfies.pure
        (Pools.Consistent.perm known (live_perm_of_packet found).symm)
  | ok fragmenter =>
      have ownsAfter : ((session.withPools pools).walking index
          ⟨slot, fragmenter⟩).Owns origin exchange [] :=
        Pools.Consistent.perm known.1 (live_perm_of_packet found).symm
      exact ownsAfter

/-! ## Exchanging segments -/

/-- Exchanged chains are still live. What can be said of the two packets has to
survive the exchange. -/
theorem swapFirst_keeps {first second : Nat}
    (owns : session.Owns origin exchange [])
    (kept : ∀ one other, session.packets.get? first = some one →
      session.packets.get? second = some other →
      (one.isReleased || other.isReleased) = false →
      (one.exchangeChains other).1.Kept exchange ∧
        (one.exchangeChains other).2.Kept exchange) :
    SessionStep.Satisfies (swapFirst first second) session
      (fun _ after => after.Owns origin exchange []) exchange.MayEnd := by
  apply SessionStep.Satisfies.ite
    (fun _ => SessionStep.Satisfies.pure owns)
  intro different
  apply withPacket_satisfies owns
  intro one foundOne _
  apply withPacket_satisfies owns
  intro other foundOther _
  apply SessionStep.Satisfies.ite
    (fun _ => SessionStep.Satisfies.pure owns)
  intro held
  obtain ⟨keptOne, keptOther⟩ :=
    kept one other foundOne foundOther (eq_false_of_ne_true held)
  have ownsAfter : ((session.filed first (one.exchangeChains other).1).filed
      second (one.exchangeChains other).2).Owns origin exchange [] := by
    have exchanged : session.pools.Consistent origin exchange
        ([(one.exchangeChains other).2, (one.exchangeChains other).1] ++
          ((session.vacated second).vacated first).live) := by
      refine Pools.Consistent.replace [other, one] _
        (Owns.perm owns (live_perm_of_two different foundOne foundOther))
        ?_ ?_
      · apply List.Perm.map _
        simp only [List.flatMap_cons, List.flatMap_nil, List.append_nil]
        exact List.perm_append_comm
      · intro packet member
        simp only [List.mem_cons, List.not_mem_nil, or_false] at member
        rcases member with rfl | rfl
        · exact keptOther
        · exact keptOne
    exact exchanged.perm (live_filed_two_perm session different _ _).symm
  exact ownsAfter

/-- After a free exchange nothing can be said of the packets any more. -/
theorem swapFirst_satisfies {first second : Nat}
    (owns : session.Owns origin .freely []) :
    SessionStep.Satisfies (swapFirst first second) session
      (fun _ after => after.Owns origin .freely [])
      Exchange.freely.MayEnd :=
  swapFirst_keeps owns fun _ _ _ _ _ => ⟨trivial, trivial⟩

/-! ## Reassemblers -/

/-- A new reassembler takes the place of an old one, whose fragments are
dropped. -/
theorem newReassembler_satisfies {pool : PoolId} {index : Nat}
    {choices : List Nat} (owns : session.Owns origin exchange []) :
    SessionStep.Satisfies (carryOut (.newReassembler pool index choices))
      session (fun _ after => after.Owns origin exchange [])
      exchange.MayEnd := by
  apply withPool_satisfies owns
  have made : (Reassembler.forPool pool session.pools).Satisfies
      (fun reassembler after => reassembler.fragments = [] ∧
        after = session.pools)
      (fun _ _ => False) exchange.MayStop :=
    Outcome.Satisfies.readPool (Outcome.Satisfies.pure ⟨rfl, rfl⟩)
  apply SessionStep.Satisfies.bind
    (perform_satisfies owns.keptSources made (fun _ => Or.inl))
  intro result after ending
  obtain ⟨pools, rfl, known⟩ := ending
  cases result with
  | error error => exact known.elim
  | ok reassembler =>
      obtain ⟨nothingHeld, rfl⟩ := known
      refine SessionStep.Satisfies.get
        (SessionStep.Satisfies.changing ?_)
      have attending := live_attended_perm session index reassembler
      rw [nothingHeld, List.nil_append] at attending
      change SessionStep.Satisfies _ (session.attended index reassembler) _ _
      have unchanged : (session.withPools session.pools).reassemblers =
        session.reassemblers := rfl
      rw [unchanged]
      cases found : session.reassemblers.get? index with
      | none =>
          have ownsAfter : (session.attended index reassembler).Owns origin
              exchange [] := by
            apply Owns.perm owns
            rw [unattended_of_absent found] at attending
            exact attending.symm
          exact ownsAfter
      | some previous =>
          have ownsPrevious : (session.attended index reassembler).Owns
              origin exchange previous.fragments := by
            apply Owns.perm owns
            exact (live_perm_of_reassembler found).trans
              (attending.symm.append_left _)
          apply SessionStep.Satisfies.bind
            (perform_satisfies ownsPrevious.keptSources
              (Pools.Consistent.clear_satisfies ownsPrevious).returned
              (fun _ => Or.inl))
          intro cleared after ending
          obtain ⟨cleanPools, rfl, known⟩ := ending
          cases cleared with
          | error error => exact known.elim
          | ok _ => exact SessionStep.Satisfies.pure known.2

/-- The fragment handed over leaves its slot; what the reassembler delivers
goes into another one. -/
theorem push_satisfies {index source now slot : Nat}
    (owns : session.Owns origin exchange []) :
    SessionStep.Satisfies (push index source now slot) session
      (fun _ after => after.Owns origin exchange []) exchange.MayEnd := by
  apply withReassembler_satisfies owns
  intro reassembler found _
  apply withPacket_satisfies owns
  intro fragment isFragment split
  have ownsVacated : (session.vacated source).Owns origin exchange
      [fragment] := split
  have handed := owns.handed found isFragment
  refine SessionStep.Satisfies.changing (SessionStep.Satisfies.bind
    (perform_satisfies ownsVacated.keptSources handed.push_satisfies
      (fun _ => id)) ?_)
  intro result after ending
  obtain ⟨pools, rfl, known⟩ := ending
  match result with
  | .error error => exact known.elim
  | .ok (answer, changed) =>
      have ownsDelivered : (((session.vacated source).withPools
          pools).attended index changed).Owns origin exchange
            (Reassembler.delivered answer) :=
        known.2.perm ((live_attended_perm _ index changed).symm.append_left _)
      apply SessionStep.Satisfies.changing
      match answer with
      | .error error => exact SessionStep.Satisfies.pure ownsDelivered
      | .ok none => exact SessionStep.Satisfies.pure ownsDelivered
      | .ok (some packet) =>
          exact SessionStep.Satisfies.giving (keep_satisfies ownsDelivered)

theorem expire_satisfies {index now : Nat}
    (owns : session.Owns origin exchange []) :
    SessionStep.Satisfies (carryOut (.expire index now)) session
      (fun _ after => after.Owns origin exchange []) exchange.MayEnd := by
  apply withReassembler_satisfies owns
  intro reassembler found split
  apply SessionStep.Satisfies.bind (perform_satisfies owns.keptSources
    (split.expire_satisfies now).returned (fun _ => Or.inl))
  intro result after ending
  obtain ⟨pools, rfl, known⟩ := ending
  match result with
  | .error error => exact known.elim
  | .ok (late, changed) =>
      obtain ⟨same, consistent⟩ := known
      cases same
      have ownsAfter : ((session.withPools pools).attended index
          (reassembler.swept now)).Owns origin exchange [] :=
        consistent.perm (live_attended_perm _ index _).symm
      exact ownsAfter

theorem clear_satisfies {index : Nat} {choices : List Nat}
    (owns : session.Owns origin exchange []) :
    SessionStep.Satisfies (carryOut (.clear index choices)) session
      (fun _ after => after.Owns origin exchange []) exchange.MayEnd := by
  apply withReassembler_satisfies owns
  intro reassembler found split
  apply SessionStep.Satisfies.bind (perform_satisfies owns.keptSources
    split.clear_satisfies.returned (fun _ => Or.inl))
  intro result after ending
  obtain ⟨pools, rfl, known⟩ := ending
  match result with
  | .error error => exact known.elim
  | .ok changed =>
      obtain ⟨rfl, consistent⟩ := known
      have ownsAfter : ((session.withPools pools).attended index
          reassembler.cleared).Owns origin exchange [] :=
        consistent.perm (live_attended_perm (session.withPools pools) index
          reassembler.cleared).symm
      exact ownsAfter

theorem dropReassembler_satisfies {index : Nat} {choices : List Nat}
    (owns : session.Owns origin exchange []) :
    SessionStep.Satisfies (carryOut (.dropReassembler index choices)) session
      (fun _ after => after.Owns origin exchange []) exchange.MayEnd := by
  apply withReassembler_satisfies owns
  intro reassembler found split
  have ownsHeld : (session.unattended index).Owns origin exchange
      reassembler.fragments := split
  refine SessionStep.Satisfies.changing (SessionStep.Satisfies.bind
    (perform_satisfies ownsHeld.keptSources split.clear_satisfies.returned
      (fun _ => Or.inl)) ?_)
  intro result after ending
  obtain ⟨pools, rfl, known⟩ := ending
  cases result with
  | error error => exact known.elim
  | ok _ => exact SessionStep.Satisfies.pure known.2

/-- The session with several slots emptied. -/
def vacatedAll (session : Session) : List Nat → Session
  | [] => session
  | slot :: rest => (session.vacated slot).vacatedAll rest

theorem pools_vacatedAll :
    ∀ (slots : List Nat) (session : Session),
      (session.vacatedAll slots).pools = session.pools
  | [], _ => rfl
  | _ :: rest, _ => pools_vacatedAll rest _

/-- Packets taken out of different slots are in hand. -/
theorem live_perm_of_packets :
    ∀ {slots : List Nat} {session : Session} {packets : List Packet},
      slots.Nodup → slots.mapM session.packets.get? = some packets →
        packets.length = slots.length ∧
          session.live.Perm (packets ++ (session.vacatedAll slots).live)
  | [], session, packets, _, found => by
      cases found
      exact ⟨rfl, List.Perm.refl _⟩
  | slot :: rest, session, packets, nodup, found => by
      rw [List.nodup_cons] at nodup
      simp only [List.mapM_cons, Option.bind_eq_bind, Option.pure_def,
        Option.bind_eq_some_iff, Option.some.injEq] at found
      obtain ⟨packet, isThere, others, areThere, rfl⟩ := found
      have stay : rest.mapM (session.vacated slot).packets.get? =
          some others := by
        rw [← areThere]
        exact Table.mapM_get?_erase nodup.1
      obtain ⟨sameLength, perm⟩ := live_perm_of_packets nodup.2 stay
      exact ⟨congrArg Nat.succ sameLength,
        (live_perm_of_packet isThere).trans (perm.cons packet)⟩

theorem forM_vacate_satisfies {stopped : Stop → Prop} :
    ∀ {slots : List Nat} {session : Session},
      SessionStep.Satisfies (slots.forM vacate) session
        (fun _ after => after = session.vacatedAll slots) stopped
  | [], _ => rfl
  | _ :: _, _ => SessionStep.Satisfies.changing forM_vacate_satisfies

theorem reassemble_satisfies {pool : PoolId}
    {arrivals : List (Nat × Nat)} {slot deadline : Nat}
    {choices : List Nat} (owns : session.Owns origin exchange []) :
    SessionStep.Satisfies (reassemble pool arrivals slot deadline choices)
      session (fun _ after => after.Owns origin exchange [])
      exchange.MayEnd := by
  refine withPool_satisfies owns (SessionStep.Satisfies.get ?_)
  cases found : session.packetsIn? (arrivals.map Prod.snd) with
  | none => exact SessionStep.Satisfies.pure owns
  | some fragments =>
      simp only [packetsIn?] at found
      split at found
      · rename_i nodup
        obtain ⟨sameLength, perm⟩ := live_perm_of_packets nodup found
        have arrived : ((arrivals.map Prod.fst).zip fragments).map
            Prod.snd = fragments := by
          apply List.map_snd_zip
          simpa using Nat.le_of_eq sameLength
        have ownsFragments : (session.vacatedAll
            (arrivals.map Prod.snd)).Owns origin exchange fragments := by
          rw [Owns, pools_vacatedAll]
          exact Owns.perm owns perm
        apply SessionStep.Satisfies.bind forM_vacate_satisfies
        rintro _ _ rfl
        refine keepResult_satisfies ownsFragments
          (Pools.Consistent.reassemble_satisfies ?_)
        rw [arrived]
        exact ownsFragments
      · cases found

/-! ## Runs -/

/-- Every command keeps the pools consistent with the live packets, whether
what it asks for is done or refused. -/
theorem carryOut_satisfies {command : Command}
    (owns : session.Owns origin exchange [])
    (allowed : command.exchanges = true → exchange = .freely) :
    SessionStep.Satisfies (carryOut command) session
      (fun _ after => after.Owns origin exchange []) exchange.MayEnd := by
  cases command with
  | newPool =>
      refine SessionStep.Satisfies.get (SessionStep.Satisfies.changing ?_)
      have ownsMade : (session.making (session.made + 1)).Owns origin
          exchange [] := owns
      exact withPool_satisfies ownsMade (SessionStep.Satisfies.pure ownsMade)
  | allocate pool len slot =>
      refine withPool_satisfies owns (keepResult_satisfies owns ?_)
      exact (Pools.Consistent.allocate_satisfies owns pool len).mono
        (fun _ _ known => known.1) (fun _ _ known => known.1)
        (fun _ known => known)
  | packetFrom pool bytes slot =>
      exact withPool_satisfies owns (keepResult_satisfies owns
        (Pools.Consistent.packetFrom_satisfies owns pool bytes))
  | append slot bytes =>
      apply withPacket_satisfies owns
      intro packet found split
      exact updateResult_satisfies owns found
        ((split.append_satisfies bytes).mono (fun _ _ known => known.1)
          (fun _ _ known => known.1) (fun _ known => known))
  | release slot =>
      apply withPacket_satisfies owns
      intro packet found split
      exact updateResult_satisfies owns found split.release_satisfies
  | drop slot =>
      apply withPacket_satisfies owns
      intro packet found split
      have ownsPacket : (session.vacated slot).Owns origin exchange
          [packet] := split
      exact SessionStep.Satisfies.changing
        (SessionStep.Satisfies.giving (discard_satisfies ownsPacket))
  | copy pool source slot =>
      refine withPool_satisfies owns (withPacket_satisfies owns ?_)
      intro packet _ _
      exact keepResult_satisfies owns
        (Pools.Consistent.copyPacket_satisfies owns pool packet)
  | receive pool frame slot =>
      refine withPool_satisfies owns (SessionStep.Satisfies.get ?_)
      exact keepResult_satisfies owns
        (Pools.Consistent.receiveFrame_satisfies owns pool _)
  | slices slot offset len =>
      apply withPacket_satisfies owns
      intro packet _ _
      cases packet.slices? offset len with
      | none => exact breakOff_satisfies owns.keptSources (Or.inr rfl)
      | some pieces => exact SessionStep.Satisfies.pure owns
  | readAt slot offset destination =>
      apply withPacket_satisfies owns
      intro packet _ _
      cases packet.readAt offset destination with
      | copied count destination => exact SessionStep.Satisfies.pure owns
      | refused error => exact SessionStep.Satisfies.pure owns
      | outOfRange => exact breakOff_satisfies owns.keptSources (Or.inr rfl)
  | copyTo slot destination =>
      exact withPacket_satisfies owns
        (fun _ _ _ => SessionStep.Satisfies.pure owns)
  | writeZone slot zone only bytes =>
      apply withPacket_satisfies owns
      intro packet found split
      have ownsAfter : (session.filed slot
          (packet.writeZone zone only bytes)).Owns origin exchange [] :=
        (split.writeZone zone only bytes).perm
          (live_filed_perm session slot _).symm
      exact ownsAfter
  | swapFirst first second =>
      cases allowed rfl
      exact swapFirst_satisfies owns
  | writeFragmentHeader slot =>
      apply withPacket_satisfies owns
      intro packet found split
      exact updateResult_satisfies owns found
        split.writeFragmentHeader_satisfies
  | beginWalk pool slot mtu walk => exact beginWalk_satisfies owns
  | nextFragment walk slot => exact nextFragment_satisfies owns
  | collectFragments walk slot max =>
      apply withWalk_satisfies owns
      intro _ _ _
      exact SessionStep.Satisfies.giving (collectFragments_satisfies owns)
  | resumeWalk walk =>
      exact withWalk_satisfies owns
        (fun _ _ _ => SessionStep.Satisfies.changing owns)
  | restartWalk walk =>
      exact withWalk_satisfies owns
        (fun _ _ _ => SessionStep.Satisfies.changing owns)
  | endWalk walk =>
      exact withWalk_satisfies owns
        (fun _ _ _ => SessionStep.Satisfies.changing owns)
  | newReassembler pool index choices => exact newReassembler_satisfies owns
  | push index source now slot => exact push_satisfies owns
  | expire index now => exact expire_satisfies owns
  | clear index choices => exact clear_satisfies owns
  | dropReassembler index choices => exact dropReassembler_satisfies owns
  | reassemble pool arrivals slot deadline choices =>
      exact reassemble_satisfies owns

/-- A run that no command has ended keeps the pools consistent with the live
packets. -/
theorem runAll_owns {commands : List Command} {after : Session}
    (owns : session.Owns origin exchange [])
    (allowed : ∀ command ∈ commands,
      command.exchanges = true → exchange = .freely)
    (ran : session.runAll commands = .ok after) :
    after.Owns origin exchange [] := by
  apply runAll_keeps ?_ owns allowed ran
  intro command session after reply isAllowed owns stepped
  exact (step_keeps owns (carryOut_satisfies owns isAllowed)).of_ok stepped

/-! ## The end of a session -/

/-- Things given back one after the other take what they hold along. -/
theorem forM_satisfies {α : Type} {held : α → List Packet}
    {giveBack : α → SessionStep PUnit}
    (gives : ∀ {item : α} {rest : List Packet} {session : Session},
      (∀ source ∈ session.sources, source.Kept exchange) →
      session.pools.Consistent origin exchange (held item ++ rest) →
      SessionStep.Satisfies (giveBack item) session
        (fun _ after => ∃ pools, after = session.withPools pools ∧
          pools.Consistent origin exchange rest) exchange.MayStopReturns)
    {others : List Packet} :
    ∀ {items : List α} {session : Session},
      (∀ source ∈ session.sources, source.Kept exchange) →
      session.pools.Consistent origin exchange
        (items.flatMap held ++ others) →
      SessionStep.Satisfies (items.forM giveBack) session
        (fun _ after => ∃ pools, after = session.withPools pools ∧
          pools.Consistent origin exchange others) exchange.MayStopReturns
  | [], session, _, consistent => ⟨session.pools, rfl, consistent⟩
  | item :: rest, session, keptSources, consistent => by
      rw [List.flatMap_cons, List.append_assoc] at consistent
      apply SessionStep.Satisfies.bind (gives keptSources consistent)
      intro _ _ ending
      obtain ⟨pools, rfl, consistentRest⟩ := ending
      have keptAfter : ∀ source ∈ (session.withPools pools).sources,
          source.Kept exchange := keptSources
      apply (forM_satisfies gives keptAfter consistentRest).monoDone
      intro _ _ ending
      obtain ⟨last, rfl, consistentLast⟩ := ending
      exact ⟨last, rfl, consistentLast⟩

theorem clearing_satisfies {reassembler : Reassembler}
    {choices : List Nat} {rest : List Packet}
    (keptSources : ∀ source ∈ session.sources, source.Kept exchange)
    (consistent : session.pools.Consistent origin exchange
      (reassembler.fragments ++ rest)) :
    SessionStep.Satisfies (do
      let _ ← perform (reassembler.clear choices)) session
      (fun _ after => ∃ pools, after = session.withPools pools ∧
        pools.Consistent origin exchange rest) exchange.MayStopReturns := by
  apply SessionStep.Satisfies.bind (perform_returns keptSources
    consistent.clear_satisfies)
  intro result after ending
  obtain ⟨pools, rfl, known⟩ := ending
  cases result with
  | error error => exact known.elim
  | ok cleared => exact ⟨pools, rfl, known.2⟩

/-- At the end of a session nothing is left that holds segments. The end can be
stopped only where exchanges have made that possible. -/
theorem finish_satisfies (owns : session.Owns origin exchange [])
    (choices : Nat → List Nat) :
    match session.finish choices with
    | .ok pools => pools.Consistent origin exchange []
    | .error stop => exchange.MayStopReturns stop := by
  have ownsRested : session.rested.Owns origin exchange [] := owns
  -- The reassemblers go first, then the packets in the slots.
  have fragmentsFirst : session.pools.Consistent origin exchange
      (session.reassemblers.entries.flatMap (fun entry =>
        entry.2.fragments) ++ session.packets.values) := by
    apply Owns.perm owns
    rw [List.nil_append, live, Table.values, Table.values,
      List.flatMap_map]
    exact List.perm_append_comm
  have ending : SessionStep.Satisfies (do
      session.reassemblers.entries.forM fun entry => do
        let _ ← perform (entry.2.clear (choices entry.1))
      session.packets.values.forM discard) session.rested
      (fun _ after => after.pools.Consistent origin exchange [])
      exchange.MayStopReturns := by
    apply SessionStep.Satisfies.bind
      (forM_satisfies clearing_satisfies ownsRested.keptSources
        fragmentsFirst)
    intro _ _ ending
    obtain ⟨cleared, rfl, consistent⟩ := ending
    have keptAfter : ∀ source ∈ (session.rested.withPools cleared).sources,
        source.Kept exchange := ownsRested.keptSources
    rw [← List.flatMap_singleton' session.packets.values,
      ← List.append_nil (session.packets.values.flatMap _)] at consistent
    apply (forM_satisfies discarding_satisfies keptAfter consistent).monoDone
    intro _ _ ending
    obtain ⟨emptied, rfl, consistentLast⟩ := ending
    exact consistentLast
  unfold finish
  rcases SessionStep.run_bind _ session.rested _ with
    ⟨⟨_, emptied⟩, ran, same⟩ | ⟨stop, ran, same⟩
  · rw [same]
    exact ending.of_ok ran
  · rw [same]
    exact ending.of_error ran

theorem finish_consistent {choices : Nat → List Nat} {pools : Pools}
    (owns : session.Owns origin exchange [])
    (finished : session.finish choices = .ok pools) :
    pools.Consistent origin exchange [] := by
  have ending := finish_satisfies owns choices
  rw [finished] at ending
  exact ending

end Session
end PooledPackets
