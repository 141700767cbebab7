import PooledPackets.Proofs.Ownership.Conservation

/-!
# What an exchange of segments can break

Segments may be exchanged between any two packets. The numbers recorded for
the packets may be wrong afterwards, but every chain still consists of segments
that are out. So no segment comes back twice or with others behind it, and only
an exchange between packets of different pools can send a segment to a pool that
is not its own.
-/

namespace PooledPackets

namespace Stop

/-- A segment came back that was free, or that others hung behind. -/
def ofReuse : Stop → Bool
  | fault _ (.segmentAlreadyFree ..) => true
  | fault _ (.segmentStillLinked ..) => true
  | _ => false

/-- A segment came back to a pool that is not its own, or was found to hold
more than its pool lays out; also when this was found on the way out of a run
that had stopped already. -/
def ofForeign : Stop → Bool
  | fault _ (.foreignSegment ..) => true
  | fault _ (.payloadOutOfZone ..) => true
  | collapse => true
  | _ => false

end Stop

theorem Exchange.MayEnd.no_reuse {exchange : Exchange} {stop : Stop}
    (ends : exchange.MayEnd stop) : stop.ofReuse = false := by
  rcases ends with stops | rfl
  · cases stop with
    | fault policy violation =>
        cases violation with
        | segmentAlreadyFree pool segment => cases exchange <;> exact stops.elim
        | segmentStillLinked pool segment => cases exchange <;> exact stops.elim
        | _ => rfl
    | _ => rfl
  · rfl

theorem Exchange.MayEnd.no_foreign {stop : Stop}
    (ends : Exchange.withinPools.MayEnd stop) : stop.ofForeign = false := by
  rcases ends with stops | rfl
  · cases stop with
    | fault policy violation =>
        cases violation with
        | chainLengthMismatch declared actual => rfl
        | _ => exact stops.elim
    | collapse => exact stops.elim
    | outOfRange => rfl
  · rfl

namespace Session

variable {session : Session} {origin : Pools}

/-- Whether a command exchanges the segments of two packets that belong to
different pools. -/
def swapsAcross (session : Session) : Command → Bool
  | .swapFirst first second =>
      match session.packets.get? first, session.packets.get? second with
      | some one, some other =>
          !session.lends (.swapFirst first second) &&
            !(one.isReleased || other.isReleased) && one.pool != other.pool
      | _, _ => false
  | _ => false

/-- Whether a command that was carried out in a run exchanged the segments of
two packets that belong to different pools. -/
def hasSwappedAcross (session : Session) : List Command → Bool
  | [] => false
  | command :: rest =>
      match session.step command with
      | .error _ => false
      | .ok (_, after) =>
          session.swapsAcross command || after.hasSwappedAcross rest

/-! ## Exchanges within the pools -/

theorem same_pool_of_not_across {first second : Nat} {one other : Packet}
    (isFree : session.lends (.swapFirst first second) = false)
    (within : session.swapsAcross (.swapFirst first second) = false)
    (foundOne : session.packets.get? first = some one)
    (foundOther : session.packets.get? second = some other)
    (held : (one.isReleased || other.isReleased) = false) :
    one.pool = other.pool := by
  simpa [swapsAcross, isFree, foundOne, foundOther, held] using within

/-- Packets of one pool may exchange their chains: each of them has segments of
that pool afterwards. -/
theorem swapFirst_within {first second : Nat}
    (owns : session.Owns origin .withinPools [])
    (isFree : session.lends (.swapFirst first second) = false)
    (within : session.swapsAcross (.swapFirst first second) = false) :
    SessionStep.Satisfies (swapFirst first second) session
      (fun _ after => after.Owns origin .withinPools [])
      Exchange.withinPools.MayEnd := by
  apply swapFirst_keeps owns
  intro one other foundOne foundOther held
  have same := same_pool_of_not_across isFree within foundOne foundOther held
  have live : ∀ {slot : Nat} {packet : Packet},
      session.packets.get? slot = some packet →
        packet.Kept .withinPools := fun found =>
    (owns.perm (live_perm_of_packet found)).kept _ (List.mem_cons_self ..)
  constructor
  · intro segment member
    exact (live foundOther segment member).trans same.symm
  · intro segment member
    exact (live foundOne segment member).trans same

theorem step_within {command : Command}
    (owns : session.Owns origin .withinPools [])
    (within : session.swapsAcross command = false) :
    SessionStep.Satisfies (fun session => session.step command) session
      (fun _ after => after.Owns origin .withinPools [])
      Exchange.withinPools.MayEnd := by
  refine step_satisfies (fun _ => owns) fun isFree => ?_
  cases command with
  | swapFirst first second => exact swapFirst_within owns isFree within
  | _ => exact carryOut_satisfies owns (by simp [Command.exchanges])

/-- An exchange of segments is carried out, so what stops a run is a later
command. -/
theorem step_of_swapsAcross {command : Command}
    (across : session.swapsAcross command = true) :
    ∃ after, session.step command = .ok (.swapped true, after) := by
  cases command with
  | swapFirst first second =>
      cases foundOne : session.packets.get? first with
      | none => simp [swapsAcross, foundOne] at across
      | some one =>
          cases foundOther : session.packets.get? second with
          | none => simp [swapsAcross, foundOne, foundOther] at across
          | some other =>
              simp only [swapsAcross, foundOne, foundOther, Bool.and_eq_true,
                Bool.not_eq_true', bne_iff_ne, ne_eq] at across
              obtain ⟨⟨isFree, held⟩, foreign⟩ := across
              have different : first ≠ second := by
                rintro rfl
                rw [foundOne, Option.some.injEq] at foundOther
                exact foreign (congrArg Packet.pool foundOther)
              have contract : SessionStep.Satisfies (swapFirst first second)
                  session (fun reply _ => reply = .swapped true)
                  (fun _ => False) := by
                unfold swapFirst
                rw [if_neg different]
                apply SessionStep.Satisfies.get
                rw [foundOne]
                apply SessionStep.Satisfies.get
                rw [foundOther]
                apply SessionStep.Satisfies.ite
                · intro released
                  simp [held] at released
                · exact fun _ => rfl
              obtain ⟨⟨reply, after⟩, ran⟩ := contract.exists_ok
              cases contract.of_ok ran
              exact ⟨after, (step_of_free isFree).trans ran⟩
  | _ => cases across

/-- What is known at the end of a run that has exchanged segments within the
pools only. -/
theorem runAll_within :
    ∀ {commands : List Command} {session : Session},
      session.Owns origin .withinPools [] →
      session.hasSwappedAcross commands = false →
      match session.runAll commands with
      | .ok after => after.Owns origin .withinPools []
      | .error stop => Exchange.withinPools.MayEnd stop
  | [], _, owns, _ => owns
  | command :: rest, session, owns, within => by
      have notAcross : session.swapsAcross command = false := by
        apply eq_false_of_ne_true
        intro across
        obtain ⟨after, stepped⟩ := step_of_swapsAcross across
        simp [hasSwappedAcross, stepped, across] at within
      have contract := step_within owns notAcross
      simp only [runAll]
      cases stepped : session.step command with
      | error stop => exact contract.of_error stepped
      | ok result =>
          obtain ⟨reply, after⟩ := result
          simp only [hasSwappedAcross, stepped, Bool.or_eq_false_iff]
            at within
          exact runAll_within (contract.of_ok stepped) within.2

/-- What a run of a new session can be stopped by. -/
theorem runAll_stops {configs : List Config} {commands : List Command}
    {stop : Stop} (few : configs.length ≤ UInt32.size)
    (ran : (start (Pools.ofConfigs configs)).runAll commands =
      .error stop) :
    stop.ofReuse = false ∧
      (stop.ofForeign = true →
        (start (Pools.ofConfigs configs)).hasSwappedAcross commands =
          true) := by
  constructor
  · have ending : match (start (Pools.ofConfigs configs)).runAll
        commands with
      | .ok after => after.Owns (Pools.ofConfigs configs) .freely []
      | .error stop => Exchange.freely.MayEnd stop :=
      runAll_ends (fun owns => carryOut_satisfies owns fun _ => rfl)
        (start_owns few .freely)
    rw [ran] at ending
    exact ending.no_reuse
  · intro foreign
    cases across : (start (Pools.ofConfigs configs)).hasSwappedAcross
        commands with
    | true => rfl
    | false =>
        have ending := runAll_within (start_owns few .withinPools) across
        rw [ran] at ending
        simp [ending.no_foreign] at foreign

end Session

/-! ## Giving everything back -/

/-- Whether a command does nothing but drop a packet or a reassembler. -/
def Command.dismisses : Command → Bool
  | .drop _ => true
  | .dropReassembler _ _ => true
  | _ => false

/-- Whether a command drops the reassembler in a place, in whatever order that
drops its datagrams. -/
def Command.dropsReassembler (index : Nat) : Command → Bool
  | .dropReassembler other _ => index == other
  | _ => false

namespace Session

variable {session last : Session} {origin : Pools} {exchange : Exchange}
variable {ending : List Command}

/-- Some commands drop all that a session has in its slots. -/
def DroppedBy (session : Session) (ending : List Command) : Prop :=
  (∀ slot ∈ session.packets.keys, .drop slot ∈ ending) ∧
  ∀ index ∈ session.reassemblers.keys,
    ending.any (Command.dropsReassembler index) = true

/-- What is left of a session after some of its packets and reassemblers were
dropped. -/
structure Dismissed (session : Session) (ending : List Command)
    (last : Session) : Prop where
  walks_eq : last.walks = session.walks
  packets : ∀ slot, last.packets.get? slot =
    if .drop slot ∈ ending then none else session.packets.get? slot
  reassemblers : ∀ index, last.reassemblers.get? index =
    if ending.any (Command.dropsReassembler index) then none
    else session.reassemblers.get? index

theorem Dismissed.refl (session : Session) : session.Dismissed [] session where
  walks_eq := rfl
  packets := fun _ => by simp
  reassemblers := fun _ => by simp

theorem Dismissed.trans {command : Command} {between : Session}
    (first : session.Dismissed [command] between)
    (further : between.Dismissed ending last) :
    session.Dismissed (command :: ending) last where
  walks_eq := further.walks_eq.trans first.walks_eq
  packets := fun slot => by
    rw [further.packets, first.packets]
    by_cases later : Command.drop slot ∈ ending
    · simp [later]
    · simp [later]
  reassemblers := fun index => by
    rw [further.reassemblers, first.reassemblers]
    by_cases later : ending.any (Command.dropsReassembler index) = true
    · simp [later]
    · simp [later]

theorem dismissed_drop (session : Session) (slot : Nat) (pools : Pools) :
    session.Dismissed [.drop slot]
      ((session.vacated slot).withPools pools) where
  walks_eq := rfl
  packets := fun other => by
    simp [vacated, withPools, eq_comm]
  reassemblers := fun index => by
    simp [vacated, withPools, Command.dropsReassembler]

theorem dismissed_dropReassembler (session : Session) (index : Nat)
    (choices : List Nat) (pools : Pools) :
    session.Dismissed [.dropReassembler index choices]
      ((session.unattended index).withPools pools) where
  walks_eq := rfl
  packets := fun slot => by
    simp [unattended, withPools]
  reassemblers := fun other => by
    simp [unattended, withPools, Command.dropsReassembler]

/-- A command that only drops something can be stopped by nothing but a segment
of another pool. -/
theorem carryOut_dismisses {command : Command}
    (owns : session.Owns origin exchange [])
    (dismisses : command.dismisses = true) :
    SessionStep.Satisfies (carryOut command) session
      (fun _ after => after.Owns origin exchange [] ∧
        session.Dismissed [command] after) exchange.MayStopReturns := by
  cases command with
  | drop slot =>
      apply SessionStep.Satisfies.get
      cases found : session.packets.get? slot with
      | none =>
          have unchanged := dismissed_drop session slot session.pools
          rw [vacated_of_absent found] at unchanged
          exact ⟨owns, unchanged⟩
      | some packet =>
          have ownsPacket : (session.vacated slot).Owns origin exchange
              [packet] := owns.perm (live_perm_of_packet found)
          refine SessionStep.Satisfies.changing
            (SessionStep.Satisfies.giving ?_)
          apply (discarding_satisfies ownsPacket.keptSources
            ownsPacket).monoDone
          intro _ _ ending
          obtain ⟨pools, rfl, consistent⟩ := ending
          exact ⟨consistent, dismissed_drop session slot pools⟩
  | dropReassembler index choices =>
      apply SessionStep.Satisfies.get
      cases found : session.reassemblers.get? index with
      | none =>
          have unchanged :=
            dismissed_dropReassembler session index choices session.pools
          rw [unattended_of_absent found] at unchanged
          exact ⟨owns, unchanged⟩
      | some reassembler =>
          have split : (session.unattended index).pools.Consistent origin
              exchange (reassembler.fragments ++
                (session.unattended index).live) :=
            owns.perm (live_perm_of_reassembler found)
          have keptSources : ∀ source ∈ (session.unattended index).sources,
              source.Kept exchange := owns.keptSources
          refine SessionStep.Satisfies.changing (SessionStep.Satisfies.bind
            (perform_returns keptSources split.clear_satisfies) ?_)
          intro result _ ending
          obtain ⟨pools, rfl, known⟩ := ending
          cases result with
          | error error => exact known.elim
          | ok _ =>
              exact ⟨known.2,
                dismissed_dropReassembler session index choices pools⟩
  | _ => cases dismisses

theorem lends_of_rested {command : Command}
    (atRest : session.walks = .empty) : session.lends command = false := by
  simp [lends, atRest]

/-- Where no segment was exchanged across pools, packets and reassemblers can be
dropped in any order once all walks have ended. -/
theorem runAll_dismisses (bounded : exchange ≠ .freely) :
    ∀ {ending : List Command} {session : Session},
      session.Owns origin exchange [] → session.walks = .empty →
      (∀ command ∈ ending, command.dismisses = true) →
      ∃ last, session.runAll ending = .ok last ∧
        last.Owns origin exchange [] ∧ session.Dismissed ending last
  | [], session, owns, _, _ => ⟨session, rfl, owns, .refl session⟩
  | command :: rest, session, owns, atRest, dismiss => by
      have contract := carryOut_dismisses owns
        (dismiss command (List.mem_cons_self ..))
      have unstopped : SessionStep.Satisfies (carryOut command) session
          (fun _ after => after.Owns origin exchange [] ∧
            session.Dismissed [command] after) (fun _ => False) :=
        contract.mono (fun _ _ known => known)
          (fun _ stops => bounded stops.1)
      obtain ⟨⟨reply, after⟩, carried⟩ := unstopped.exists_ok
      obtain ⟨ownsAfter, dropped⟩ := unstopped.of_ok carried
      obtain ⟨last, ran, ownsLast, further⟩ := runAll_dismisses bounded
        ownsAfter (dropped.walks_eq.trans atRest)
        (fun other member => dismiss other (.tail _ member))
      have stepped := (step_of_free (lends_of_rested atRest)).trans carried
      refine ⟨last, ?_, ownsLast, dropped.trans further⟩
      simp only [runAll, stepped]
      exact ran

/-- Once all that a session had in its slots was dropped, nothing is live. -/
theorem Dismissed.live_eq (dismissed : session.Dismissed ending last)
    (all : session.DroppedBy ending) :
    last.live = [] := by
  have noPacket : last.packets.values = [] := by
    apply Table.values_eq_nil
    intro slot
    rw [dismissed.packets]
    split
    · rfl
    · rename_i kept
      cases found : session.packets.get? slot with
      | none => rfl
      | some packet =>
          refine absurd (all.1 slot ?_) kept
          exact List.mem_map_of_mem (Table.get?_eq_some_iff.mp found)
  have noReassembler : last.reassemblers.values = [] := by
    apply Table.values_eq_nil
    intro index
    rw [dismissed.reassemblers]
    split
    · rfl
    · rename_i kept
      cases found : session.reassemblers.get? index with
      | none => rfl
      | some reassembler =>
          refine absurd (all.2 index ?_) kept
          exact List.mem_map_of_mem (Table.get?_eq_some_iff.mp found)
  simp [live, noPacket, noReassembler]

theorem finish_stops {choices : Nat → List Nat} {stop : Stop}
    (owns : session.Owns origin exchange [])
    (finished : session.finish choices = .error stop) :
    exchange.MayStopReturns stop := by
  have ending := finish_satisfies owns choices
  rw [finished] at ending
  exact ending

/-- However segments were exchanged between packets of pools with numbers of
their own, none of them comes back while it is free or while others hang behind
it, and one that comes to a pool that is not its own, or holds more than that
pool lays out, was brought there by an exchange between packets of different
pools. Without such an exchange a session can end its walks
and drop its packets and its reassemblers in any order, though what it has
recorded of them may be wrong; when all are dropped, every pool has all its
segments back. -/
theorem exchanges_contained {configs : List Config}
    (few : configs.length ≤ UInt32.size) (commands : List Command) :
    match (start (Pools.ofConfigs configs)).runAll commands with
    | .error stop =>
        stop.ofReuse = false ∧
          (stop.ofForeign = true →
            (start (Pools.ofConfigs configs)).hasSwappedAcross commands =
              true)
    | .ok session =>
        (∀ choices stop, session.finish choices = .error stop →
          stop.ofReuse = false ∧
            (start (Pools.ofConfigs configs)).hasSwappedAcross commands =
              true) ∧
        ((start (Pools.ofConfigs configs)).hasSwappedAcross commands =
            false →
          ∀ ending : List Command,
            (∀ command ∈ ending, command.dismisses = true) →
            ∃ last, session.rested.runAll ending = .ok last ∧
              (session.DroppedBy ending →
                ∀ id config made, configs[id]? = some config →
                  Pool.ofConfig? id config = some made →
                  (last.pools.get id).freeCount =
                    config.segmentCount)) := by
  cases ran : (start (Pools.ofConfigs configs)).runAll commands with
  | error stop => exact runAll_stops few ran
  | ok session =>
      have ownsFreely : session.Owns (Pools.ofConfigs configs) .freely [] :=
        runAll_owns (start_owns few .freely) (fun _ _ _ => rfl) ran
      have ownsWithin : (start (Pools.ofConfigs configs)).hasSwappedAcross
          commands = false →
          session.Owns (Pools.ofConfigs configs) .withinPools [] := by
        intro within
        have ending := runAll_within (start_owns few .withinPools) within
        rw [ran] at ending
        exact ending
      refine ⟨fun choices stop finished => ⟨?_, ?_⟩, ?_⟩
      · have stops := finish_stops ownsFreely finished
        exact Exchange.MayEnd.no_reuse (Or.inl stops.mayStop)
      · cases across : (start (Pools.ofConfigs configs)).hasSwappedAcross
            commands with
        | true => rfl
        | false =>
            have stops := finish_stops (ownsWithin across) finished
            cases stops.1
      · intro within ending dismiss
        have ownsRested : session.rested.Owns (Pools.ofConfigs configs)
            .withinPools [] := ownsWithin within
        obtain ⟨last, ranLast, ownsLast, dismissed⟩ :=
          runAll_dismisses (by simp) ownsRested rfl dismiss
        refine ⟨last, ranLast, ?_⟩
        intro all id config made given accepted
        have nothingLive : last.live = [] := dismissed.live_eq all
        apply (ownsLast.conserves
          (Pools.size_ofConfigs given accepted)).idle
        rw [nothingLive, List.flatMap_nil]

/-- Packets of different lengths exchange their segments, so that what is
recorded of them is wrong; a fragment is held at the end. Dropped in an order
other than that of their slots, they leave all six segments free. -/
theorem exchanges_contained_of_two :
    let config : Config :=
      { segmentCapacity := 8, segmentCount := 6, headerReserve := 2 }
    let commands : List Command :=
      [.newPool, .packetFrom 0 [1, 2, 3, 4, 5, 6, 7] 0,
        .packetFrom 0 [8, 9] 1, .newReassembler 0 0 [], .beginWalk 0 0 4 0,
        .nextFragment 0 2, .endWalk 0, .push 0 2 0 3, .swapFirst 0 1]
    ∃ session last,
      (start (Pools.ofConfigs [config])).runAll commands = .ok session ∧
      session.rested.runAll [.drop 1, .dropReassembler 0 [], .drop 0] =
        .ok last ∧
      (last.pools.get 0).freeCount = 6 := by
  intro config commands
  have contained := @exchanges_contained [config] (by decide) commands
  have goesOn : ((start (Pools.ofConfigs [config])).runAll
      commands).toOption.any (fun session =>
        session.packets.keys == [0, 1] &&
          session.reassemblers.keys == [0]) = true := by
    decide +kernel
  have within : (start (Pools.ofConfigs [config])).hasSwappedAcross
      commands = false := by
    decide +kernel
  have accepted : (Pool.ofConfig? 0 config).isSome = true := by
    decide +kernel
  obtain ⟨made, isMade⟩ := Option.isSome_iff_exists.mp accepted
  cases ran : (start (Pools.ofConfigs [config])).runAll commands with
  | error stop => simp [ran, Except.toOption] at goesOn
  | ok session =>
      simp only [ran, Except.toOption, Option.any_some, Bool.and_eq_true,
        beq_iff_eq] at goesOn
      rw [ran] at contained
      obtain ⟨last, ranLast, allFree⟩ := contained.2 within
        [.drop 1, .dropReassembler 0 [], .drop 0] (by decide)
      refine ⟨session, last, rfl, ranLast, ?_⟩
      apply allFree ?_ 0 config made rfl isMade
      rw [DroppedBy, goesOn.1, goesOn.2]
      decide

end Session
end PooledPackets
