import PooledPackets.Proofs.Fragments.Gathering

/-!
# Splitting a packet and putting it together again

Whatever packet is split, for whatever link and in whatever pool, a
reassembler that is handed the fragments in any order delivers a packet with
the same payload when it gets the last one.
-/

namespace PooledPackets

/-- Clock readings from each of which on a span can be shown, all but the first
of them before that span after the first one is over. -/
structure Duration.Timely (span : Duration) (readings : List Nat) : Prop where
  shown : ∀ reading ∈ readings, ∃ deadline,
    span.after? reading = some deadline
  inTime : ∀ first later deadline, readings = first :: later →
    span.after? first = some deadline →
      ∀ reading ∈ later, reading < deadline

/-- When a fragment arrives it is either the first one or in time. -/
theorem Duration.Timely.stage {span : Duration} {first : Nat}
    {later : List Nat} (timely : span.Timely (first :: later)) {deadline : Nat}
    (ends : span.after? first = some deadline) {taken left : List Nat}
    {now : Nat} (split : first :: later = taken ++ now :: left) :
    ∃ given, span.after? now = some given ∧
      (taken = [] → given = deadline) ∧ (taken ≠ [] → now < deadline) := by
  obtain ⟨given, isGiven⟩ := timely.shown now (by rw [split]; simp)
  refine ⟨given, isGiven, ?_, ?_⟩
  · rintro rfl
    rw [List.nil_append, List.cons.injEq] at split
    rw [split.1, isGiven, Option.some.injEq] at ends
    exact ends
  · intro begun
    obtain ⟨head, rest, rfl⟩ := List.exists_cons_of_ne_nil begun
    rw [List.cons_append, List.cons.injEq] at split
    apply timely.inTime first later deadline rfl ends
    rw [split.2]
    simp

namespace Reassembler

/-- A reassembler takes fragments in one after the other: each is pushed in
whatever state the pools are then, and completes no datagram. -/
inductive TakesIn (reassembler : Reassembler) :
    List (Nat × Packet) → Reassembler → Prop
  | nothing : TakesIn reassembler [] reassembler
  | another {taken : List (Nat × Packet)} {between after : Reassembler}
      {now : Nat} {fragment : Packet} {pools pools' : Pools}
      (before : TakesIn reassembler taken between)
      (pushed : between.push fragment now pools =
        .done (.ok none, after) pools') :
      TakesIn reassembler (taken ++ [(now, fragment)]) after

variable {reassembler between : Reassembler} {division : Division}
variable {arrivals taken left : List (Nat × Packet)}
variable {now given deadline : Nat} {fragment : Packet}

/-- Everything that is known of a reassembler while the fragments of a packet
arrive. -/
structure Expects (reassembler : Reassembler) (division : Division)
    (arrivals : List (Nat × Packet)) (deadline : Nat) : Prop where
  vacant : reassembler.Gathers division deadline []
  arranged : division.Arranged reassembler.limits.holdLimit
    (arrivals.map Prod.snd)
  stage : ∀ taken now fragment left,
    arrivals = taken ++ (now, fragment) :: left → ∃ given,
      reassembler.limits.timeout.after? now = some given ∧
      (taken = [] → given = deadline) ∧ (taken ≠ [] → now < deadline)

/-- A reassembler with room expects fragments whose readings are timely. -/
theorem exists_expects
    (vacant : reassembler.pending.get? division.datagram.toNat = none)
    (fits : reassembler.inFlight < reassembler.limits.maxDatagrams)
    (arranged : division.Arranged reassembler.limits.holdLimit
      (arrivals.map Prod.snd)) (nonempty : arrivals ≠ [])
    (timely : reassembler.limits.timeout.Timely (arrivals.map Prod.fst)) :
    ∃ deadline, reassembler.Expects division arrivals deadline := by
  obtain ⟨first, later, rfl⟩ := List.exists_cons_of_ne_nil nonempty
  rw [List.map_cons] at timely
  obtain ⟨deadline, ends⟩ := timely.shown first.1 (List.mem_cons_self ..)
  refine ⟨deadline, gathers_nothing vacant fits, arranged, ?_⟩
  intro taken now fragment left split
  have readings := congrArg (List.map Prod.fst) split
  rw [List.map_cons, List.map_append, List.map_cons] at readings
  obtain ⟨given, isGiven, atStart, inTime⟩ := timely.stage ends readings
  refine ⟨given, isGiven, ?_, ?_⟩
  · intro nothing
    exact atStart (by rw [nothing]; rfl)
  · intro begun
    exact inTime fun nothing => begun (List.map_eq_nil_iff.mp nothing)

/-- Each fragment but the last one is held, whatever the state of the pools
is. -/
theorem Expects.push_waits
    (expects : reassembler.Expects division arrivals deadline)
    (split : arrivals = taken ++ (now, fragment) :: left)
    (missing : left ≠ [])
    (gathers : between.Gathers division deadline (taken.map Prod.snd))
    (sameLimits : between.limits = reassembler.limits) :
    ∃ after : Reassembler,
      (∀ pools, between.push fragment now pools =
        .done (.ok none, after) pools) ∧
      after.pool = between.pool ∧ after.limits = between.limits ∧
      after.Gathers division deadline
        ((taken ++ [(now, fragment)]).map Prod.snd) := by
  obtain ⟨given, reading, first, timely⟩ := expects.stage _ _ _ _ split
  have arranged := expects.arranged
  rw [split, List.map_append, List.map_cons, ← sameLimits] at arranged
  obtain ⟨after, waits, samePool, keepsLimits, gathersMore⟩ :=
    gathers.waits arranged (by simpa using missing)
      (fun nothing => first (List.map_eq_nil_iff.mp nothing))
      (fun begun => timely fun nothing => begun (by rw [nothing]; rfl))
  rw [← sameLimits] at reading
  refine ⟨after, fun pools => ?_, samePool, keepsLimits, ?_⟩
  · rw [push_eq reading]
    exact waits _ pools
  · rw [List.map_append]
    exact gathersMore

theorem Expects.push_delivers {pools origin : Pools}
    {others : List Packet}
    (expects : reassembler.Expects division arrivals deadline)
    (split : arrivals = taken ++ [(now, fragment)])
    (gathers : between.Gathers division deadline (taken.map Prod.snd))
    (sameLimits : between.limits = reassembler.limits)
    (takes : (pools.get between.pool).TakesWhole between.pool division)
    (consistent : pools.Consistent origin .never
      (fragment :: (between.fragments ++ others))) :
    ∃ whole after pools',
      between.push fragment now pools =
        .done (.ok (some whole), after) pools' ∧
      whole.toBytes = division.whole ∧
      whole.length = division.whole.length := by
  obtain ⟨given, reading, first, timely⟩ := expects.stage _ _ _ _ split
  have arranged := expects.arranged
  rw [split, List.map_append, ← sameLimits] at arranged
  have keepsNothing : between.KeepsHand .never (fun _ => []) := by
    intro other inside packet member
    simp at member
  have delivered := gathers.delivers arranged
    (fun nothing => first (List.map_eq_nil_iff.mp nothing))
    (fun begun => timely fun nothing => begun (by rw [nothing]; rfl))
    takes consistent keepsNothing
  obtain ⟨⟨_, after⟩, pools', isDone, whole, rfl, payload, length, _⟩ :=
    delivered.exists_done
  rw [← sameLimits] at reading
  refine ⟨whole, after, pools', ?_, payload, length⟩
  rw [push_eq reading]
  exact isDone

theorem Expects.gathers
    (expects : reassembler.Expects division arrivals deadline)
    (takesIn : reassembler.TakesIn taken between)
    (split : arrivals = taken ++ left) (missing : left ≠ []) :
    between.Gathers division deadline (taken.map Prod.snd) ∧
      between.pool = reassembler.pool ∧
      between.limits = reassembler.limits := by
  induction takesIn generalizing left with
  | nothing => exact ⟨expects.vacant, rfl, rfl⟩
  | @another taken between after now fragment pools pools' before pushed
      inductionHypothesis =>
      rw [List.append_assoc, List.singleton_append] at split
      obtain ⟨gathers, samePool, sameLimits⟩ :=
        inductionHypothesis split (by simp)
      obtain ⟨next, waits, nextPool, nextLimits, gathersMore⟩ :=
        expects.push_waits split missing gathers sameLimits
      rw [waits pools] at pushed
      cases pushed
      exact ⟨gathersMore, nextPool.trans samePool,
        nextLimits.trans sameLimits⟩

end Reassembler

namespace Pools.Consistent

variable {pools origin : Pools} {others : List Packet}
variable {division : Division} {deadline : Nat} {choices : List Nat}

/-- Reassembly delivers the packet with the last of its pieces. -/
theorem reassembleFrom_delivers :
    ∀ {left : List (Nat × Packet)} {taken : List Packet}
      {reassembler : Reassembler} {latest : UInt32} {pools : Pools},
      reassembler.Gathers division deadline taken →
      division.Arranged reassembler.limits.holdLimit
        (taken ++ left.map Prod.snd) →
      left ≠ [] → (∀ arrival ∈ left, arrival.1 < deadline) →
      (pools.get reassembler.pool).TakesWhole reassembler.pool division →
      pools.Consistent origin .never
        (left.map Prod.snd ++ (reassembler.fragments ++ others)) →
      (Pool.reassembleFrom reassembler deadline choices latest left
        pools).Satisfies
          (fun packet _ => packet.toBytes = division.whole ∧
            packet.length = division.whole.length)
          (fun _ _ => False) (fun _ => False)
  | [], _, _, _, _, _, _, missing, _, _, _ => absurd rfl missing
  | (now, fragment) :: later, taken, reassembler, _, pools, gathers,
      arranged, _, inTime, takes, consistent => by
      have isInTime : now < deadline :=
        inTime (now, fragment) (List.mem_cons_self ..)
      have keeps := consistent.keepsHand
      have handed : pools.Consistent origin .never
          (fragment :: (reassembler.fragments ++
            (later.map Prod.snd ++ others))) := by
        refine consistent.perm (List.Perm.cons _ ?_)
        exact List.perm_append_comm_assoc ..
      apply Outcome.Satisfies.ite
        (fun isLate => absurd isInTime (Nat.not_lt_of_le isLate))
      intro _
      -- The last piece completes the packet; any other one keeps gathering.
      cases later with
      | nil =>
          apply Outcome.Satisfies.bind (gathers.delivers arranged
            (fun _ => rfl) (fun _ => isInTime) takes handed keeps)
          rintro ⟨_, changed⟩ after
            ⟨packet, rfl, payload, length, consistentAfter⟩
          have leftovers : after.Consistent origin .never
              ([] ++ (changed.fragments ++ (packet :: others))) :=
            consistentAfter.perm List.perm_middle.symm
          apply Outcome.Satisfies.bind
            leftovers.dropLeftovers_satisfies
          exact fun _ _ _ => Outcome.Satisfies.pure ⟨payload, length⟩
      | cons next rest =>
          obtain ⟨after, waits, samePool, sameLimits, gathersMore⟩ :=
            gathers.waits arranged (by simp) (fun _ => rfl)
              (fun _ => isInTime)
          have answered : (reassembler.pushUntil (fun reassembler =>
              (next :: rest).map Prod.snd ++ reassembler.fragments)
                fragment now deadline pools).Satisfies _ _ _ :=
            handed.pushUntil_satisfies keeps
          rw [waits] at answered
          have consistentAfter : pools.Consistent origin .never
              (after.fragments ++
                ((next :: rest).map Prod.snd ++ others)) :=
            answered.2
          rw [Operation.bind_of_done (waits _ pools)]
          rw [← samePool] at takes
          rw [List.map_cons, List.append_cons, ← sameLimits] at arranged
          apply reassembleFrom_delivers gathersMore arranged (by simp)
            (fun arrival member => inTime arrival (.tail _ member)) takes
          apply consistentAfter.perm
          exact List.perm_append_comm_assoc ..

end Pools.Consistent

namespace Session

variable {configs : List Config} {session last : Session}
variable {division : Division} {reassembler : Reassembler}

theorem Reached.reassemble_delivers (reached : last.Reached configs)
    {id : PoolId} {arrivals : List (Nat × Packet)} {slots : List Nat}
    {deadline : Nat} (choices : List Nat)
    (arranged : division.Arranged
      (last.pools.get id).config.reassembly.holdLimit
        (arrivals.map Prod.snd))
    (fits : 0 < (last.pools.get id).config.reassembly.maxDatagrams)
    (inSlots : last.packetsIn? slots = some (arrivals.map Prod.snd))
    (inTime : ∀ arrival ∈ arrivals, arrival.1 < deadline)
    (takes : (last.pools.get id).TakesWhole id division)
    (begun : arrivals ≠ []) :
    ∃ whole pools,
      Pool.reassemble id arrivals deadline choices last.pools =
        .done whole pools ∧
      whole.toBytes = division.whole ∧
      whole.length = division.whole.length := by
  have distinct : slots.Nodup ∧
      slots.mapM last.packets.get? = some (arrivals.map Prod.snd) := by
    unfold packetsIn? at inSlots
    split at inSlots
    · rename_i nodup
      exact ⟨nodup, inSlots⟩
    · cases inSlots
  have consistent : last.pools.Consistent (Pools.ofConfigs configs) .never
      (arrivals.map Prod.snd ++ ([] ++ (last.vacatedAll slots).live)) :=
    reached.owns.perm (live_perm_of_packets distinct.1 distinct.2).2
  have vacant : (⟨id, (last.pools.get id).config.reassembly, .empty⟩ :
      Reassembler).Gathers division deadline [] :=
    Reassembler.gathers_nothing rfl fits
  have delivered : (Pool.reassemble id arrivals deadline choices
      last.pools).Satisfies
        (fun packet _ => packet.toBytes = division.whole ∧
          packet.length = division.whole.length)
        (fun _ _ => False) (fun _ => False) := by
    have forPool : (Reassembler.forPool id last.pools).Satisfies
        (fun reassembler after => reassembler =
          ⟨id, (last.pools.get id).config.reassembly, .empty⟩ ∧
            after = last.pools)
        (fun _ _ => False) (fun _ => False) :=
      Outcome.Satisfies.readPool (Outcome.Satisfies.pure ⟨rfl, rfl⟩)
    apply Outcome.Satisfies.bind forPool
    intro _ _ ending
    obtain ⟨rfl, rfl⟩ := ending
    exact Pools.Consistent.reassembleFrom_delivers vacant arranged begun
      inTime takes consistent
  obtain ⟨whole, pools, isDone, known⟩ := delivered.exists_done
  exact ⟨whole, pools, isDone, known⟩

theorem Reached.takesWhole (reached : last.Reached configs)
    {fragmenter : Fragmenter} {id : PoolId}
    (sound : fragmenter.source.Sound)
    (admits : (last.pools.get id).Admits id fragmenter.pool
      fragmenter.source.length) :
    (last.pools.get id).TakesWhole id (fragmenter.division
      ((Pools.ofConfigs configs).get fragmenter.pool).layout) := by
  have length : (fragmenter.division ((Pools.ofConfigs configs).get
      fragmenter.pool).layout).whole.length = fragmenter.source.length :=
    sound.length_toBytes
  constructor
  · rw [length]
    exact admits
  · intro own
    rw [reached.layout_eq, ← own]
    exact Nat.le_refl _

/-- The fragments of a packet, handed to a reassembler in any order in which
they are in reach, are held until the last one comes, which delivers the packet.
So does a reassembly of all of them. -/
theorem split_round_trip {holder : Session} {slot mtu index : Nat}
    {packet : Packet} {maker : PoolId} {fragmenter : Fragmenter}
    {pools : Pools} {fragments : List Packet}
    {arrivals : List (Nat × Packet)}
    (reached : session.Reached configs)
    (isPacket : session.packets.get? slot = some packet)
    (begun : Pool.fragmentForLink maker packet mtu session.pools =
      .done fragmenter pools)
    (yields : fragmenter.Yields configs fragments)
    (arrived : (arrivals.map Prod.snd).Perm fragments)
    (holds : holder.Reached configs)
    (found : holder.reassemblers.get? index = some reassembler)
    (vacant :
      reassembler.pending.get? fragmenter.datagram.toNat = none)
    (fits : reassembler.inFlight < reassembler.limits.maxDatagrams)
    (reach : Packet.InReach (arrivals.map Prod.snd)
        reassembler.limits.holdLimit ∨
      arrivals.map Prod.snd = fragments) :
    (reassembler.limits.timeout.Timely (arrivals.map Prod.fst) →
      ∀ taken now fragment left between,
        arrivals = taken ++ (now, fragment) :: left →
        reassembler.TakesIn taken between →
        (left ≠ [] → ∀ pools, ∃ after,
          between.push fragment now pools =
            .done (.ok none, after) pools) ∧
        (left = [] → ∀ last index source, Reached configs last →
          last.reassemblers.get? index = some between →
          last.packets.get? source = some fragment →
          (last.pools.get reassembler.pool).Admits reassembler.pool maker
            packet.length →
          ∃ whole after pools, between.push fragment now last.pools =
              .done (.ok (some whole), after) pools ∧
            whole.toBytes = packet.toBytes ∧
            whole.length = packet.length)) ∧
    ∀ last slots deadline choices, Reached configs last →
      last.packetsIn? slots = some (arrivals.map Prod.snd) →
      (∀ arrival ∈ arrivals, arrival.1 < deadline) →
      (last.pools.get reassembler.pool).Admits reassembler.pool maker
        packet.length →
      ∃ whole pools,
        Pool.reassemble reassembler.pool arrivals deadline choices
          last.pools = .done whole pools ∧
        whole.toBytes = packet.toBytes ∧
        whole.length = packet.length := by
  have sound : packet.Sound := by
    apply reached.owns.kept packet
    exact (live_perm_of_packet isPacket).mem_iff.mpr
      (List.mem_cons_self ..)
  obtain ⟨underway, rfl, rfl, atStart⟩ :=
    Fragmenter.begun_of_fragmentForLink sound begun
  have areAll := yields.pieces underway
  rw [atStart] at areAll
  have length : (fragmenter.division ((Pools.ofConfigs configs).get
      fragmenter.pool).layout).whole.length = fragmenter.source.length :=
    sound.length_toBytes
  have arranged : (fragmenter.division ((Pools.ofConfigs configs).get
      fragmenter.pool).layout).Arranged reassembler.limits.holdLimit
        (arrivals.map Prod.snd) := by
    refine ⟨⟨fragments, areAll, arrived.symm⟩, reach.imp id ?_⟩
    intro inOrder
    rw [inOrder]
    exact areAll
  have nonempty : arrivals ≠ [] := by
    rintro rfl
    have nothing := arrived.symm.eq_nil
    rw [nothing] at areAll
    cases areAll
  refine ⟨?_, ?_⟩
  · intro timely taken now fragment left between order takesIn
    obtain ⟨deadline, expects⟩ := Reassembler.exists_expects vacant fits
      arranged nonempty timely
    obtain ⟨gathers, samePool, sameLimits⟩ :=
      expects.gathers takesIn order (by simp)
    refine ⟨fun missing pools => ?_, ?_⟩
    · obtain ⟨after, waits, _⟩ :=
        expects.push_waits order missing gathers sameLimits
      exact ⟨after, waits pools⟩
    · rintro rfl last place source isReached isThere isFragment admits
      have takes := isReached.takesWhole sound admits
      rw [← samePool] at takes
      have delivered := expects.push_delivers order gathers sameLimits
        takes (isReached.owns.handed isThere isFragment)
      rw [length] at delivered
      exact delivered
  · intro last slots deadline choices isReached inSlots inTime admits
    have sameLimits : (last.pools.get reassembler.pool).config.reassembly =
        reassembler.limits := by
      rw [isReached.config_eq]
      exact (holds.accounted index reassembler found).1.symm
    have holdsAny := Nat.zero_lt_of_lt fits
    rw [← sameLimits] at arranged holdsAny
    have whole := isReached.reassemble_delivers choices arranged holdsAny
      inSlots inTime (isReached.takesWhole sound admits) nonempty
    rw [length] at whole
    exact whole

/-- Two fragments of a packet, the second one first, for a pool that has to copy
them. -/
theorem split_round_trip_of_two :
    let chained : Config :=
      { segmentCapacity := 4, segmentCount := 4, headerReserve := 1 }
    let single : Config :=
      { segmentCapacity := 6, segmentCount := 2, headerReserve := 0,
        chaining := false }
    let configs := [chained, single]
    ∃ session packet fragmenter begun first second reassembler between last
        whole after pools,
      Reached configs session ∧ session.packets.get? 0 = some packet ∧
      Pool.fragmentForLink 0 packet 2 session.pools =
        .done fragmenter begun ∧
      fragmenter.Yields configs [first, second] ∧
      Reassembler.TakesIn reassembler [(0, second)] between ∧
      Reached configs last ∧ between.push first 9 last.pools =
        .done (.ok (some whole), after) pools ∧
      whole.toBytes = packet.toBytes ∧ whole.length = packet.length := by
  intro chained single configs
  have plays : (do
      let session ← ((start (Pools.ofConfigs configs)).runAll
        [.newPool, .newPool, .packetFrom 0 [1, 2, 3] 0,
          .newReassembler 1 0 []]).toOption
      let midway ← ((start (Pools.ofConfigs configs)).runAll
        [.newPool, .packetFrom 0 [1, 2, 3] 0, .beginWalk 0 0 2 0,
          .nextFragment 0 1]).toOption
      let holder ← ((start (Pools.ofConfigs configs)).runAll
        [.newPool, .newPool, .packetFrom 0 [1, 2, 3] 0,
          .beginWalk 0 0 2 0, .collectFragments 0 1 2,
          .newReassembler 1 0 []]).toOption
      let packet ← session.packets.get? 0
      let begun ← (Pool.fragmentForLink 0 packet 2 session.pools).done?
      let made ← (begun.1.next session.pools).done?
      let one ← made.1.1
      let first ← one.toOption
      let ended ← (made.1.2.next midway.pools).done?
      let other ← ended.1.1
      let second ← other.toOption
      let reassembler ← holder.reassemblers.get? 0
      let stepped ← (holder.step (.push 0 2 0 9)).toOption
      let answer ← stepped.1.answer?
      pure (decide (answer = none ∧ ended.1.2.finished = true ∧
        holder.packets.get? 2 = some second ∧
        stepped.2.packets.get? 1 = some first ∧
        reassembler.pool = 1 ∧ reassembler.limits = {} ∧
        reassembler.inFlight = 0 ∧
        reassembler.pending.contains begun.1.datagram.toNat = false ∧
        packet.length ≤ (stepped.2.pools.get 1).layout.maxPayload ∧
        (stepped.2.pools.get 1).layout.segmentsFor packet.length ≤
          (stepped.2.pools.get 1).freeCount))) = some true := by
    decide +kernel
  obtain ⟨session, ranSession, plays⟩ := Option.bind_eq_some_iff.mp plays
  obtain ⟨midway, ranMidway, plays⟩ := Option.bind_eq_some_iff.mp plays
  obtain ⟨holder, ranHolder, plays⟩ := Option.bind_eq_some_iff.mp plays
  obtain ⟨packet, isPacket, plays⟩ := Option.bind_eq_some_iff.mp plays
  obtain ⟨⟨fragmenter, begun⟩, split, plays⟩ :=
    Option.bind_eq_some_iff.mp plays
  obtain ⟨⟨⟨_, further⟩, made⟩, isMade, plays⟩ :=
    Option.bind_eq_some_iff.mp plays
  obtain ⟨one, rfl, plays⟩ := Option.bind_eq_some_iff.mp plays
  obtain ⟨first, isFirst, plays⟩ := Option.bind_eq_some_iff.mp plays
  obtain ⟨⟨⟨_, finished⟩, ended⟩, isEnded, plays⟩ :=
    Option.bind_eq_some_iff.mp plays
  obtain ⟨other, rfl, plays⟩ := Option.bind_eq_some_iff.mp plays
  obtain ⟨second, isSecond, plays⟩ := Option.bind_eq_some_iff.mp plays
  obtain ⟨reassembler, found, plays⟩ := Option.bind_eq_some_iff.mp plays
  obtain ⟨⟨reply, last⟩, isStep, plays⟩ := Option.bind_eq_some_iff.mp plays
  obtain ⟨answer, isAnswer, plays⟩ := Option.bind_eq_some_iff.mp plays
  rw [toOption_eq_some_iff] at ranSession ranMidway ranHolder
  rw [toOption_eq_some_iff] at isFirst isSecond isStep
  subst isFirst isSecond
  rw [Outcome.done?_eq_some_iff] at split isMade isEnded
  obtain ⟨datagram, rfl⟩ := Reply.answer?_eq_some_iff.mp isAnswer
  obtain ⟨rfl, isFinished, inSecond, inFirst, isPool, isLimits, isIdle,
    isVacant, fitsOne, hasFree⟩ := of_decide_eq_true (Option.some.inj plays)
  have reached : session.Reached configs := ⟨by decide, _, by decide, ranSession⟩
  have holds : holder.Reached configs := ⟨by decide, _, by decide, ranHolder⟩
  have lasts : last.Reached configs := holds.step rfl isStep
  have yields : fragmenter.Yields configs [first, second] :=
    .made reached isMade (.made ⟨by decide, _, by decide, ranMidway⟩ isEnded
      (.finished isFinished))
  have round := @split_round_trip configs session reassembler
    holder 0 2 0 packet 0 fragmenter begun [first, second]
    [(0, second), (9, first)] reached isPacket split yields
    (.swap _ _ _) holds found (Table.contains_eq_false_iff.mp isVacant)
    (by rw [isIdle, isLimits]; exact Nat.succ_pos 15)
    (Or.inl (Packet.inReach_of_length_le
      (by rw [isLimits]; exact Nat.le_add_left 2 62)))
  have timely : reassembler.limits.timeout.Timely [0, 9] := by
    rw [isLimits]
    refine ⟨?_, ?_⟩
    · simp [Duration.after?, Duration.ofSeconds, Duration.perSecond,
        Duration.clockLimit]
    · intro first later deadline same ends
      cases same
      cases ends
      simp [Duration.ofSeconds, Duration.perSecond]
  cases push_step_ends.of_ok isStep with
  | idle _ silent => exact absurd rfl (silent _ _)
  | @answered sameReassembler between sameSecond _ _ _ isThere isPushed
      pushed same =>
      rw [found] at isThere
      cases isThere
      rw [inSecond] at isPushed
      cases isPushed
      have takesIn : reassembler.TakesIn [(0, second)] between :=
        .another .nothing pushed
      obtain ⟨_, delivers⟩ := round.1 timely [(0, second)] 9 first [] between
        rfl takesIn
      obtain ⟨whole, after, pools, isDone, payload, length⟩ :=
        delivers rfl last 0 1 lasts (by rw [same]; simp) inFirst
          (by rw [isPool]; exact ⟨Or.inr fitsOne, fun _ => hasFree⟩)
      exact ⟨session, packet, fragmenter, begun, first, second, reassembler,
        between, last, whole, after, pools, reached, isPacket, split, yields,
        takesIn, lasts, isDone, payload, length⟩

end Session

end PooledPackets
