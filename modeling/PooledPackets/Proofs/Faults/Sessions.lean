import PooledPackets.Proofs.Faults.Operations
import PooledPackets.Proofs.Sessions.Lending

/-!
# What stops a session

Segments may be exchanged between any two packets, so that what is recorded of
a packet is wrong. Even so a session is stopped only by violations that a pool
raises under its policy, apart from three commands that can be told beforehand:
slices that begin beyond the recorded end of a packet whose chain goes on
there, a fragment header for a packet that begins with a segment of too small a
reserve, and a fragment whose deadline the clock cannot show.
-/

namespace PooledPackets

open SessionStep

/-- A run ended because something was out of range, maybe with a violation that
was found on the way out. -/
def Stop.ofRange (stop : Stop) : Prop :=
  stop = .outOfRange ∨ stop = .collapse

namespace Session

/-- No walk of the session is beyond the recorded end of its packet. -/
def WalksInside (session : Session) : Prop :=
  ∀ index walk, session.walk? index = some walk → walk.fragmenter.Inside

/-- A command that is carried out and goes out of range. -/
def Exceeds (session : Session) (command : Command) : Prop :=
  session.lends command = false ∧
  match command with
  | .slices slot offset _ => ∃ packet,
      session.packets.get? slot = some packet ∧ packet.Overreaches offset
  | .writeFragmentHeader slot => ∃ packet,
      session.packets.get? slot = some packet ∧
        packet.LacksReserve (session.pools.get packet.pool)
  | .push index source now _ => ∃ reassembler fragment,
      session.reassemblers.get? index = some reassembler ∧
      session.packets.get? source = some fragment ∧
        reassembler.limits.timeout.after? now = none
  | _ => False

end Session

/-- Only violations stop a step. -/
def SessionStep.FaultsOnly {α : Type} (step : SessionStep α) : Prop :=
  ∀ session, Satisfies step session
    (fun _ after => session.pools.SamePolicies after.pools)
    session.pools.Raises

namespace SessionStep.FaultsOnly

variable {α β : Type} {step : SessionStep α} {next : α → SessionStep β}

theorem pure (value : α) : FaultsOnly (Pure.pure value : SessionStep α) :=
  fun _ => .refl _

/-- What goes on after a first part of a step that only violations stop. -/
theorem bindFrom {session : Session} {middle : α → Session → Prop}
    (first : Satisfies step session
      (fun value between => session.pools.SamePolicies between.pools ∧
        middle value between) session.pools.Raises)
    (second : ∀ value between, middle value between →
      Satisfies (next value) between
        (fun _ after => between.pools.SamePolicies after.pools)
        between.pools.Raises) :
    Satisfies (step >>= next) session
      (fun _ after => session.pools.SamePolicies after.pools)
      session.pools.Raises := by
  apply Satisfies.bind first
  intro value between known
  exact (second value between known.2).mono
    (fun _ _ same => known.1.trans same) (fun _ raises => raises.before known.1)

theorem bind (first : FaultsOnly step)
    (second : ∀ value, FaultsOnly (next value)) :
    FaultsOnly (step >>= next) := by
  intro session
  apply bindFrom ((first session).monoDone fun _ _ same => ⟨same, trivial⟩)
  exact fun value between _ => second value between

theorem get {next : Session → SessionStep α}
    (goesOn : ∀ session, FaultsOnly (next session)) :
    FaultsOnly (MonadState.get >>= next) :=
  fun session => Satisfies.get (goesOn session session)

theorem modify {change : Session → Session}
    (pools : ∀ session, (change session).pools = session.pools) :
    FaultsOnly (modify change) := by
  intro session
  change session.pools.SamePolicies (change session).pools
  rw [pools session]
  exact .refl _

theorem ite {condition : Prop} [Decidable condition]
    {yes no : SessionStep α} (ifTrue : FaultsOnly yes)
    (ifFalse : FaultsOnly no) :
    FaultsOnly (if condition then yes else no) :=
  fun session => Satisfies.ite (fun _ => ifTrue session)
    (fun _ => ifFalse session)

end SessionStep.FaultsOnly

namespace Session

variable {session : Session}

/-! ## The parts of a step -/

/-- On the way out of a run that a pool has abandoned the packets being split
may raise a second violation. -/
theorem breakOff_raises {α : Type} {stop : Stop}
    {done : α → Session → Prop} (raises : session.pools.Raises stop) :
    Satisfies (breakOff stop : SessionStep α) session done
      session.pools.Raises := by
  unfold SessionStep.Satisfies breakOff
  by_cases collapses : (stop.givesBack &&
      session.sources.any session.pools.findsForeign) = true
  · rw [if_pos collapses]
    rw [Bool.and_eq_true] at collapses
    exact raises.collapse collapses.1
  · rw [if_neg collapses]
    exact raises

/-- A step that goes out of range stops as such, or else because of what is
found on the way out. -/
theorem breakOff_exceeds {α : Type} {stop : Stop}
    {done : α → Session → Prop}
    (exceeds : stop.ofRange) :
    Satisfies (breakOff stop : SessionStep α) session done
      Stop.ofRange := by
  unfold SessionStep.Satisfies breakOff
  by_cases collapses : (stop.givesBack &&
      session.sources.any session.pools.findsForeign) = true
  · rw [if_pos collapses]
    exact Or.inr rfl
  · rw [if_neg collapses]
    exact exceeds

theorem perform_raises {α : Type} {operation : Operation α}
    (contract : (operation session.pools).Satisfies
      (fun _ after => session.pools.SamePolicies after)
      (fun _ after => session.pools.SamePolicies after)
      session.pools.Raises) :
    Satisfies (perform operation) session
      (fun _ after => session.pools.SamePolicies after.pools)
      session.pools.Raises := by
  apply SessionStep.Satisfies.monoDone
    (perform_ends contract fun stop raises => breakOff_raises raises)
  intro result after ending
  obtain ⟨pools, rfl, holds⟩ := ending
  cases result with
  | ok value => exact holds
  | error error => exact holds

theorem perform_exceeds {α : Type} {operation : Operation α}
    (exceeds : (operation session.pools).Satisfies (fun _ _ => False)
      (fun _ _ => False)
      Stop.ofRange) :
    Satisfies (perform operation) session (fun _ _ => False)
      Stop.ofRange := by
  apply SessionStep.Satisfies.monoDone
    (perform_ends exceeds fun stop isRange => breakOff_exceeds isRange)
  intro result after ending
  obtain ⟨pools, _, impossible⟩ := ending
  cases result with
  | error error => exact impossible
  | ok value => exact impossible

theorem perform_faultsOnly {α : Type} {operation : Operation α}
    (faultsOnly : operation.FaultsOnly) :
    FaultsOnly (perform operation) :=
  fun session => perform_raises (faultsOnly session.pools)

theorem discard_faultsOnly (packet : Packet) : FaultsOnly (discard packet) :=
  (perform_faultsOnly packet.drop_faultsOnly).bind fun _ => .pure _

theorem update_faultsOnly (slot : Nat) (packet : Packet) :
    FaultsOnly (update slot packet) :=
  .modify fun _ => rfl

theorem vacate_faultsOnly (slot : Nat) : FaultsOnly (vacate slot) :=
  .modify fun _ => rfl

theorem updateReassembler_faultsOnly (index : Nat)
    (reassembler : Reassembler) :
    FaultsOnly (updateReassembler index reassembler) :=
  .modify fun _ => rfl

theorem updateWalk_faultsOnly (index : Nat) (walk : Walk) :
    FaultsOnly (updateWalk index walk) :=
  .modify fun _ => rfl

theorem keep_faultsOnly (slot : Nat) (packet : Packet) :
    FaultsOnly (keep slot packet) := by
  intro session
  apply SessionStep.Satisfies.get
  cases session.packets.get? slot with
  | none => exact .refl session.pools
  | some previous =>
      exact discard_faultsOnly previous (session.filed slot packet)

theorem withPacket_faultsOnly {slot : Nat}
    {next : Packet → SessionStep Reply}
    (goesOn : ∀ packet, FaultsOnly (next packet)) :
    FaultsOnly (withPacket slot next) := by
  refine .get fun session => ?_
  cases session.packets.get? slot with
  | none => exact .pure _
  | some packet => exact goesOn packet

theorem withPool_faultsOnly {id : PoolId} {next : SessionStep Reply}
    (goesOn : FaultsOnly next) : FaultsOnly (withPool id next) :=
  .get fun _ => .ite goesOn (.pure _)

theorem withReassembler_faultsOnly {index : Nat}
    {next : Reassembler → SessionStep Reply}
    (goesOn : ∀ reassembler, FaultsOnly (next reassembler)) :
    FaultsOnly (withReassembler index next) := by
  refine .get fun session => ?_
  cases session.reassemblers.get? index with
  | none => exact .pure _
  | some reassembler => exact goesOn reassembler

theorem withWalk_faultsOnly {index : Nat} {next : Walk → SessionStep Reply}
    (goesOn : ∀ walk, FaultsOnly (next walk)) :
    FaultsOnly (withWalk index next) := by
  refine .get fun session => ?_
  cases session.walk? index with
  | none => exact .pure _
  | some walk => exact goesOn walk

theorem keepResult_faultsOnly {slot : Nat} {operation : Operation Packet}
    (faultsOnly : operation.FaultsOnly) :
    FaultsOnly (keepResult slot operation) := by
  apply (perform_faultsOnly faultsOnly).bind
  intro result
  cases result with
  | error error => exact .pure _
  | ok packet => exact (keep_faultsOnly slot packet).bind fun _ => .pure _

theorem updateResult_faultsOnly {slot : Nat} {operation : Operation Packet}
    {reply : Packet → Reply} (faultsOnly : operation.FaultsOnly) :
    FaultsOnly (updateResult slot operation reply) := by
  apply (perform_faultsOnly faultsOnly).bind
  intro result
  cases result with
  | error error => exact .pure _
  | ok packet => exact (update_faultsOnly slot packet).bind fun _ => .pure _

/-! ## Walks stay inside their packets -/

namespace WalksInside

variable {index slot : Nat}

theorem walking (inside : session.WalksInside) {walk : Walk}
    (isSource : session.packets.get? walk.slot =
      some walk.fragmenter.source) (isInside : walk.fragmenter.Inside) :
    (session.walking index walk).WalksInside := by
  intro other found isFound
  by_cases isIndex : other = index
  · rw [isIndex, walk?_walking_self isSource] at isFound
    cases isFound
    exact isInside
  · rw [walk?_walking_of_ne isIndex] at isFound
    exact inside other found isFound

theorem unwalked (inside : session.WalksInside) (index : Nat) :
    (session.unwalked index).WalksInside := by
  intro other found isFound
  obtain ⟨isSource, source, begun⟩ := walk?_eq_some_iff.mp isFound
  simp only [Session.unwalked, Table.get?_erase] at isSource begun
  split at begun
  · cases begun
  · exact inside other found (walk?_eq_some_iff.mpr ⟨isSource, source, begun⟩)

theorem next (inside : session.WalksInside) (free : session.Free slot)
    {reply : Reply} {after : Session}
    (effect : session.NextEffect index slot reply after) :
    after.WalksInside := by
  cases effect with
  | idle _ => exact inside
  | @moved walk item fragmenter pools found answered last =>
      have sameSource : fragmenter.source = walk.fragmenter.source :=
        (walk.fragmenter.next_source_eq _).of_done answered
      have isSource := (walk?_eq_some_iff.mp found).1
      rw [← sameSource] at isSource
      have isInside : fragmenter.Inside := (Fragmenter.next_inside
        (inside index walk found) session.pools).of_done answered
      have goesOn : (session.walking index
          { walk with fragmenter }).WalksInside :=
        inside.walking isSource isInside
      intro other further isFound
      apply goesOn other further
      rw [← walk?_yielding (free.walking found) item]
      exact isFound

end WalksInside

theorem nextFragment_raises {index slot : Nat}
    (inside : session.WalksInside) :
    Satisfies (nextFragment index slot) session
      (fun _ after => session.pools.SamePolicies after.pools)
      session.pools.Raises := by
  apply SessionStep.Satisfies.get
  cases found : session.walk? index with
  | none => exact .refl session.pools
  | some walk =>
      have first := perform_raises (Fragmenter.next_faultsOnly
        (inside index walk found) session.pools)
      apply FaultsOnly.bindFrom
        (first.monoDone fun _ _ same => ⟨same, trivial⟩)
      intro result between _
      match result with
      | .error error => exact FaultsOnly.pure _ between
      | .ok (none, fragmenter) =>
          exact (updateWalk_faultsOnly _ _).bind (fun _ => .pure _) between
      | .ok (some (.error error), fragmenter) =>
          exact (updateWalk_faultsOnly _ _).bind (fun _ => .pure _) between
      | .ok (some (.ok fragment), fragmenter) =>
          exact (updateWalk_faultsOnly _ _).bind (fun _ =>
            (keep_faultsOnly slot fragment).bind fun _ => .pure _) between

/-- Fragments that go into free slots are made one after the other, and the
walks stay inside. -/
theorem collectFragments_raises :
    ∀ {max index slot : Nat} {session : Session}, session.WalksInside →
      (∀ place, slot ≤ place → place < slot + max → session.Free place) →
      Satisfies (collectFragments index slot max) session
        (fun _ after => after.WalksInside ∧
          session.pools.SamePolicies after.pools)
        session.pools.Raises
  | 0, _, _, session, inside, _ => ⟨inside, .refl session.pools⟩
  | max + 1, index, slot, session, inside, free => by
      have first := (@nextFragment_raises session index slot inside).and
        nextFragment_leaves
      apply SessionStep.Satisfies.bind first
      intro reply between known
      obtain ⟨same, effect⟩ := known
      have insideBetween := inside.next
        (free slot (Nat.le_refl _) (by omega)) effect
      -- The slots further on are free as before.
      have later : ∀ {start : Nat}, slot ≤ start →
          start + max ≤ slot + (max + 1) →
          Satisfies (collectFragments index start max) between
            (fun _ after => after.WalksInside ∧
              session.pools.SamePolicies after.pools)
            session.pools.Raises := by
        intro start above below
        apply (collectFragments_raises insideBetween ?_).mono
        · exact fun _ _ known => ⟨known.1, same.trans known.2⟩
        · exact fun _ raises => raises.before same
        · intro place isAbove isBelow
          exact effect.free (free place (by omega) (by omega))
      match reply with
      | .fragment (some (.ok fragment)) =>
          exact SessionStep.Satisfies.giving (later (by omega) (by omega))
      | .fragment (some (.error error)) =>
          exact SessionStep.Satisfies.giving (later (by omega) (by omega))
      | .fragment none | .nothing | .packet _ | .refused _ | .noSuchPool
      | .noSuchSlot | .noSuchReassembler | .noSuchWalk | .lent | .pieces _
      | .copied _ _ | .counts _ | .swapped _ | .headerZone _ | .walk _
      | .fragments _ | .pushed _ _ | .expired _ =>
          exact ⟨insideBetween, same⟩

theorem begun_inside {pool : PoolId} {packet : Packet} {mtu : Nat}
    (pools : Pools) :
    (Pool.fragmentForLink pool packet mtu pools).Satisfies
      (fun fragmenter _ => fragmenter.source = packet ∧ fragmenter.Inside)
      (fun _ _ => True) (fun _ => True) := by
  refine Outcome.Satisfies.ite (fun _ => trivial) fun _ => ?_
  refine Outcome.Satisfies.ite (fun _ => trivial) fun _ => ?_
  apply Outcome.Satisfies.readPool
  refine Outcome.Satisfies.ite (fun _ => trivial) fun _ => ?_
  exact ⟨rfl, Nat.zero_le _⟩

theorem beginWalk_staysInside {pool : PoolId} {slot mtu index : Nat}
    (inside : session.WalksInside) :
    Satisfies (beginWalk pool slot mtu index) session
      (fun _ after => after.WalksInside) (fun _ => True) := by
  refine SessionStep.Satisfies.get (SessionStep.Satisfies.ite ?_ ?_)
  · intro _
    apply SessionStep.Satisfies.get
    cases found : session.packets.get? slot with
    | none => exact inside
    | some packet =>
        apply SessionStep.Satisfies.bind
          (perform_leaves (begun_inside session.pools))
        intro result after ending
        obtain ⟨pools, rfl, known⟩ := ending
        cases result with
        | error error => exact inside
        | ok fragmenter =>
            obtain ⟨rfl, isInside⟩ := known
            have walking : (session.walking index
                ⟨slot, fragmenter⟩).WalksInside :=
              inside.walking found isInside
            exact walking
  · exact fun _ => inside

/-- A command that changes no packet that is lent keeps the walks inside. -/
theorem carryOut_staysInside {command : Command}
    (isFree : session.lends command = false) (inside : session.WalksInside) :
    Satisfies (carryOut command) session
      (fun _ after => after.WalksInside) (fun _ => True) := by
  -- A walk that is changed where it is stays over the same packet.
  have changing : ∀ {index : Nat} {change : Fragmenter → Fragmenter},
      (∀ fragmenter, fragmenter.Inside → (change fragmenter).Inside ∧
        (change fragmenter).source = fragmenter.source) →
      Satisfies (withWalk index fun walk => do
        updateWalk index { walk with fragmenter := change walk.fragmenter }
        pure (.walk (change walk.fragmenter))) session
        (fun _ after => after.WalksInside) (fun _ => True) := by
    intro index change keeps
    apply SessionStep.Satisfies.get
    cases found : session.walk? index with
    | none => exact inside
    | some walk =>
        obtain ⟨isInside, same⟩ := keeps _ (inside index walk found)
        have isSource := (walk?_eq_some_iff.mp found).1
        rw [← same] at isSource
        have walking : (session.walking index { walk with
            fragmenter := change walk.fragmenter }).WalksInside :=
          inside.walking isSource isInside
        exact walking
  cases command with
  | beginWalk pool slot mtu index => exact beginWalk_staysInside inside
  | nextFragment index slot =>
      have free : session.Free slot := free_of_changes isFree (by
        simp [Command.changes])
      exact nextFragment_leaves.monoDone fun _ _ effect =>
        inside.next free effect
  | collectFragments index slot max =>
      apply SessionStep.Satisfies.get
      cases session.walk? index with
      | none => exact inside
      | some walk =>
          have collects := @collectFragments_raises max index slot session
            inside (free_of_collecting isFree)
          apply SessionStep.Satisfies.giving
          exact collects.mono (fun _ _ known => known.1) fun _ _ => trivial
  | resumeWalk index =>
      exact changing fun fragmenter isInside => ⟨isInside, rfl⟩
  | restartWalk index =>
      exact changing fun fragmenter _ => ⟨Nat.zero_le _, rfl⟩
  | endWalk index =>
      apply SessionStep.Satisfies.get
      cases session.walk? index with
      | none => exact inside
      | some walk => exact inside.unwalked index
  | _ =>
      apply (carryOut_walks rfl isFree).monoDone
      intro _ after same index walk found
      rw [same] at found
      exact inside index walk found

/-! ## The other commands -/

theorem swapFirst_faultsOnly (first second : Nat) :
    FaultsOnly (swapFirst first second) := by
  refine .ite (.pure _) (withPacket_faultsOnly fun one => ?_)
  refine withPacket_faultsOnly fun other => .ite (.pure _) ?_
  exact (update_faultsOnly _ _).bind fun _ =>
    (update_faultsOnly _ _).bind fun _ => .pure _

theorem readReply_faultsOnly {outcome : ReadOutcome}
    (inRange : outcome ≠ .outOfRange) : FaultsOnly (readReply outcome) := by
  cases outcome with
  | copied count destination => exact .pure _
  | refused error => exact .pure _
  | outOfRange => exact absurd rfl inRange

theorem forM_vacate_faultsOnly :
    ∀ slots : List Nat, FaultsOnly (slots.forM vacate)
  | [] => .pure _
  | slot :: rest =>
      (vacate_faultsOnly slot).bind fun _ => forM_vacate_faultsOnly rest

theorem reassemble_faultsOnly (pool : PoolId) (arrivals : List (Nat × Nat))
    (slot deadline : Nat) (choices : List Nat) :
    FaultsOnly (reassemble pool arrivals slot deadline choices) := by
  apply withPool_faultsOnly
  refine .get fun session => ?_
  cases session.packetsIn? (arrivals.map Prod.snd) with
  | none => exact .pure _
  | some fragments =>
      exact (forM_vacate_faultsOnly _).bind fun _ =>
        keepResult_faultsOnly
          (Pool.reassemble_faultsOnly choices pool _ deadline)

theorem newReassembler_faultsOnly (pool : PoolId) (index : Nat)
    (choices : List Nat) :
    FaultsOnly (carryOut (.newReassembler pool index choices)) := by
  apply withPool_faultsOnly
  apply (perform_faultsOnly (Reassembler.forPool_faultsOnly pool)).bind
  intro result
  cases result with
  | error error => exact .pure _
  | ok reassembler =>
      refine .get fun session => ?_
      apply (updateReassembler_faultsOnly index reassembler).bind
      intro _
      cases session.reassemblers.get? index with
      | none => exact .pure _
      | some previous =>
          exact (perform_faultsOnly (previous.clear_faultsOnly choices)).bind
            fun _ => .pure _

theorem newPool_faultsOnly : FaultsOnly newPool :=
  .get fun _ => .bind (.modify fun _ => rfl) fun _ =>
    withPool_faultsOnly (.pure _)

theorem beginWalk_faultsOnly (pool : PoolId) (slot mtu index : Nat) :
    FaultsOnly (beginWalk pool slot mtu index) := by
  apply withPool_faultsOnly
  apply withPacket_faultsOnly
  intro packet
  apply (perform_faultsOnly
    (Pool.fragmentForLink_faultsOnly pool packet mtu)).bind
  intro result
  cases result with
  | error error => exact .pure _
  | ok fragmenter => exact (updateWalk_faultsOnly _ _).bind fun _ => .pure _

theorem endWalk_faultsOnly (index : Nat) : FaultsOnly (endWalk index) :=
  withWalk_faultsOnly fun _ => .bind (.modify fun _ => rfl) fun _ => .pure _

theorem push_raises {index source now slot : Nat}
    (isFree : session.lends (.push index source now slot) = false)
    (within : ¬session.Exceeds (.push index source now slot)) :
    Satisfies (push index source now slot) session
      (fun _ after => session.pools.SamePolicies after.pools)
      session.pools.Raises := by
  apply SessionStep.Satisfies.get
  cases found : session.reassemblers.get? index with
  | none => exact .refl session.pools
  | some reassembler =>
      apply SessionStep.Satisfies.get
      cases isFragment : session.packets.get? source with
      | none => exact .refl session.pools
      | some fragment =>
          have answered : (reassembler.push fragment now).FaultsOnly := by
            cases reading : reassembler.limits.timeout.after? now with
            | none =>
                exact absurd ⟨isFree, reassembler, fragment, found,
                  isFragment, reading⟩ within
            | some deadline =>
                unfold Reassembler.push
                rw [reading]
                exact reassembler.pushUntil_faultsOnly _ fragment now _
          refine ((vacate_faultsOnly source).bind fun _ =>
            (perform_faultsOnly answered).bind fun result => ?_) session
          cases result with
          | error error => exact .pure _
          | ok acceptance =>
              obtain ⟨answer, changed⟩ := acceptance
              apply (updateReassembler_faultsOnly index changed).bind
              intro _
              cases answer with
              | error error => exact .pure _
              | ok joined =>
                  cases joined with
                  | none => exact .pure _
                  | some packet =>
                      exact (keep_faultsOnly slot packet).bind fun _ =>
                        .pure _

/-- A command that does not go out of range is stopped by violations only. -/
theorem carryOut_raises {command : Command}
    (isFree : session.lends command = false)
    (within : ¬session.Exceeds command) (inside : session.WalksInside) :
    Satisfies (carryOut command) session
      (fun _ after => session.pools.SamePolicies after.pools)
      session.pools.Raises := by
  have always : ∀ {step : SessionStep Reply}, FaultsOnly step →
      Satisfies step session
        (fun _ after => session.pools.SamePolicies after.pools)
        session.pools.Raises := fun faultsOnly => faultsOnly session
  cases command with
  | newPool => exact always newPool_faultsOnly
  | allocate pool len slot =>
      exact always (withPool_faultsOnly
        (keepResult_faultsOnly (Pool.allocate_faultsOnly pool len)))
  | packetFrom pool bytes slot =>
      exact always (withPool_faultsOnly
        (keepResult_faultsOnly (Pool.allocateWith_faultsOnly pool _ _)))
  | append slot bytes =>
      exact always (withPacket_faultsOnly fun packet =>
        updateResult_faultsOnly (packet.append_faultsOnly bytes))
  | release slot =>
      exact always (withPacket_faultsOnly fun packet =>
        updateResult_faultsOnly packet.release_faultsOnly)
  | drop slot =>
      apply always
      refine withPacket_faultsOnly fun packet => ?_
      apply (vacate_faultsOnly slot).bind
      exact fun _ => (discard_faultsOnly packet).bind fun _ => .pure _
  | copy pool source slot =>
      exact always (withPool_faultsOnly (withPacket_faultsOnly fun packet =>
        keepResult_faultsOnly (Pool.copyPacket_faultsOnly pool packet)))
  | receive pool frame slot =>
      exact always (withPool_faultsOnly (.get fun _ =>
        keepResult_faultsOnly (Pool.receiveFrame_faultsOnly pool _)))
  | slices slot offset len =>
      apply SessionStep.Satisfies.get
      cases found : session.packets.get? slot with
      | none => exact .refl session.pools
      | some packet =>
          dsimp only
          cases slicing : packet.slices? offset len with
          | some pieces => exact .refl session.pools
          | none =>
              have beyond := Packet.slices?_eq_none_iff.mp slicing
              exact absurd ⟨isFree, packet, found, beyond⟩ within
  | readAt slot offset destination =>
      exact always (withPacket_faultsOnly fun packet =>
        readReply_faultsOnly
          (packet.readAt_ne_outOfRange offset destination))
  | copyTo slot destination =>
      exact always (withPacket_faultsOnly fun _ => .pure _)
  | writeZone slot zone only bytes =>
      exact always (withPacket_faultsOnly fun _ =>
        (update_faultsOnly _ _).bind fun _ => .pure _)
  | swapFirst first second => exact always (swapFirst_faultsOnly first second)
  | writeFragmentHeader slot =>
      apply SessionStep.Satisfies.get
      cases found : session.packets.get? slot with
      | none => exact .refl session.pools
      | some packet =>
          have stamped := packet.writeFragmentHeader_satisfies_range
            session.pools
          have hasRoom : ¬packet.LacksReserve
              (session.pools.get packet.pool) :=
            fun lacks => within ⟨isFree, packet, found, lacks⟩
          apply SessionStep.Satisfies.bind
            (perform_ends stamped fun _ stops => absurd stops.2 hasRoom)
          intro result between ending
          obtain ⟨pools, rfl, holds⟩ := ending
          cases result with
          | error error =>
              obtain ⟨rfl, _⟩ := holds
              exact .refl session.pools
          | ok changed =>
              obtain ⟨rfl, _⟩ := holds
              exact .refl session.pools
  | beginWalk pool slot mtu index =>
      exact always (beginWalk_faultsOnly pool slot mtu index)
  | nextFragment index slot => exact nextFragment_raises inside
  | collectFragments index slot max =>
      apply SessionStep.Satisfies.get
      cases session.walk? index with
      | none => exact .refl session.pools
      | some walk =>
          have collects := @collectFragments_raises max index slot session
            inside (free_of_collecting isFree)
          apply SessionStep.Satisfies.giving
          exact collects.monoDone fun _ _ known => known.2
  | resumeWalk index | restartWalk index =>
      exact always (withWalk_faultsOnly fun _ =>
        (updateWalk_faultsOnly _ _).bind fun _ => .pure _)
  | endWalk index => exact always (endWalk_faultsOnly index)
  | newReassembler pool index choices =>
      exact always (newReassembler_faultsOnly pool index choices)
  | push index source now slot => exact push_raises isFree within
  | expire index now =>
      apply always
      refine withReassembler_faultsOnly fun reassembler => ?_
      apply (perform_faultsOnly (reassembler.expire_faultsOnly now)).bind
      intro result
      match result with
      | .error error => exact .pure _
      | .ok (late, changed) =>
          exact (updateReassembler_faultsOnly index changed).bind
            fun _ => .pure _
  | clear index choices =>
      apply always
      refine withReassembler_faultsOnly fun reassembler => ?_
      apply (perform_faultsOnly (reassembler.clear_faultsOnly choices)).bind
      intro result
      cases result with
      | error error => exact .pure _
      | ok changed =>
          exact (updateReassembler_faultsOnly index changed).bind
            fun _ => .pure _
  | dropReassembler index choices =>
      apply always
      refine withReassembler_faultsOnly fun reassembler => ?_
      exact .bind (.modify fun _ => rfl) fun _ =>
        (perform_faultsOnly (reassembler.clear_faultsOnly choices)).bind
          fun _ => .pure _
  | reassemble pool arrivals slot deadline choices =>
      exact always
        (reassemble_faultsOnly pool arrivals slot deadline choices)

/-- A command that goes out of range stops the run. -/
theorem step_of_exceeds {command : Command}
    (exceeds : session.Exceeds command) :
    ∃ stop, session.step command = .error stop ∧ stop.ofRange := by
  obtain ⟨isFree, exceeds⟩ := exceeds
  have contract : Satisfies (carryOut command) session (fun _ _ => False)
      Stop.ofRange := by
    cases command with
    | slices slot offset len =>
        obtain ⟨packet, found, beyond⟩ := exceeds
        have slicing :=
          (@Packet.slices?_eq_none_iff packet offset len).mpr beyond
        apply SessionStep.Satisfies.get
        rw [found]
        dsimp only
        rw [slicing]
        exact breakOff_exceeds (Or.inl rfl)
    | writeFragmentHeader slot =>
        obtain ⟨packet, found, lacks⟩ := exceeds
        have stamped : (packet.writeFragmentHeader session.pools).Satisfies
            (fun _ _ => False) (fun _ _ => False) Stop.ofRange :=
          (packet.writeFragmentHeader_satisfies_range session.pools).mono
            (fun _ _ holds => holds.2 lacks) (fun _ _ holds => holds.2 lacks)
            fun _ stops => Or.inl stops.1
        apply SessionStep.Satisfies.get
        rw [found]
        exact SessionStep.Satisfies.bind (perform_exceeds stamped)
          fun _ _ impossible => impossible.elim
    | push index source now slot =>
        obtain ⟨reassembler, fragment, found, isFragment, reading⟩ := exceeds
        have refused : (reassembler.push fragment now
            (session.vacated source).pools).Satisfies
              (fun _ _ => False) (fun _ _ => False)
              Stop.ofRange := by
          rw [Reassembler.push, reading]
          exact Outcome.Satisfies.holding
            (Outcome.Satisfies.halt (Or.inl rfl)) fun _ _ _ => Or.inr rfl
        apply SessionStep.Satisfies.get
        rw [found]
        apply SessionStep.Satisfies.get
        rw [isFragment]
        refine SessionStep.Satisfies.changing (SessionStep.Satisfies.bind
          (perform_exceeds refused) ?_)
        exact fun _ _ impossible => impossible.elim
    | _ => exact exceeds.elim
  rw [step_of_free isFree]
  exact contract.exists_error

/-- A command that does not go out of range keeps the walks inside, and is
stopped by violations only. -/
theorem step_raises {command : Command} (within : ¬session.Exceeds command)
    (inside : session.WalksInside) :
    Satisfies (fun session => session.step command) session
      (fun _ after => session.pools.SamePolicies after.pools ∧
        after.WalksInside)
      session.pools.Raises := by
  apply step_satisfies
  · exact fun _ => ⟨.refl session.pools, inside⟩
  · exact fun isFree => (carryOut_raises isFree within inside).and
      (carryOut_staysInside isFree inside)

end Session

end PooledPackets
