import PooledPackets.Proofs.Ownership.Conservation

/-!
# Reassemblers over the steps of a session

A reassembler changes only when a command names it, and then in the way that
it decides on by itself. All other commands leave the reassemblers as they
are.
-/

namespace PooledPackets

/-- The reassembler that a command names. -/
def Command.reassembler? : Command → Option Nat
  | .newReassembler _ index _ => some index
  | .push index _ _ _ => some index
  | .expire index _ => some index
  | .clear index _ => some index
  | .dropReassembler index _ => some index
  | _ => none

theorem Command.push_or_not (command : Command) :
    (∃ index source now slot, command = .push index source now slot) ∨
      ∀ index source now slot, command ≠ .push index source now slot := by
  cases command with
  | push index source now slot => exact Or.inl ⟨_, _, _, _, rfl⟩
  | _ => simp

/-- What a push that was not refused led to. -/
def Reply.answer? : Reply → Option (Option Packet)
  | .pushed _ (.ok whole) => some whole
  | _ => none

theorem Reply.answer?_eq_some_iff {reply : Reply} {whole : Option Packet} :
    reply.answer? = some whole ↔
      ∃ datagram, reply = .pushed datagram (.ok whole) := by
  cases reply with
  | pushed datagram result => cases result <;> simp [answer?]
  | _ => simp [answer?]

/-- What a reassembler is after a command that hands it nothing. -/
inductive Reassembler.LetsGo (reassembler : Reassembler) : Reassembler → Prop
  | nothing : LetsGo reassembler reassembler
  | late (now : Nat) : LetsGo reassembler (reassembler.swept now)
  | everything : LetsGo reassembler reassembler.cleared

namespace SessionStep

variable {α β : Type}

/-- A step that leaves the reassemblers as they are, from every session. -/
def KeepsReassemblers (step : SessionStep α) : Prop :=
  ∀ session, Satisfies step session
    (fun _ after => after.reassemblers = session.reassemblers)
    (fun _ => True)

namespace KeepsReassemblers

variable {step : SessionStep α} {next : α → SessionStep β}

theorem pure (value : α) :
    KeepsReassemblers (Pure.pure value : SessionStep α) :=
  fun _ => rfl

theorem bind (first : KeepsReassemblers step)
    (second : ∀ value, KeepsReassemblers (next value)) :
    KeepsReassemblers (step >>= next) := by
  intro session
  apply Satisfies.bind (first session)
  intro value after same
  have further := second value after
  rw [same] at further
  exact further

theorem get {next : Session → SessionStep α}
    (goesOn : ∀ session, KeepsReassemblers (next session)) :
    KeepsReassemblers (MonadState.get >>= next) :=
  fun session => Satisfies.get (goesOn session session)

theorem modify {change : Session → Session}
    (same : ∀ session,
      (change session).reassemblers = session.reassemblers) :
    KeepsReassemblers (modify change) :=
  fun session => same session

theorem ite {condition : Prop} [Decidable condition]
    {yes no : SessionStep α} (ifTrue : KeepsReassemblers yes)
    (ifFalse : KeepsReassemblers no) :
    KeepsReassemblers (if condition then yes else no) :=
  fun session => Satisfies.ite (fun _ => ifTrue session)
    (fun _ => ifFalse session)

end KeepsReassemblers

end SessionStep

namespace Session

open SessionStep

/-! ## Steps that leave the reassemblers alone -/

theorem exists_breakOff_eq {α : Type} (stop : Stop) (session : Session) :
    ∃ ended, (breakOff stop : SessionStep α) session = .error ended := by
  by_cases collapses : (stop.givesBack &&
      session.sources.any session.pools.findsForeign) = true
  · exact ⟨.collapse, if_pos collapses⟩
  · exact ⟨stop, if_neg collapses⟩

theorem keeps_breakOff {α : Type} (stop : Stop) :
    KeepsReassemblers (breakOff stop : SessionStep α) := by
  intro session
  obtain ⟨ended, broken⟩ := exists_breakOff_eq (α := α) stop session
  simp [SessionStep.Satisfies, broken]

/-- An operation carried out in a session changes nothing but the pools,
whatever is known of it. -/
theorem perform_leaves {α : Type} {operation : Operation α}
    {session : Session} {done : α → Pools → Prop}
    {refused : BufferError → Pools → Prop} {stopped : Stop → Prop}
    (contract : (operation session.pools).Satisfies done refused stopped) :
    SessionStep.Satisfies (perform operation) session
      (fun result after => ∃ pools, after = session.withPools pools ∧
        match result with
        | .ok value => done value pools
        | .error error => refused error pools)
      (fun _ => True) := by
  apply perform_ends contract
  intro stop _
  obtain ⟨ended, broken⟩ := exists_breakOff_eq
    (α := Except BufferError α) stop session
  simp [SessionStep.Satisfies, broken]

theorem discard_leaves (packet : Packet) (session : Session) :
    SessionStep.Satisfies (discard packet) session
      (fun _ after => ∃ pools, after = session.withPools pools)
      (fun _ => True) := by
  have dropped := @Outcome.Satisfies.trivially _
    (packet.drop session.pools)
  apply SessionStep.Satisfies.bind (perform_leaves dropped)
  intro _ _ ending
  obtain ⟨pools, rfl, _⟩ := ending
  exact ⟨pools, rfl⟩

theorem keep_leaves (slot : Nat) (packet : Packet) (session : Session) :
    SessionStep.Satisfies (keep slot packet) session
      (fun _ after => ∃ pools,
        after = (session.filed slot packet).withPools pools)
      (fun _ => True) := by
  apply SessionStep.Satisfies.get
  cases session.packets.get? slot with
  | none => exact ⟨session.pools, rfl⟩
  | some previous =>
      exact discard_leaves previous (session.filed slot packet)

theorem keeps_perform {α : Type} (operation : Operation α) :
    KeepsReassemblers (perform operation) := by
  intro session
  have ends := @Outcome.Satisfies.trivially α (operation session.pools)
  apply (perform_leaves ends).monoDone
  intro result after ending
  obtain ⟨pools, rfl, _⟩ := ending
  rfl

theorem keeps_discard (packet : Packet) :
    KeepsReassemblers (discard packet) := by
  intro session
  apply (discard_leaves packet session).monoDone
  rintro _ _ ⟨pools, rfl⟩
  rfl

theorem keeps_update (slot : Nat) (packet : Packet) :
    KeepsReassemblers (update slot packet) :=
  .modify fun _ => rfl

theorem keeps_vacate (slot : Nat) : KeepsReassemblers (vacate slot) :=
  .modify fun _ => rfl

theorem keeps_keep (slot : Nat) (packet : Packet) :
    KeepsReassemblers (keep slot packet) := by
  intro session
  apply (keep_leaves slot packet session).monoDone
  rintro _ _ ⟨pools, rfl⟩
  rfl

theorem keeps_keepResult (slot : Nat) (operation : Operation Packet) :
    KeepsReassemblers (keepResult slot operation) := by
  apply KeepsReassemblers.bind (keeps_perform operation)
  intro result
  cases result with
  | error error => exact .pure _
  | ok packet => exact (keeps_keep slot packet).bind fun _ => .pure _

theorem keeps_updateResult (slot : Nat) (operation : Operation Packet)
    (reply : Packet → Reply) :
    KeepsReassemblers (updateResult slot operation reply) := by
  apply KeepsReassemblers.bind (keeps_perform operation)
  intro result
  cases result with
  | error error => exact .pure _
  | ok packet => exact (keeps_update slot packet).bind fun _ => .pure _

theorem keeps_withPacket {slot : Nat} {next : Packet → SessionStep Reply}
    (goesOn : ∀ packet, KeepsReassemblers (next packet)) :
    KeepsReassemblers (withPacket slot next) := by
  apply KeepsReassemblers.get
  intro session
  cases session.packets.get? slot with
  | none => exact .pure _
  | some packet => exact goesOn packet

theorem keeps_withPool {id : PoolId} {next : SessionStep Reply}
    (goesOn : KeepsReassemblers next) :
    KeepsReassemblers (withPool id next) :=
  .get fun _ => .ite goesOn (.pure _)

theorem keeps_withWalk {index : Nat} {next : Walk → SessionStep Reply}
    (goesOn : ∀ walk, KeepsReassemblers (next walk)) :
    KeepsReassemblers (withWalk index next) := by
  apply KeepsReassemblers.get
  intro session
  cases session.walk? index with
  | none => exact .pure _
  | some walk => exact goesOn walk

theorem keeps_updateWalk (index : Nat) (walk : Walk) :
    KeepsReassemblers (updateWalk index walk) :=
  .modify fun _ => rfl

theorem keeps_newPool : KeepsReassemblers newPool := by
  apply KeepsReassemblers.get
  intro session
  refine KeepsReassemblers.bind (.modify fun _ => rfl) fun _ => ?_
  exact keeps_withPool (.pure _)

theorem keeps_nextFragment (index slot : Nat) :
    KeepsReassemblers (nextFragment index slot) := by
  apply keeps_withWalk
  intro walk
  apply KeepsReassemblers.bind (keeps_perform walk.fragmenter.next)
  intro result
  match result with
  | .error error => exact .pure _
  | .ok (none, fragmenter) =>
      exact (keeps_updateWalk index _).bind fun _ => .pure _
  | .ok (some (.error error), fragmenter) =>
      exact (keeps_updateWalk index _).bind fun _ => .pure _
  | .ok (some (.ok fragment), fragmenter) =>
      apply (keeps_updateWalk index _).bind
      exact fun _ => (keeps_keep slot fragment).bind fun _ => .pure _

theorem keeps_collectFragments :
    ∀ (max index slot : Nat),
      KeepsReassemblers (collectFragments index slot max)
  | 0, _, _ => .pure _
  | max + 1, index, slot => by
      apply (keeps_nextFragment index slot).bind
      intro reply
      match reply with
      | .fragment (some (.ok fragment)) =>
          exact (keeps_collectFragments max index (slot + 1)).bind
            fun _ => .pure _
      | .fragment (some (.error error)) =>
          exact (keeps_collectFragments max index slot).bind
            fun _ => .pure _
      | .fragment none | .nothing | .packet _ | .refused _ | .noSuchPool
      | .noSuchSlot | .noSuchReassembler | .noSuchWalk | .lent | .pieces _
      | .copied _ _ | .counts _ | .swapped _ | .headerZone _ | .walk _
      | .fragments _ | .pushed _ _ | .expired _ =>
          exact .pure _

theorem keeps_swapFirst (first second : Nat) :
    KeepsReassemblers (swapFirst first second) := by
  apply KeepsReassemblers.ite (.pure _)
  apply keeps_withPacket
  intro one
  apply keeps_withPacket
  intro other
  apply KeepsReassemblers.ite (.pure _)
  apply (keeps_update first _).bind
  exact fun _ => (keeps_update second _).bind fun _ => .pure _

theorem keeps_beginWalk (pool : PoolId) (slot mtu index : Nat) :
    KeepsReassemblers (beginWalk pool slot mtu index) := by
  apply keeps_withPool
  apply keeps_withPacket
  intro packet
  apply (keeps_perform _).bind
  intro result
  cases result with
  | error error => exact .pure _
  | ok fragmenter => exact (keeps_updateWalk index _).bind fun _ => .pure _

theorem keeps_endWalk (index : Nat) : KeepsReassemblers (endWalk index) := by
  apply keeps_withWalk
  intro walk
  exact KeepsReassemblers.bind (.modify fun _ => rfl) fun _ => .pure _

theorem keeps_forM_vacate :
    ∀ slots : List Nat, KeepsReassemblers (slots.forM vacate)
  | [] => .pure _
  | slot :: rest => (keeps_vacate slot).bind fun _ => keeps_forM_vacate rest

theorem keeps_reassemble (pool : PoolId) (arrivals : List (Nat × Nat))
    (slot deadline : Nat) (choices : List Nat) :
    KeepsReassemblers (reassemble pool arrivals slot deadline choices) := by
  apply keeps_withPool
  apply KeepsReassemblers.get
  intro session
  cases session.packetsIn? (arrivals.map Prod.snd) with
  | none => exact .pure _
  | some fragments =>
      apply (keeps_forM_vacate _).bind
      exact fun _ => keeps_keepResult slot _

theorem keeps_readReply (outcome : ReadOutcome) :
    KeepsReassemblers (readReply outcome) := by
  cases outcome with
  | copied count destination => exact .pure _
  | refused error => exact .pure _
  | outOfRange => exact keeps_breakOff .outOfRange

theorem keeps_carryOut {command : Command}
    (unnamed : command.reassembler? = none) :
    KeepsReassemblers (carryOut command) := by
  cases command with
  | newPool => exact keeps_newPool
  | allocate pool len slot => exact keeps_withPool (keeps_keepResult _ _)
  | packetFrom pool bytes slot => exact keeps_withPool (keeps_keepResult _ _)
  | append slot bytes =>
      exact keeps_withPacket fun _ => keeps_updateResult _ _ _
  | release slot =>
      exact keeps_withPacket fun _ => keeps_updateResult _ _ _
  | drop slot =>
      apply keeps_withPacket
      intro packet
      apply (keeps_vacate slot).bind
      exact fun _ => (keeps_discard packet).bind fun _ => .pure _
  | copy pool source slot =>
      exact keeps_withPool (keeps_withPacket fun _ => keeps_keepResult _ _)
  | receive pool frame slot =>
      exact keeps_withPool (.get fun _ => keeps_keepResult _ _)
  | slices slot offset len =>
      apply keeps_withPacket
      intro packet
      cases packet.slices? offset len with
      | none => exact keeps_breakOff .outOfRange
      | some pieces => exact .pure _
  | readAt slot offset destination =>
      exact keeps_withPacket fun _ => keeps_readReply _
  | copyTo slot destination => exact keeps_withPacket fun _ => .pure _
  | writeZone slot zone only bytes =>
      apply keeps_withPacket
      exact fun _ => (keeps_update _ _).bind fun _ => .pure _
  | swapFirst first second => exact keeps_swapFirst first second
  | writeFragmentHeader slot =>
      exact keeps_withPacket fun _ => keeps_updateResult _ _ _
  | beginWalk pool slot mtu walk => exact keeps_beginWalk pool slot mtu walk
  | nextFragment walk slot => exact keeps_nextFragment walk slot
  | collectFragments walk slot max =>
      apply keeps_withWalk
      exact fun _ => (keeps_collectFragments max walk slot).bind
        fun _ => .pure _
  | resumeWalk walk =>
      apply keeps_withWalk
      exact fun _ => (keeps_updateWalk _ _).bind fun _ => .pure _
  | restartWalk walk =>
      apply keeps_withWalk
      exact fun _ => (keeps_updateWalk _ _).bind fun _ => .pure _
  | endWalk walk => exact keeps_endWalk walk
  | newReassembler | push | expire | clear | dropReassembler =>
      simp [Command.reassembler?] at unnamed
  | reassemble pool arrivals slot deadline choices =>
      exact keeps_reassemble pool arrivals slot deadline choices

/-! ## Steps that name a reassembler -/

variable {session : Session} {index source now slot : Nat}

/-- The session with the packet that an answer delivers put into a slot. -/
def receiving (session : Session) (slot : Nat) :
    Except BufferError (Option Packet) → Session
  | .ok (some packet) => session.filed slot packet
  | .ok none => session
  | .error _ => session

theorem reassemblers_receiving (slot : Nat)
    (answer : Except BufferError (Option Packet)) :
    (session.receiving slot answer).reassemblers =
      session.reassemblers := by
  match answer with
  | .ok (some packet) => rfl
  | .ok none => rfl
  | .error error => rfl

/-- What a push does to a session. Either nothing comes of it, also because a
packet is lent, or the fragment leaves its slot, the reassembler answers, and
what it delivers is put into the slot for it. Besides, only the pools change. -/
inductive PushEffect (session : Session) (index source now slot : Nat) :
    Reply → Session → Prop
  | idle {reply : Reply}
      (absent : session.reassemblers.get? index = none ∨
        session.packets.get? source = none ∨
        session.lends (.push index source now slot) = true)
      (silent : ∀ datagram answer, reply ≠ .pushed datagram answer) :
      PushEffect session index source now slot reply session
  | answered {reassembler changed : Reassembler} {fragment : Packet}
      {answer : Except BufferError (Option Packet)} {pools last : Pools}
      (found : session.reassemblers.get? index = some reassembler)
      (isFragment : session.packets.get? source = some fragment)
      (pushed : reassembler.push fragment now session.pools =
        .done (answer, changed) pools) :
      PushEffect session index source now slot
        (.pushed (fragment.tag.map FragmentTag.datagram) answer)
        ((((session.vacated source).attended index changed).receiving slot
          answer).withPools last)

theorem push_leaves :
    SessionStep.Satisfies (push index source now slot) session
      (session.PushEffect index source now slot) (fun _ => True) := by
  apply SessionStep.Satisfies.get
  cases found : session.reassemblers.get? index with
  | none => exact PushEffect.idle (Or.inl found) (by simp)
  | some reassembler =>
      apply SessionStep.Satisfies.get
      cases isFragment : session.packets.get? source with
      | none => exact PushEffect.idle (Or.inr (Or.inl isFragment)) (by simp)
      | some fragment =>
          apply SessionStep.Satisfies.changing
          have known := (@Outcome.Satisfies.exactly _
            (reassembler.push fragment now session.pools)).mono
              (fun _ _ ending => ending)
              (fun _ _ ending => (reassembler.push_decided fragment
                now).of_failed ending)
              (fun _ ending => ending)
          apply SessionStep.Satisfies.bind
            (@perform_leaves _ _ (session.vacated source) _ _ _ known)
          intro result _ ending
          obtain ⟨pools, rfl, pushed⟩ := ending
          match result with
          | .error error => exact pushed.elim
          | .ok (answer, changed) =>
              apply SessionStep.Satisfies.changing
              match answer with
              | .error error =>
                  exact PushEffect.answered found isFragment pushed
              | .ok none =>
                  exact PushEffect.answered found isFragment pushed
              | .ok (some packet) =>
                  apply SessionStep.Satisfies.bind (keep_leaves slot packet _)
                  intro _ _ ending
                  obtain ⟨last, rfl⟩ := ending
                  exact PushEffect.answered found isFragment pushed

theorem push_steps :
    SessionStep.Satisfies
      (fun session => session.step (.push index source now slot)) session
      (session.PushEffect index source now slot) (fun _ => True) :=
  step_satisfies (fun isLent => .idle (Or.inr (Or.inr isLent)) (by simp))
    (fun _ => push_leaves)

/-- How a push ends for the reassemblers. Either nothing comes of it, or the
reassembler answers and is in the state that this leads to. -/
inductive PushEnding (session : Session) (index source now : Nat) :
    Reply → Session → Prop
  | idle {reply : Reply} {after : Session}
      (same : after.reassemblers = session.reassemblers)
      (silent : ∀ datagram answer, reply ≠ .pushed datagram answer) :
      PushEnding session index source now reply after
  | answered {reassembler changed : Reassembler} {fragment : Packet}
      {answer : Except BufferError (Option Packet)} {after : Session}
      {pools : Pools}
      (found : session.reassemblers.get? index = some reassembler)
      (isFragment : session.packets.get? source = some fragment)
      (pushed : reassembler.push fragment now session.pools =
        .done (answer, changed) pools)
      (same : after.reassemblers =
        session.reassemblers.insert index changed) :
      PushEnding session index source now
        (.pushed (fragment.tag.map FragmentTag.datagram) answer) after

theorem push_ends :
    SessionStep.Satisfies (push index source now slot) session
      (session.PushEnding index source now) (fun _ => True) := by
  apply push_leaves.monoDone
  intro reply after effect
  cases effect with
  | idle _ silent => exact .idle rfl silent
  | answered found isFragment pushed =>
      exact .answered found isFragment pushed
        (reassemblers_receiving slot _)

theorem push_step_ends :
    SessionStep.Satisfies
      (fun session => session.step (.push index source now slot)) session
      (session.PushEnding index source now) (fun _ => True) :=
  step_satisfies (fun _ => .idle rfl (by simp)) (fun _ => push_ends)

/-- What a command that hands no fragment over, but names a reassembler, does
to a session. Besides, only the pools change. -/
inductive Tended (session : Session) (index : Nat) : Session → Prop
  | untouched : Tended session index session
  | renewed (pool : PoolId) (pools : Pools) :
      Tended session index ((session.attended index
        ⟨pool, (session.pools.get pool).config.reassembly,
          .empty⟩).withPools pools)
  | relieved {previous changed : Reassembler}
      (found : session.reassemblers.get? index = some previous)
      (letsGo : previous.LetsGo changed) (pools : Pools) :
      Tended session index ((session.attended index changed).withPools pools)
  | gone (pools : Pools) :
      Tended session index ((session.unattended index).withPools pools)

theorem Tended.get?_of_ne {after : Session} {other : Nat}
    (tended : session.Tended index after) (different : other ≠ index) :
    after.reassemblers.get? other = session.reassemblers.get? other := by
  cases tended with
  | untouched => rfl
  | renewed pool pools => simp [attended, withPools, different]
  | relieved _ _ pools => simp [attended, withPools, different]
  | gone pools => simp [unattended, withPools, different]

theorem Tended.packets_eq {after : Session}
    (tended : session.Tended index after) :
    after.packets = session.packets := by
  cases tended <;> rfl

theorem Tended.walks_eq {after : Session}
    (tended : session.Tended index after) :
    after.walks = session.walks := by
  cases tended <;> rfl

/-- After a command that hands no fragment over, a reassembler is new or has
at most let go of some datagrams. -/
def Settled (session after : Session) : Prop :=
  ∀ index reassembler,
    after.reassemblers.get? index = some reassembler →
    (∃ pool, reassembler =
      ⟨pool, (session.pools.get pool).config.reassembly, .empty⟩) ∨
    ∃ previous, session.reassemblers.get? index = some previous ∧
      previous.LetsGo reassembler

theorem settled_of_same {after : Session}
    (same : after.reassemblers = session.reassemblers) :
    session.Settled after := by
  intro index reassembler found
  rw [same] at found
  exact Or.inr ⟨reassembler, found, .nothing⟩

theorem Tended.settled {after : Session}
    (tended : session.Tended index after) : session.Settled after := by
  intro other reassembler found
  by_cases isIndex : other = index
  · subst isIndex
    cases tended with
    | untouched => exact Or.inr ⟨reassembler, found, .nothing⟩
    | renewed pool pools =>
        simp only [attended, withPools, Table.get?_insert, if_true] at found
        exact Or.inl ⟨pool, (Option.some.inj found).symm⟩
    | @relieved previous changed wasThere letsGo pools =>
        simp only [attended, withPools, Table.get?_insert, if_true] at found
        cases found
        exact Or.inr ⟨previous, wasThere, letsGo⟩
    | gone pools => simp [unattended, withPools] at found
  · rw [tended.get?_of_ne isIndex] at found
    exact Or.inr ⟨reassembler, found, .nothing⟩

theorem newReassembler_tends (pool : PoolId) (index : Nat)
    (choices : List Nat) :
    SessionStep.Satisfies (carryOut (.newReassembler pool index choices))
      session (fun _ after => session.Tended index after) (fun _ => True) := by
  refine SessionStep.Satisfies.get (SessionStep.Satisfies.ite ?_ ?_)
  · intro _
    have made : (Reassembler.forPool pool session.pools).Satisfies
        (fun reassembler _ => reassembler =
          ⟨pool, (session.pools.get pool).config.reassembly, .empty⟩)
        (fun _ _ => False) (fun _ => True) :=
      Outcome.Satisfies.readPool (Outcome.Satisfies.pure rfl)
    apply SessionStep.Satisfies.bind (perform_leaves made)
    intro result _ ending
    obtain ⟨pools, rfl, known⟩ := ending
    cases result with
    | error error => exact known.elim
    | ok reassembler =>
        subst known
        refine SessionStep.Satisfies.get
          (SessionStep.Satisfies.changing ?_)
        have unchanged : (session.withPools pools).reassemblers =
          session.reassemblers := rfl
        rw [unchanged]
        cases session.reassemblers.get? index with
        | none => exact Tended.renewed pool pools
        | some previous =>
            apply SessionStep.Satisfies.bind (perform_leaves
              (@Outcome.Satisfies.trivially _
                (previous.clear choices pools)))
            rintro _ _ ⟨last, rfl, _⟩
            exact Tended.renewed pool last
  · exact fun _ => Tended.untouched

/-- A look at the clock drops the datagrams that are late and names them. -/
theorem expire_leaves (index now : Nat) :
    SessionStep.Satisfies (carryOut (.expire index now)) session
      (fun reply after =>
        (session.reassemblers.get? index = none ∧ after = session) ∨
        ∃ reassembler pools,
          session.reassemblers.get? index = some reassembler ∧
          reply = .expired (reassembler.late now) ∧
          after = (session.attended index
            (reassembler.swept now)).withPools pools)
      (fun _ => True) := by
  apply SessionStep.Satisfies.get
  cases found : session.reassemblers.get? index with
  | none => exact Or.inl ⟨rfl, rfl⟩
  | some reassembler =>
      apply SessionStep.Satisfies.bind
        (perform_leaves (reassembler.expire_decided now))
      intro result _ ending
      obtain ⟨pools, rfl, known⟩ := ending
      match result with
      | .error error => exact known.elim
      | .ok (late, changed) =>
          cases known
          exact Or.inr ⟨reassembler, pools, rfl, rfl, rfl⟩

theorem expire_tends (index now : Nat) :
    SessionStep.Satisfies (carryOut (.expire index now)) session
      (fun _ after => session.Tended index after) (fun _ => True) := by
  apply (expire_leaves index now).monoDone
  rintro _ _ (⟨_, rfl⟩ | ⟨reassembler, pools, found, _, rfl⟩)
  · exact .untouched
  · exact .relieved found (.late now) pools

theorem clear_tends (index : Nat) (choices : List Nat) :
    SessionStep.Satisfies (carryOut (.clear index choices)) session
      (fun _ after => session.Tended index after) (fun _ => True) := by
  apply SessionStep.Satisfies.get
  cases found : session.reassemblers.get? index with
  | none => exact Tended.untouched
  | some reassembler =>
      apply SessionStep.Satisfies.bind
        (perform_leaves (reassembler.clear_decided choices))
      intro result _ ending
      obtain ⟨pools, rfl, known⟩ := ending
      cases result with
      | error error => exact known.elim
      | ok changed =>
          cases known
          exact Tended.relieved found .everything pools

theorem dropReassembler_tends (index : Nat) (choices : List Nat) :
    SessionStep.Satisfies (carryOut (.dropReassembler index choices)) session
      (fun _ after => session.Tended index after) (fun _ => True) := by
  apply SessionStep.Satisfies.get
  cases session.reassemblers.get? index with
  | none => exact Tended.untouched
  | some reassembler =>
      refine SessionStep.Satisfies.changing (SessionStep.Satisfies.bind
        (perform_leaves (@Outcome.Satisfies.trivially _
          (reassembler.clear choices session.pools))) ?_)
      rintro _ _ ⟨pools, rfl, _⟩
      exact Tended.gone pools

/-- Every command that is no push tends to the reassembler that it names, if it
names one. -/
theorem carryOut_tends {command : Command}
    (noPush : ∀ index source now slot,
      command ≠ .push index source now slot) :
    SessionStep.Satisfies (carryOut command) session
      (fun _ after => after.reassemblers = session.reassemblers ∨
        ∃ index, command.reassembler? = some index ∧
          session.Tended index after) (fun _ => True) := by
  by_cases unnamed : command.reassembler? = none
  · apply (keeps_carryOut unnamed session).monoDone
    exact fun _ _ same => Or.inl same
  · cases command with
    | newReassembler pool index choices =>
        apply (newReassembler_tends pool index choices).monoDone
        exact fun _ _ tended => Or.inr ⟨index, rfl, tended⟩
    | push index source now slot => exact absurd rfl (noPush _ _ _ _)
    | expire index now =>
        apply (expire_tends index now).monoDone
        exact fun _ _ tended => Or.inr ⟨index, rfl, tended⟩
    | clear index choices =>
        apply (clear_tends index choices).monoDone
        exact fun _ _ tended => Or.inr ⟨index, rfl, tended⟩
    | dropReassembler index choices =>
        apply (dropReassembler_tends index choices).monoDone
        exact fun _ _ tended => Or.inr ⟨index, rfl, tended⟩
    | _ => simp [Command.reassembler?] at unnamed

theorem carryOut_settles {command : Command}
    (noPush : ∀ index source now slot,
      command ≠ .push index source now slot) :
    SessionStep.Satisfies (carryOut command) session
      (fun _ after => session.Settled after) (fun _ => True) := by
  apply (carryOut_tends noPush).monoDone
  rintro _ _ (same | ⟨index, _, tended⟩)
  · exact settled_of_same same
  · exact tended.settled

/-- A reassembler is left alone by the commands that do not name it. -/
theorem carryOut_spares {command : Command} {index : Nat}
    (unnamed : command.reassembler? ≠ some index) :
    SessionStep.Satisfies (carryOut command) session
      (fun _ after => after.reassemblers.get? index =
        session.reassemblers.get? index) (fun _ => True) := by
  rcases command.push_or_not with ⟨named, source, now, slot, rfl⟩ | noPush
  · have different : index ≠ named := by
      rintro rfl
      exact unnamed rfl
    apply SessionStep.Satisfies.monoDone push_ends
    intro reply after ending
    cases ending with
    | idle same _ => rw [same]
    | answered _ _ _ same => rw [same, Table.get?_insert, if_neg different]
  · apply (carryOut_tends noPush).monoDone
    rintro _ _ (same | ⟨named, isNamed, tended⟩)
    · rw [same]
    · apply tended.get?_of_ne
      rintro rfl
      exact unnamed isNamed

theorem step_spares {command : Command} {index : Nat}
    (unnamed : command.reassembler? ≠ some index) :
    SessionStep.Satisfies (fun session => session.step command) session
      (fun _ after => after.reassemblers.get? index =
        session.reassemblers.get? index) (fun _ => True) :=
  step_keeps rfl (carryOut_spares unnamed)

end Session

end PooledPackets
