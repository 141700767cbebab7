import PooledPackets.Proofs.Sessions.Reassemblers
import PooledPackets.Proofs.Zones.Buffers
import PooledPackets.Proofs.Zones.Operations

/-!
# Segments on their way through a session

Every segment after a command is one from before the command. It may have been
emptied, and filled if the command puts payload into segments; nothing else
has happened to it, unless the command writes into a zone.
-/

namespace PooledPackets

open SessionStep

/-! ## All segments of a session -/

namespace Session

/-- A segment is free in some pool, or it is in the chain of a live packet. -/
def Contains (session : Session) (segment : Segment) : Prop :=
  (∃ id, segment ∈ (session.pools.get id).free) ∨
    ∃ packet ∈ session.live, segment ∈ packet.chain

/-- Every segment afterwards comes from one before. -/
def Turns (session : Session) (into : Segment → Segment → Prop)
    (after : Session) : Prop :=
  ∀ segment, after.Contains segment →
    ∃ origin, session.Contains origin ∧ into origin segment

end Session

/-- All segments of a session are as they are to be. -/
structure Custody.Holds (custody : Custody) (session : Session) : Prop where
  supplies : custody.Supplies session.pools
  includes : ∀ packet ∈ session.live, custody.Includes packet

namespace Custody.Holds

variable {custody : Custody} {session : Session} {slot index : Nat}
variable {packet : Packet} {reassembler : Reassembler}

theorem of_contains {segment : Segment} (holds : custody.Holds session)
    (contains : session.Contains segment) : custody.kept segment := by
  rcases contains with ⟨id, isFree⟩ | ⟨packet, isLive, inChain⟩
  · exact (holds.supplies id).free segment isFree
  · exact holds.includes packet isLive segment inChain

theorem of_all
    (all : ∀ segment, session.Contains segment → custody.kept segment)
    (chains : ∀ id,
      (session.pools.get id).config.chaining = custody.chains id) :
    custody.Holds session where
  supplies := fun id =>
    ⟨fun segment isFree => all segment (Or.inl ⟨id, isFree⟩), chains id⟩
  includes := fun packet isLive segment inChain =>
    all segment (Or.inr ⟨packet, isLive, inChain⟩)

theorem found (holds : custody.Holds session)
    (isThere : session.packets.get? slot = some packet) :
    custody.Includes packet :=
  holds.includes packet (Session.mem_live_of_packet isThere)

theorem foundReassembler (holds : custody.Holds session)
    (isThere : session.reassemblers.get? index = some reassembler) :
    ∀ held ∈ reassembler.fragments, custody.Includes held :=
  fun held member => holds.includes held
    ((Session.live_perm_of_reassembler isThere).mem_iff.mpr
      (List.mem_append_left _ member))

/-- The packet that a walk has borrowed is in its slot. -/
theorem foundWalk {walk : Walk} (holds : custody.Holds session)
    (isThere : session.walk? index = some walk) :
    custody.Includes walk.fragmenter.source :=
  holds.found (Session.walk?_eq_some_iff.mp isThere).1

theorem withPools (holds : custody.Holds session) {pools : Pools}
    (supplies : custody.Supplies pools) :
    custody.Holds (session.withPools pools) :=
  ⟨supplies, holds.includes⟩

theorem vacated (holds : custody.Holds session) (slot : Nat) :
    custody.Holds (session.vacated slot) where
  supplies := holds.supplies
  includes := fun packet isLive =>
    holds.includes packet (session.live_vacated_subset slot isLive)

theorem filed (holds : custody.Holds session) (slot : Nat)
    (includes : custody.Includes packet) :
    custody.Holds (session.filed slot packet) where
  supplies := holds.supplies
  includes := by
    intro other isLive
    rcases List.mem_cons.mp ((Session.live_filed_perm session slot
        packet).mem_iff.mp isLive) with rfl | isOther
    · exact includes
    · exact (holds.vacated slot).includes other isOther

theorem unattended (holds : custody.Holds session) (index : Nat) :
    custody.Holds (session.unattended index) where
  supplies := holds.supplies
  includes := fun packet isLive =>
    holds.includes packet (session.live_unattended_subset index isLive)

theorem attended (holds : custody.Holds session) (index : Nat)
    (all : ∀ held ∈ reassembler.fragments, custody.Includes held) :
    custody.Holds (session.attended index reassembler) where
  supplies := holds.supplies
  includes := by
    intro packet isLive
    rcases List.mem_append.mp ((Session.live_attended_perm session index
        reassembler).mem_iff.mp isLive) with isHeld | isOther
    · exact all packet isHeld
    · exact (holds.unattended index).includes packet isOther

/-- The walks hold no segments. -/
theorem walking (holds : custody.Holds session) (walks : Table Walk) :
    custody.Holds { session with walks } :=
  ⟨holds.supplies, holds.includes⟩

end Custody.Holds

/-! ## Steps that keep it -/

/-- A step after which all segments are still as they are to be. -/
def SessionStep.Carries {α : Type} (custody : Custody)
    (step : SessionStep α) : Prop :=
  ∀ session, custody.Holds session → Satisfies step session
    (fun _ after => custody.Holds after) (fun _ => True)

namespace SessionStep.Carries

variable {α β : Type} {custody : Custody} {step : SessionStep α}
variable {next : α → SessionStep β}

theorem pure (value : α) : Carries custody (Pure.pure value) :=
  fun _ holds => holds

theorem bind (first : step.Carries custody)
    (second : ∀ value, (next value).Carries custody) :
    Carries custody (step >>= next) :=
  fun session holds => (first session holds).bind
    fun value after => second value after

theorem get {next : Session → SessionStep α}
    (goesOn : ∀ session, (next session).Carries custody) :
    Carries custody (MonadState.get >>= next) :=
  fun session holds => Satisfies.get (goesOn session session holds)

theorem modify {change : Session → Session}
    (changes : ∀ session, custody.Holds session →
      custody.Holds (change session)) :
    Carries custody (modify change) :=
  fun session holds => changes session holds

theorem ite {condition : Prop} [Decidable condition]
    {yes no : SessionStep α} (ifTrue : yes.Carries custody)
    (ifFalse : no.Carries custody) :
    Carries custody (if condition then yes else no) :=
  fun session holds => Satisfies.ite (fun _ => ifTrue session holds)
    (fun _ => ifFalse session holds)

/-- What goes on after an operation knows of what the operation made. -/
theorem perform {operation : Operation α} {made : α → Prop}
    {next : Except BufferError α → SessionStep β}
    (carries : operation.Carries custody made)
    (refused : ∀ error, (next (.error error)).Carries custody)
    (goesOn : ∀ value, made value → (next (.ok value)).Carries custody) :
    Carries custody (Session.perform operation >>= next) := by
  intro session holds
  apply Satisfies.bind
    (Session.perform_leaves (carries session.pools holds.supplies))
  intro result after ending
  obtain ⟨pools, rfl, known⟩ := ending
  cases result with
  | error error => exact refused error _ (holds.withPools known)
  | ok value => exact goesOn value known.1 _ (holds.withPools known.2)

end SessionStep.Carries

namespace Session

variable {custody : Custody} {session : Session} {packet : Packet}

/-! ## The parts of a step -/

theorem breakOff_carries {α : Type} (stop : Stop) :
    Carries custody (breakOff stop : SessionStep α) := by
  intro session _
  obtain ⟨ended, broken⟩ := exists_breakOff_eq (α := α) stop session
  simp [SessionStep.Satisfies, broken]

theorem discard_carries (clears : custody.Clears)
    (includes : custody.Includes packet) :
    (discard packet).Carries custody :=
  .perform (Packet.drop_carries clears includes) (fun _ => .pure _)
    fun _ _ => .pure _

theorem update_carries (slot : Nat) (includes : custody.Includes packet) :
    (update slot packet).Carries custody :=
  .modify fun _ holds => holds.filed slot includes

theorem vacate_carries (slot : Nat) : (vacate slot).Carries custody :=
  .modify fun _ holds => holds.vacated slot

theorem updateReassembler_carries (index : Nat) {reassembler : Reassembler}
    (all : ∀ held ∈ reassembler.fragments, custody.Includes held) :
    (updateReassembler index reassembler).Carries custody :=
  .modify fun _ holds => holds.attended index all

theorem keep_carries (clears : custody.Clears) (slot : Nat)
    (includes : custody.Includes packet) :
    (keep slot packet).Carries custody := by
  intro session holds
  apply SessionStep.Satisfies.get
  cases found : session.packets.get? slot with
  | none => exact holds.filed slot includes
  | some previous =>
      exact discard_carries clears (holds.found found)
        (session.filed slot packet) (holds.filed slot includes)

theorem withPacket_carries {slot : Nat} {next : Packet → SessionStep Reply}
    (goesOn : ∀ packet, custody.Includes packet →
      (next packet).Carries custody) :
    (withPacket slot next).Carries custody := by
  intro session holds
  apply SessionStep.Satisfies.get
  cases found : session.packets.get? slot with
  | none => exact holds
  | some packet => exact goesOn packet (holds.found found) session holds

theorem withPool_carries {id : PoolId} {next : SessionStep Reply}
    (goesOn : next.Carries custody) : (withPool id next).Carries custody :=
  .get fun _ => .ite goesOn (.pure _)

theorem withReassembler_carries {index : Nat}
    {next : Reassembler → SessionStep Reply}
    (goesOn : ∀ reassembler,
      (∀ held ∈ reassembler.fragments, custody.Includes held) →
        (next reassembler).Carries custody) :
    (withReassembler index next).Carries custody := by
  intro session holds
  apply SessionStep.Satisfies.get
  cases found : session.reassemblers.get? index with
  | none => exact holds
  | some reassembler =>
      exact goesOn reassembler (holds.foundReassembler found) session holds

theorem withWalk_carries {index : Nat} {next : Walk → SessionStep Reply}
    (goesOn : ∀ walk, custody.Includes walk.fragmenter.source →
      (next walk).Carries custody) :
    (withWalk index next).Carries custody := by
  intro session holds
  apply SessionStep.Satisfies.get
  cases found : session.walk? index with
  | none => exact holds
  | some walk => exact goesOn walk (holds.foundWalk found) session holds

theorem updateWalk_carries (index : Nat) (walk : Walk) :
    (updateWalk index walk).Carries custody :=
  .modify fun _ holds => holds.walking _

theorem keepResult_carries (clears : custody.Clears) {slot : Nat}
    {operation : Operation Packet}
    (carries : operation.Carries custody custody.Includes) :
    (keepResult slot operation).Carries custody :=
  .perform carries (fun _ => .pure _) fun _ includes =>
    (keep_carries clears slot includes).bind fun _ => .pure _

theorem updateResult_carries {slot : Nat} {operation : Operation Packet}
    {reply : Packet → Reply}
    (carries : operation.Carries custody custody.Includes) :
    (updateResult slot operation reply).Carries custody :=
  .perform carries (fun _ => .pure _) fun _ includes =>
    (update_carries slot includes).bind fun _ => .pure _

/-! ## Splitting packets -/

theorem nextFragment_carries (clears : custody.Clears)
    (fills : custody.Fills) (index slot : Nat) :
    (nextFragment index slot).Carries custody := by
  apply withWalk_carries
  intro walk includes
  refine .perform (walk.fragmenter.next_carries clears fills includes)
    (fun _ => .pure _) ?_
  intro answer known
  obtain ⟨result, fragmenter⟩ := answer
  refine .bind (updateWalk_carries index _) fun _ => ?_
  match result with
  | none => exact .pure _
  | some (.error error) => exact .pure _
  | some (.ok fragment) =>
      exact (keep_carries clears slot (known.1 fragment rfl)).bind
        fun _ => .pure _

theorem collectFragments_carries (clears : custody.Clears)
    (fills : custody.Fills) (index : Nat) :
    ∀ (max slot : Nat), (collectFragments index slot max).Carries custody
  | 0, _ => .pure _
  | max + 1, slot => by
      apply (nextFragment_carries clears fills index slot).bind
      intro reply
      match reply with
      | .fragment (some (.ok fragment)) =>
          exact (collectFragments_carries clears fills index max
            (slot + 1)).bind fun _ => .pure _
      | .fragment (some (.error error)) =>
          exact (collectFragments_carries clears fills index max slot).bind
            fun _ => .pure _
      | .fragment none | .nothing | .packet _ | .refused _ | .noSuchPool
      | .noSuchSlot | .noSuchReassembler | .noSuchWalk | .lent | .pieces _
      | .copied _ _ | .counts _ | .swapped _ | .headerZone _ | .walk _
      | .fragments _ | .pushed _ _ | .expired _ =>
          exact .pure _

theorem beginWalk_carries (pool : PoolId) (slot mtu index : Nat) :
    (beginWalk pool slot mtu index).Carries custody := by
  apply withPool_carries
  apply withPacket_carries
  intro packet includes
  refine .perform (Pool.fragmentForLink_carries pool includes mtu)
    (fun _ => .pure _) fun fragmenter _ => ?_
  exact (updateWalk_carries index _).bind fun _ => .pure _

/-! ## Exchanges and reassemblers -/

theorem swapFirst_carries (first second : Nat) :
    (swapFirst first second).Carries custody := by
  refine .ite (.pure _) (withPacket_carries fun one isOne => ?_)
  refine withPacket_carries fun other isOther => .ite (.pure _) ?_
  have exchangedOne : custody.Includes (one.exchangeChains other).1 := isOther
  have exchangedOther : custody.Includes (one.exchangeChains other).2 := isOne
  exact (update_carries first exchangedOne).bind fun _ =>
    (update_carries second exchangedOther).bind fun _ => .pure _

theorem newReassembler_carries (clears : custody.Clears) (pool : PoolId)
    (index : Nat) (choices : List Nat) :
    (carryOut (.newReassembler pool index choices)).Carries custody := by
  apply withPool_carries
  have begins : (Reassembler.forPool pool).Carries custody
      (fun reassembler => reassembler.fragments = []) :=
    .readPool fun _ _ => .pure rfl
  refine .perform begins (fun _ => .pure _) fun reassembler nothingHeld => ?_
  intro session holds
  apply SessionStep.Satisfies.get
  have taken : custody.Holds (session.attended index reassembler) :=
    holds.attended index (by simp [nothingHeld])
  apply SessionStep.Satisfies.changing
  cases found : session.reassemblers.get? index with
  | none => exact taken
  | some previous =>
      have cleared : Carries custody (do
          let _ ← perform (previous.clear choices)
          pure .nothing : SessionStep Reply) :=
        .perform (Reassembler.clear_carries clears
          (holds.foundReassembler found)) (fun _ => .pure _)
            fun _ _ => .pure _
      exact cleared _ taken

/-- A push copies the payload of a datagram that it makes whole. -/
def PushCopies (session : Session) (index source now : Nat) : Prop :=
  ∃ reassembler fragment deadline longer,
    session.reassemblers.get? index = some reassembler ∧
    session.packets.get? source = some fragment ∧
    reassembler.limits.timeout.after? now = some deadline ∧
    (reassembler.judge fragment now deadline).1 = .whole longer ∧
    ¬((session.pools.get reassembler.pool).config.chaining = true ∧
      ∀ part ∈ longer.fragments, part.pool = reassembler.pool)

theorem push_carries (clears : custody.Clears)
    {index source now slot : Nat} (holds : custody.Holds session)
    (fills : session.PushCopies index source now → custody.Fills) :
    SessionStep.Satisfies (push index source now slot) session
      (fun _ after => custody.Holds after) (fun _ => True) := by
  apply SessionStep.Satisfies.get
  cases found : session.reassemblers.get? index with
  | none => exact holds
  | some reassembler =>
      apply SessionStep.Satisfies.get
      cases isFragment : session.packets.get? source with
      | none => exact holds
      | some fragment =>
          have all : ∀ held ∈ fragment :: reassembler.fragments,
              custody.Includes held :=
            List.forall_mem_cons.mpr ⟨holds.found isFragment,
              holds.foundReassembler found⟩
          have copies : ∀ deadline longer,
              reassembler.limits.timeout.after? now = some deadline →
              (reassembler.judge fragment now deadline).1 = .whole longer →
              ¬(custody.chains reassembler.pool = true ∧
                ∀ part ∈ longer.fragments, part.pool = reassembler.pool) →
              custody.Fills := by
            intro deadline longer reading isWhole foreign
            rw [← (holds.supplies reassembler.pool).chaining_eq] at foreign
            exact fills ⟨reassembler, fragment, deadline, longer, found,
              isFragment, reading, isWhole, foreign⟩
          refine (SessionStep.Carries.bind (vacate_carries source)
            fun _ => ?_) session holds
          refine .perform (Reassembler.push_carries clears all copies)
            (fun _ => .pure _) ?_
          rintro ⟨answer, changed⟩ ⟨delivers, deadline, isState⟩
          cases isState
          refine .bind (updateReassembler_carries index
            fun held member => all held
              (reassembler.fragments_judge_subset _ _ _ member))
            fun _ => ?_
          match answer with
          | .error error => exact .pure _
          | .ok none => exact .pure _
          | .ok (some packet) =>
              exact (keep_carries clears slot (delivers packet rfl)).bind
                fun _ => .pure _

/-- A datagram that is reassembled at once is copied. -/
def ReassembleCopies (session : Session) (pool : PoolId)
    (arrivals : List (Nat × Nat)) : Prop :=
  ∃ fragments,
    session.packetsIn? (arrivals.map Prod.snd) = some fragments ∧
    ¬((session.pools.get pool).config.chaining = true ∧
      ∀ fragment ∈ fragments, fragment.pool = pool)

theorem forM_vacate_carries :
    ∀ slots : List Nat, (slots.forM vacate).Carries custody
  | [] => .pure _
  | slot :: rest =>
      (vacate_carries slot).bind fun _ => forM_vacate_carries rest

theorem reassemble_carries (clears : custody.Clears) {pool : PoolId}
    {arrivals : List (Nat × Nat)} {slot deadline : Nat}
    {choices : List Nat} (holds : custody.Holds session)
    (fills : session.ReassembleCopies pool arrivals → custody.Fills) :
    SessionStep.Satisfies (reassemble pool arrivals slot deadline choices)
      session (fun _ after => custody.Holds after) (fun _ => True) := by
  refine SessionStep.Satisfies.get
    (SessionStep.Satisfies.ite (fun _ => ?_) fun _ => holds)
  apply SessionStep.Satisfies.get
  cases found : session.packetsIn? (arrivals.map Prod.snd) with
  | none => exact holds
  | some fragments =>
      have isThere := found
      simp only [packetsIn?] at found
      split at found
      case isFalse => cases found
      case isTrue nodup =>
        obtain ⟨sameLength, perm⟩ := live_perm_of_packets nodup found
        have arrived : ((arrivals.map Prod.fst).zip fragments).map
            Prod.snd = fragments := by
          apply List.map_snd_zip
          simpa using Nat.le_of_eq sameLength
        have all : ∀ packet ∈ fragments, custody.Includes packet :=
          fun packet member => holds.includes packet
            (perm.mem_iff.mpr (List.mem_append_left _ member))
        refine (SessionStep.Carries.bind (forM_vacate_carries _)
          fun _ => ?_) session holds
        apply keepResult_carries clears
        apply Pool.reassemble_carries clears
        · rw [arrived]
          exact all
        · rw [arrived]
          intro foreign
          refine fills ⟨fragments, isThere, ?_⟩
          rw [(holds.supplies pool).chaining_eq]
          exact foreign

end Session

/-! ## Every command -/

/-- Whether a command writes into zones of segments as they stand. -/
def Command.stamps : Command → Bool
  | .writeZone .. => true
  | .writeFragmentHeader _ => true
  | _ => false

namespace Session

variable {custody : Custody} {session : Session}

/-- A command that may put payload into segments. -/
def MayFill (session : Session) : Command → Prop
  | .packetFrom .. => True
  | .append .. => True
  | .copy .. => True
  | .receive .. => True
  | .nextFragment .. => True
  | .collectFragments .. => True
  | .push index source now _ => session.PushCopies index source now
  | .reassemble pool arrivals _ _ _ =>
      session.ReassembleCopies pool arrivals
  | _ => False

/-- Whatever emptying a segment keeps every command keeps that stamps no zone,
if filling a segment keeps it too or nothing is filled. -/
theorem carryOut_carries {command : Command}
    (unstamped : command.stamps = false) (clears : custody.Clears)
    (fills : session.MayFill command → custody.Fills)
    (holds : custody.Holds session) :
    SessionStep.Satisfies (carryOut command) session
      (fun _ after => custody.Holds after) (fun _ => True) := by
  have always : ∀ {step : SessionStep Reply}, step.Carries custody →
      SessionStep.Satisfies step session
        (fun _ after => custody.Holds after) (fun _ => True) :=
    fun carries => carries session holds
  cases command with
  | newPool =>
      have counted : ∀ made (session : Session), custody.Holds session →
          custody.Holds { session with made } :=
        fun _ _ holds => ⟨holds.supplies, holds.includes⟩
      exact always (.get fun _ => .bind (.modify (counted _)) fun _ =>
        withPool_carries (.pure _))
  | allocate pool len slot =>
      exact always (withPool_carries (keepResult_carries clears
        (Pool.allocate_carries pool len)))
  | packetFrom pool bytes slot =>
      exact always (withPool_carries (keepResult_carries clears
        (Pool.allocateWith_carries clears (fills trivial) pool _ _)))
  | append slot bytes =>
      exact always (withPacket_carries fun packet includes =>
        updateResult_carries
          (Packet.append_carries (fills trivial) includes bytes))
  | release slot =>
      exact always (withPacket_carries fun packet includes =>
        updateResult_carries (Packet.release_carries clears includes))
  | drop slot =>
      apply always
      refine withPacket_carries fun packet includes => ?_
      refine (vacate_carries slot).bind fun _ => ?_
      exact (discard_carries clears includes).bind fun _ => .pure _
  | copy pool source slot =>
      exact always (withPool_carries (withPacket_carries fun packet _ =>
        keepResult_carries clears
          (Pool.copyPacket_carries clears (fills trivial) pool packet)))
  | receive pool frame slot =>
      exact always (withPool_carries (.get fun _ =>
        keepResult_carries clears
          (Pool.receiveFrame_carries clears (fills trivial) pool _)))
  | slices slot offset len =>
      refine always (withPacket_carries fun packet _ => ?_)
      cases packet.slices? offset len with
      | none => exact breakOff_carries .outOfRange
      | some pieces => exact .pure _
  | readAt slot offset destination =>
      refine always (withPacket_carries fun packet _ => ?_)
      cases packet.readAt offset destination with
      | copied count destination => exact .pure _
      | refused error => exact .pure _
      | outOfRange => exact breakOff_carries .outOfRange
  | copyTo slot destination =>
      exact always (withPacket_carries fun _ _ => .pure _)
  | writeZone slot zone only bytes => cases unstamped
  | swapFirst first second => exact always (swapFirst_carries first second)
  | writeFragmentHeader slot => cases unstamped
  | beginWalk pool slot mtu index =>
      exact always (beginWalk_carries pool slot mtu index)
  | nextFragment index slot =>
      exact always (nextFragment_carries clears (fills trivial) index slot)
  | collectFragments index slot max =>
      refine always (withWalk_carries fun walk _ => ?_)
      exact (collectFragments_carries clears (fills trivial) index max
        slot).bind fun _ => .pure _
  | resumeWalk index | restartWalk index =>
      refine always (withWalk_carries fun walk _ => ?_)
      exact (updateWalk_carries index _).bind fun _ => .pure _
  | endWalk index =>
      refine always (withWalk_carries fun walk _ => ?_)
      exact .bind (.modify fun _ holds => holds.walking _) fun _ => .pure _
  | newReassembler pool index choices =>
      exact always (newReassembler_carries clears pool index choices)
  | push index source now slot => exact push_carries clears holds fills
  | expire index now =>
      refine always (withReassembler_carries fun reassembler all => ?_)
      refine .perform (Reassembler.expire_carries clears all now)
        (fun _ => .pure _) ?_
      rintro _ rfl
      refine .bind (updateReassembler_carries index fun held member =>
        all held ?_) fun _ => .pure _
      exact (reassembler.fragments_perm_swept now).mem_iff.mpr
        (List.mem_append_right _ member)
  | clear index choices =>
      refine always (withReassembler_carries fun reassembler all => ?_)
      refine .perform (Reassembler.clear_carries clears all)
        (fun _ => .pure _) ?_
      rintro _ rfl
      exact (updateReassembler_carries index
        fun held member => by cases member).bind fun _ => .pure _
  | dropReassembler index choices =>
      refine always (withReassembler_carries fun reassembler all => ?_)
      refine .bind (.modify fun _ holds => holds.unattended index)
        fun _ => ?_
      exact .perform (Reassembler.clear_carries clears all)
        (fun _ => .pure _) fun _ _ => .pure _
  | reassemble pool arrivals slot deadline choices =>
      exact reassemble_carries clears holds fills

/-- Every segment after a command that stamps no zone is one from before it
that was moved on. -/
theorem carryOut_moves {command : Command}
    (unstamped : command.stamps = false) :
    SessionStep.Satisfies (carryOut command) session
      (fun _ after => session.Turns
        (Segment.Moved (session.MayFill command)) after)
      (fun _ => True) := by
  let custody : Custody :=
    { kept := fun segment => ∃ origin, session.Contains origin ∧
        origin.Descends (session.MayFill command) segment
      chains := fun id => (session.pools.get id).config.chaining }
  have clears : custody.Clears := by
    rintro segment ⟨origin, contains, descends⟩
    exact ⟨origin, contains, descends.cleared⟩
  have fills : session.MayFill command → custody.Fills := by
    rintro mayFill segment bytes ⟨origin, contains, descends⟩
    exact ⟨origin, contains, descends.filled mayFill bytes⟩
  have holds : custody.Holds session := .of_all
    (fun segment contains => ⟨segment, contains, .same⟩) fun _ => rfl
  apply (carryOut_carries unstamped clears fills holds).monoDone
  intro _ after still segment contains
  obtain ⟨origin, wasThere, descends⟩ := still.of_contains contains
  exact ⟨origin, wasThere, descends.moved⟩

/-- Appending only fills segments. -/
theorem append_fills {slot : Nat} {bytes : Bytes} :
    SessionStep.Satisfies (carryOut (.append slot bytes)) session
      (fun _ after => session.Turns Segment.Fills after)
      (fun _ => True) := by
  let custody : Custody :=
    { kept := fun segment => ∃ origin, session.Contains origin ∧
        origin.Fills segment
      chains := fun id => (session.pools.get id).config.chaining }
  have fills : custody.Fills := by
    rintro segment bytes ⟨origin, contains, isFilled⟩
    exact ⟨origin, contains, isFilled.trans (segment.fills_append bytes)⟩
  have holds : custody.Holds session := .of_all
    (fun segment contains => ⟨segment, contains, .refl segment⟩)
    fun _ => rfl
  have carries : (carryOut (.append slot bytes)).Carries custody :=
    withPacket_carries fun packet includes =>
      updateResult_carries (Packet.append_carries fills includes bytes)
  apply (carries session holds).monoDone
  exact fun _ after still segment contains => still.of_contains contains

end Session

end PooledPackets
