import PooledPackets.Proofs.Sessions.Reassemblers

/-!
# Packets that are lent

A walk borrows the packet that it splits. Until it has ended, a command that
could change this packet is refused, and all others leave it where it is as it
is. So a walk goes on over the same bytes whatever happens in between.
-/

namespace PooledPackets

open Operation

/-- The walk that a command names. -/
def Command.walk? : Command → Option Nat
  | .beginWalk _ _ _ walk | .nextFragment walk _ | .collectFragments walk _ _
  | .resumeWalk walk | .restartWalk walk | .endWalk walk => some walk
  | _ => none

/-! ## The next fragment -/

namespace Fragmenter

/-- A fragmenter that was asked for the next fragment goes on over the same
packet, also where none could be made. -/
theorem next_source_eq (fragmenter : Fragmenter) (pools : Pools) :
    (fragmenter.next pools).Satisfies
      (fun result _ => result.2.source = fragmenter.source)
      (fun _ _ => False) (fun _ => True) := by
  refine Outcome.Satisfies.ite (fun _ => rfl) fun _ => ?_
  apply Outcome.Satisfies.bind (@Outcome.Satisfies.trivially _
    (fragmenter.build fragmenter.nextLength pools)).attempt
  intro result _ _
  cases result with
  | error error => exact Outcome.Satisfies.pure rfl
  | ok fragment => exact Outcome.Satisfies.pure rfl

end Fragmenter

namespace SessionStep

variable {α β : Type}

/-- A step that leaves the walks and the packets in some slots as they are,
from every session. -/
def KeepsLent (lent : Nat → Prop) (step : SessionStep α) : Prop :=
  ∀ session, Satisfies step session
    (fun _ after => after.walks = session.walks ∧
      ∀ slot, lent slot →
        after.packets.get? slot = session.packets.get? slot)
    (fun _ => True)

namespace KeepsLent

variable {lent : Nat → Prop} {step : SessionStep α}
variable {next : α → SessionStep β}

theorem pure (value : α) : KeepsLent lent (Pure.pure value) :=
  fun _ => ⟨rfl, fun _ _ => rfl⟩

theorem bind (first : KeepsLent lent step)
    (second : ∀ value, KeepsLent lent (next value)) :
    KeepsLent lent (step >>= next) := by
  intro session
  apply Satisfies.bind (first session)
  intro value between same
  apply (second value between).monoDone
  intro _ after further
  exact ⟨further.1.trans same.1, fun slot isLent =>
    (further.2 slot isLent).trans (same.2 slot isLent)⟩

theorem get {next : Session → SessionStep α}
    (goesOn : ∀ session, KeepsLent lent (next session)) :
    KeepsLent lent (MonadState.get >>= next) :=
  fun session => Satisfies.get (goesOn session session)

theorem modify {change : Session → Session}
    (same : ∀ session, (change session).walks = session.walks ∧
      ∀ slot, lent slot →
        (change session).packets.get? slot = session.packets.get? slot) :
    KeepsLent lent (modify change) :=
  fun session => same session

theorem ite {condition : Prop} [Decidable condition]
    {yes no : SessionStep α} (ifTrue : KeepsLent lent yes)
    (ifFalse : KeepsLent lent no) :
    KeepsLent lent (if condition then yes else no) :=
  fun session => Satisfies.ite (fun _ => ifTrue session)
    (fun _ => ifFalse session)

end KeepsLent

end SessionStep

namespace Session

open SessionStep

variable {session after : Session} {command : Command} {index slot : Nat}

/-! ## What is lent -/

theorem lends_eq_false_iff : session.lends command = false ↔
    ∀ index walk, session.walks.get? index = some walk →
      command.changes walk.slot = false := by
  simp only [lends, List.any_eq_false, Table.values, List.mem_map,
    Bool.not_eq_true, Table.get?_eq_some_iff]
  constructor
  · intro free index walk begun
    exact free walk ⟨(index, walk), begun, rfl⟩
  · intro free walk begun
    obtain ⟨⟨index, _⟩, member, rfl⟩ := begun
    exact free index _ member

/-- A walk is the same as long as it and its packet are. -/
theorem walk?_congr
    (sameWalk : after.walks.get? index = session.walks.get? index)
    (samePacket : ∀ walk, session.walks.get? index = some walk →
      after.packets.get? walk.slot = session.packets.get? walk.slot) :
    after.walk? index = session.walk? index := by
  rw [walk?, walk?, sameWalk]
  cases begun : session.walks.get? index with
  | none => rfl
  | some walk =>
      rw [Option.bind_eq_bind, Option.bind_some, samePacket walk begun]
      rfl

/-! ## Steps that leave alone what is lent -/

variable {lent : Nat → Prop}

theorem keepsLent_perform {α : Type} (operation : Operation α) :
    KeepsLent lent (perform operation) := by
  intro session
  have ends := @Outcome.Satisfies.trivially α (operation session.pools)
  apply (perform_leaves ends).monoDone
  intro result after ending
  obtain ⟨pools, rfl, _⟩ := ending
  exact ⟨rfl, fun _ _ => rfl⟩

theorem keepsLent_breakOff {α : Type} (stop : Stop) :
    KeepsLent lent (breakOff stop : SessionStep α) := by
  intro session
  obtain ⟨ended, broken⟩ := exists_breakOff_eq (α := α) stop session
  simp [SessionStep.Satisfies, broken]

theorem keepsLent_update (free : ¬lent slot) (packet : Packet) :
    KeepsLent lent (update slot packet) := by
  refine .modify fun session => ⟨rfl, fun other isLent => ?_⟩
  have different : other ≠ slot := fun same => free (same ▸ isLent)
  rw [Table.get?_insert, if_neg different]

theorem keepsLent_vacate (free : ¬lent slot) :
    KeepsLent lent (vacate slot) := by
  refine .modify fun session => ⟨rfl, fun other isLent => ?_⟩
  have different : other ≠ slot := fun same => free (same ▸ isLent)
  rw [Table.get?_erase, if_neg different]

theorem keepsLent_keep (free : ¬lent slot) (packet : Packet) :
    KeepsLent lent (keep slot packet) := by
  intro session
  apply (keep_leaves slot packet session).monoDone
  intro _ after ending
  obtain ⟨pools, rfl⟩ := ending
  refine ⟨rfl, fun other isLent => ?_⟩
  have different : other ≠ slot := fun same => free (same ▸ isLent)
  rw [withPools, filed, Table.get?_insert, if_neg different]

theorem keepsLent_keepResult (free : ¬lent slot)
    (operation : Operation Packet) :
    KeepsLent lent (keepResult slot operation) := by
  apply KeepsLent.bind (keepsLent_perform operation)
  intro result
  cases result with
  | error error => exact .pure _
  | ok packet => exact (keepsLent_keep free packet).bind fun _ => .pure _

theorem keepsLent_updateResult (free : ¬lent slot)
    (operation : Operation Packet) (reply : Packet → Reply) :
    KeepsLent lent (updateResult slot operation reply) := by
  apply KeepsLent.bind (keepsLent_perform operation)
  intro result
  cases result with
  | error error => exact .pure _
  | ok packet => exact (keepsLent_update free packet).bind fun _ => .pure _

theorem keepsLent_withPacket {next : Packet → SessionStep Reply}
    (goesOn : ∀ packet, KeepsLent lent (next packet)) :
    KeepsLent lent (withPacket slot next) := by
  apply KeepsLent.get
  intro session
  cases session.packets.get? slot with
  | none => exact .pure _
  | some packet => exact goesOn packet

theorem keepsLent_withPool {id : PoolId} {next : SessionStep Reply}
    (goesOn : KeepsLent lent next) : KeepsLent lent (withPool id next) :=
  .get fun _ => .ite goesOn (.pure _)

theorem keepsLent_newPool : KeepsLent lent newPool := by
  apply KeepsLent.get
  intro session
  refine KeepsLent.bind (.modify fun _ => ⟨rfl, fun _ _ => rfl⟩) fun _ => ?_
  exact keepsLent_withPool (.pure _)

theorem keepsLent_swapFirst {first second : Nat} (free : ¬lent first)
    (free' : ¬lent second) : KeepsLent lent (swapFirst first second) := by
  apply KeepsLent.ite (.pure _)
  apply keepsLent_withPacket
  intro one
  apply keepsLent_withPacket
  intro other
  apply KeepsLent.ite (.pure _)
  apply (keepsLent_update free _).bind
  exact fun _ => (keepsLent_update free' _).bind fun _ => .pure _

theorem keepsLent_readReply (outcome : ReadOutcome) :
    KeepsLent lent (readReply outcome) := by
  cases outcome with
  | copied count destination => exact .pure _
  | refused error => exact .pure _
  | outOfRange => exact keepsLent_breakOff .outOfRange

theorem keepsLent_forM_vacate :
    ∀ slots : List Nat, (∀ slot ∈ slots, ¬lent slot) →
      KeepsLent lent (slots.forM vacate)
  | [], _ => .pure _
  | slot :: rest, free =>
      (keepsLent_vacate (free slot (List.mem_cons_self ..))).bind fun _ =>
        keepsLent_forM_vacate rest fun other member =>
          free other (.tail _ member)

theorem keepsLent_reassemble (pool : PoolId) {arrivals : List (Nat × Nat)}
    (freeSources : ∀ source ∈ arrivals.map Prod.snd, ¬lent source)
    (free : ¬lent slot) (deadline : Nat) (choices : List Nat) :
    KeepsLent lent (reassemble pool arrivals slot deadline choices) := by
  apply keepsLent_withPool
  apply KeepsLent.get
  intro session
  cases session.packetsIn? (arrivals.map Prod.snd) with
  | none => exact .pure _
  | some fragments =>
      apply (keepsLent_forM_vacate _ freeSources).bind
      exact fun _ => keepsLent_keepResult free _

theorem keepsLent_push {source now : Nat} (freeSource : ¬lent source)
    (free : ¬lent slot) : KeepsLent lent (push index source now slot) := by
  intro session
  apply push_leaves.monoDone
  intro reply after effect
  cases effect with
  | idle _ _ => exact ⟨rfl, fun _ _ => rfl⟩
  | @answered _ changed _ answer _ last _ _ _ =>
      have sameRest : ∀ other, lent other →
          ((session.vacated source).attended index changed).packets.get?
            other = session.packets.get? other := by
        intro other isLent
        have different : other ≠ source :=
          fun same => freeSource (same ▸ isLent)
        rw [attended, vacated, Table.get?_erase, if_neg different]
      cases answer with
      | error error => exact ⟨rfl, sameRest⟩
      | ok delivered =>
          cases delivered with
          | none => exact ⟨rfl, sameRest⟩
          | some packet =>
              refine ⟨rfl, fun other isLent => ?_⟩
              have different : other ≠ slot :=
                fun same => free (same ▸ isLent)
              rw [← sameRest other isLent]
              simp only [receiving, withPools, filed, Table.get?_insert,
                if_neg different]

theorem keepsLent_of_tends
    (tends : ∀ session, SessionStep.Satisfies (carryOut command) session
      (fun _ after => session.Tended index after) (fun _ => True)) :
    KeepsLent lent (carryOut command) := by
  intro session
  apply (tends session).monoDone
  intro _ after tended
  refine ⟨tended.walks_eq, fun slot _ => ?_⟩
  rw [tended.packets_eq]

/-- A command that names no walk leaves the walks as they are, and the packets
in the slots that it does not change. -/
theorem carryOut_keepsLent (unnamed : command.walk? = none) :
    KeepsLent (fun slot => command.changes slot = false)
      (carryOut command) := by
  cases command with
  | newPool => exact keepsLent_newPool
  | allocate pool len slot | packetFrom pool bytes slot =>
      exact keepsLent_withPool
        (keepsLent_keepResult (by simp [Command.changes]) _)
  | append slot bytes | release slot | writeFragmentHeader slot =>
      exact keepsLent_withPacket fun _ =>
        keepsLent_updateResult (by simp [Command.changes]) _ _
  | drop slot =>
      apply keepsLent_withPacket
      intro packet
      apply (keepsLent_vacate (by simp [Command.changes])).bind
      intro _
      exact ((keepsLent_perform _).bind fun _ => .pure _).bind fun _ => .pure _
  | copy pool source slot =>
      exact keepsLent_withPool (keepsLent_withPacket fun _ =>
        keepsLent_keepResult (by simp [Command.changes]) _)
  | receive pool frame slot =>
      exact keepsLent_withPool (.get fun _ =>
        keepsLent_keepResult (by simp [Command.changes]) _)
  | slices slot offset len =>
      apply keepsLent_withPacket
      intro packet
      cases packet.slices? offset len with
      | none => exact keepsLent_breakOff .outOfRange
      | some pieces => exact .pure _
  | readAt slot offset destination =>
      exact keepsLent_withPacket fun _ => keepsLent_readReply _
  | copyTo slot destination => exact keepsLent_withPacket fun _ => .pure _
  | writeZone slot zone only bytes =>
      apply keepsLent_withPacket
      intro packet
      exact (keepsLent_update (by simp [Command.changes]) _).bind
        fun _ => .pure _
  | swapFirst first second =>
      exact keepsLent_swapFirst (by simp [Command.changes])
        (by simp [Command.changes])
  | newReassembler pool index choices =>
      exact keepsLent_of_tends fun _ => newReassembler_tends pool index choices
  | push index source now slot =>
      exact keepsLent_push (by simp [Command.changes])
        (by simp [Command.changes])
  | expire index now =>
      exact keepsLent_of_tends fun _ => expire_tends index now
  | clear index choices =>
      exact keepsLent_of_tends fun _ => clear_tends index choices
  | dropReassembler index choices =>
      exact keepsLent_of_tends fun _ => dropReassembler_tends index choices
  | reassemble pool arrivals slot deadline choices =>
      refine keepsLent_reassemble pool ?_ (by simp [Command.changes]) _ _
      intro source member
      obtain ⟨arrival, isArrival, rfl⟩ := List.mem_map.mp member
      simp only [Command.changes, Bool.or_eq_false_iff, List.any_eq_false,
        not_and]
      intro free
      simpa using free arrival isArrival
  | beginWalk | nextFragment | collectFragments | resumeWalk | restartWalk
  | endWalk => simp [Command.walk?] at unnamed

/-- A command that names no walk leaves every walk as it stands. -/
theorem carryOut_walks (unnamed : command.walk? = none)
    (isFree : session.lends command = false) :
    SessionStep.Satisfies (carryOut command) session
      (fun _ after => ∀ index, after.walk? index = session.walk? index)
      (fun _ => True) := by
  apply (carryOut_keepsLent unnamed session).monoDone
  intro _ after same index
  refine walk?_congr (by rw [same.1]) fun walk begun => ?_
  exact same.2 _ (lends_eq_false_iff.mp isFree index walk begun)

/-! ## Steps that name a walk -/

/-- The session with the fragment that was made put into a slot. -/
def yielding (session : Session) (slot : Nat) :
    Option (Except BufferError Packet) → Session
  | some (.ok fragment) => session.filed slot fragment
  | some (.error _) => session
  | none => session

/-- What is done by a command for the next fragment. Besides, only the pools
change. -/
inductive NextEffect (session : Session) (index slot : Nat) :
    Reply → Session → Prop
  | idle (absent : session.walk? index = none) :
      NextEffect session index slot .noSuchWalk session
  | moved {walk : Walk} {item : Option (Except BufferError Packet)}
      {fragmenter : Fragmenter} {pools : Pools}
      (found : session.walk? index = some walk)
      (answered : walk.fragmenter.next session.pools =
        .done (item, fragmenter) pools) (last : Pools) :
      NextEffect session index slot (.fragment item)
        (((session.walking index { walk with fragmenter }).yielding slot
          item).withPools last)

theorem nextFragment_leaves :
    SessionStep.Satisfies (nextFragment index slot) session
      (session.NextEffect index slot) (fun _ => True) := by
  apply SessionStep.Satisfies.get
  cases found : session.walk? index with
  | none => exact NextEffect.idle found
  | some walk =>
      have known := (@Outcome.Satisfies.exactly _
        (walk.fragmenter.next session.pools)).mono
          (fun _ _ ending => ending)
          (fun _ _ ending => (walk.fragmenter.next_source_eq
            session.pools).of_failed ending)
          (fun _ ending => ending)
      apply SessionStep.Satisfies.bind (perform_leaves known)
      intro result _ ending
      obtain ⟨pools, rfl, answered⟩ := ending
      match result with
      | .error error => exact answered.elim
      | .ok (item, fragmenter) =>
          apply SessionStep.Satisfies.changing
          match item with
          | none => exact NextEffect.moved found answered pools
          | some (.error error) => exact NextEffect.moved found answered pools
          | some (.ok fragment) =>
              apply SessionStep.Satisfies.bind (keep_leaves slot fragment _)
              intro _ _ ending
              obtain ⟨last, rfl⟩ := ending
              exact NextEffect.moved found answered last

/-! ## Slots that are free -/

/-- No walk has borrowed the packet in a slot. -/
def Free (session : Session) (slot : Nat) : Prop :=
  ∀ index walk, session.walks.get? index = some walk → walk.slot ≠ slot

theorem free_of_changes (isFree : session.lends command = false)
    (changes : command.changes slot = true) : session.Free slot := by
  intro index walk begun same
  have spared := lends_eq_false_iff.mp isFree index walk begun
  rw [same, changes] at spared
  cases spared

/-- Fragments that are collected go into slots that are free. -/
theorem free_of_collecting {max : Nat}
    (isFree : session.lends (.collectFragments index slot max) = false) :
    ∀ place, slot ≤ place → place < slot + max → session.Free place := by
  intro place above below
  apply free_of_changes isFree
  simp [Command.changes, above, below]

theorem Free.of_walk? {walk : Walk} (free : session.Free slot)
    (found : session.walk? index = some walk) : walk.slot ≠ slot := by
  obtain ⟨_, source, begun⟩ := walk?_eq_some_iff.mp found
  have different := free index _ begun
  exact different

/-- A walk that goes on borrows no other packet. -/
theorem Free.walking {walk : Walk} {fragmenter : Fragmenter} {place : Nat}
    (free : session.Free place)
    (found : session.walk? index = some walk) :
    (session.walking index { walk with fragmenter }).Free place := by
  intro other begun isBegun
  simp only [Session.walking, Table.get?_insert] at isBegun
  split at isBegun
  · cases isBegun
    have different := free.of_walk? found
    exact different
  · exact free other begun isBegun

theorem walk?_filed (free : session.Free slot) (packet : Packet)
    (index : Nat) :
    (session.filed slot packet).walk? index = session.walk? index := by
  refine walk?_congr rfl fun walk begun => ?_
  have different := free index walk begun
  rw [filed, Table.get?_insert, if_neg different]

theorem walk?_walking_of_ne {walk : Walk} {other : Nat}
    (different : other ≠ index) :
    (session.walking index walk).walk? other = session.walk? other := by
  refine walk?_congr ?_ fun _ _ => rfl
  rw [walking, Table.get?_insert, if_neg different]

theorem walk?_walking_self {walk : Walk}
    (isSource : session.packets.get? walk.slot =
      some walk.fragmenter.source) :
    (session.walking index walk).walk? index = some walk := by
  refine walk?_eq_some_iff.mpr ⟨isSource, walk.fragmenter.source, ?_⟩
  simp [walking]

theorem walk?_yielding (free : session.Free slot)
    (item : Option (Except BufferError Packet)) (index : Nat) :
    (session.yielding slot item).walk? index = session.walk? index := by
  match item with
  | none => rfl
  | some (.error error) => rfl
  | some (.ok fragment) => exact walk?_filed free fragment index

/-- Where a fragment is filed in a free slot, the walk goes on with its
fragmenter as it is left, over the same packet. -/
theorem walk?_moved {walk : Walk} {fragmenter : Fragmenter}
    (free : session.Free slot) (found : session.walk? index = some walk)
    (same : fragmenter.source = walk.fragmenter.source)
    (item : Option (Except BufferError Packet)) (pools : Pools) :
    (((session.walking index { walk with fragmenter }).yielding slot
      item).withPools pools).walk? index = some { walk with fragmenter } := by
  have isSource := (walk?_eq_some_iff.mp found).1
  rw [← same] at isSource
  exact (walk?_yielding (free.walking found) item index).trans
    (walk?_walking_self isSource)

theorem Free.yielding {place : Nat} (free : session.Free place)
    (slot : Nat) (item : Option (Except BufferError Packet)) :
    (session.yielding slot item).Free place := by
  match item with
  | none => exact free
  | some (.error error) => exact free
  | some (.ok fragment) => exact free

/-- After the next fragment of a walk was filed in a free slot, all slots are
free that were free before. -/
theorem NextEffect.free {reply : Reply} {place : Nat}
    (effect : session.NextEffect index slot reply after)
    (free : session.Free place) : after.Free place := by
  cases effect with
  | idle _ => exact free
  | moved found _ last => exact (free.walking found).yielding slot _

end Session

end PooledPackets
