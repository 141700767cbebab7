import PooledPackets.Proofs.Agreement.Operations
import PooledPackets.Proofs.Steps

/-!
# Sessions that differ in the checks of their pools

Two sessions that are the same, apart from what their pools do about broken
invariants, give the same reply to every command and are the same again
afterwards, as long as neither finds an invariant broken.
-/

namespace PooledPackets

/-- The same packets, reassemblers and walks, and pools that are the same but
for what they do about broken invariants. -/
structure Session.Alike (session other : Session) : Prop where
  pools_alike : session.pools.Alike other.pools
  made_eq : session.made = other.made
  packets_eq : session.packets = other.packets
  reassemblers_eq : session.reassemblers = other.reassemblers
  walks_eq : session.walks = other.walks

namespace SessionStep

variable {α β : Type}

/-- Two endings of a step that agree: the same value and sessions that are
alike again, unless one of the two has found an invariant broken. -/
inductive Agree : Except Stop (α × Session) → Except Stop (α × Session) → Prop
  | ok (value : α) {session other : Session} (still : session.Alike other) :
      Agree (.ok (value, session)) (.ok (value, other))
  | outOfRange : Agree (.error .outOfRange) (.error .outOfRange)
  | brokenFirst {stop : Stop} (broken : stop ≠ .outOfRange)
      (ending : Except Stop (α × Session)) : Agree (.error stop) ending
  | brokenSecond {stop : Stop} (broken : stop ≠ .outOfRange)
      (ending : Except Stop (α × Session)) : Agree ending (.error stop)

/-- Two steps that agree from all sessions that are alike. -/
def Agrees (step step' : SessionStep α) : Prop :=
  ∀ ⦃session other : Session⦄, session.Alike other →
    Agree (step session) (step' other)

/-- A step that comes to the same whether checks are made or not. -/
abbrev Steady (step : SessionStep α) : Prop :=
  step.Agrees step

namespace Agrees

variable {step step' : SessionStep α} {next next' : α → SessionStep β}

theorem pure (value : α) : Steady (Pure.pure value) :=
  fun _ _ alike => .ok value alike

theorem bind (first : Agrees step step')
    (second : ∀ value, Agrees (next value) (next' value)) :
    Agrees (step >>= next) (step' >>= next') := by
  intro session other alike
  have same := first alike
  change Agree (Except.bind (step session) _)
    (Except.bind (step' other) _)
  generalize step session = one at same ⊢
  generalize step' other = another at same ⊢
  cases same with
  | ok value still => exact second value still
  | outOfRange => exact .outOfRange
  | brokenFirst broken _ => exact .brokenFirst broken _
  | brokenSecond broken _ => exact .brokenSecond broken _

theorem get {next next' : Session → SessionStep α}
    (goesOn : ∀ session other, session.Alike other →
      Agrees (next session) (next' other)) :
    Agrees (MonadState.get >>= next) (MonadState.get >>= next') :=
  fun _ _ alike => goesOn _ _ alike alike

theorem set {session other : Session} (alike : session.Alike other) :
    Agrees (MonadStateOf.set session : SessionStep PUnit)
      (MonadStateOf.set other) :=
  fun _ _ _ => .ok _ alike

theorem modify {change change' : Session → Session}
    (still : ∀ {session other : Session}, session.Alike other →
      (change session).Alike (change' other)) :
    Agrees (modify change) (modify change') :=
  fun _ _ alike => .ok _ (still alike)

theorem forM {items : List α} {act : α → SessionStep PUnit}
    (same : ∀ item, Steady (act item)) : Steady (items.forM act) := by
  induction items with
  | nil => exact .pure _
  | cons item rest inductionHypothesis =>
      exact (same item).bind fun _ => inductionHypothesis

theorem ite {condition : Prop} [Decidable condition]
    {yes no yes' no' : SessionStep α} (ifTrue : Agrees yes yes')
    (ifFalse : Agrees no no') :
    Agrees (if condition then yes else no)
      (if condition then yes' else no') := by
  by_cases holds : condition
  · rw [if_pos holds, if_pos holds]
    exact ifTrue
  · rw [if_neg holds, if_neg holds]
    exact ifFalse

end Agrees

end SessionStep

namespace Session

open SessionStep

variable {slot index : Nat}

namespace Alike

variable {session other : Session}

theorem hasPool_eq (alike : session.Alike other) (id : PoolId) :
    session.hasPool id = other.hasPool id := by
  rw [hasPool, hasPool, alike.made_eq, alike.pools_alike.contains_eq id]

theorem walk?_eq (alike : session.Alike other) (index : Nat) :
    session.walk? index = other.walk? index := by
  rw [walk?, walk?, alike.walks_eq, alike.packets_eq]

theorem sources_eq (alike : session.Alike other) :
    session.sources = other.sources := by
  rw [sources, sources, alike.walks_eq, alike.packets_eq]

theorem lends_eq (alike : session.Alike other) (command : Command) :
    session.lends command = other.lends command := by
  rw [lends, lends, alike.walks_eq]

end Alike

/-! ## The parts of a step -/

/-- A stop that is not out of range stays one while the packets being split are
given back. -/
theorem breakOff_broken {α : Type} {stop : Stop} (session : Session)
    (broken : stop ≠ .outOfRange) :
    ∃ ended, ended ≠ .outOfRange ∧
      (breakOff stop : SessionStep α) session = .error ended := by
  unfold breakOff
  split
  · exact ⟨.collapse, by simp, rfl⟩
  · exact ⟨stop, broken, rfl⟩

theorem breakOff_steady {α : Type} :
    Steady (breakOff .outOfRange : SessionStep α) := by
  intro session other alike
  unfold breakOff
  rw [alike.sources_eq, alike.pools_alike.findsForeign_eq]
  split
  · exact .brokenFirst (by simp) _
  · exact .outOfRange

theorem perform_steady {α : Type} {operation : Operation α}
    (same : operation.Steady) : Steady (perform operation) := by
  intro session other alike
  have ending := same alike.pools_alike
  unfold perform
  generalize operation session.pools = one at ending ⊢
  generalize operation other.pools = another at ending ⊢
  cases ending with
  | done value still => exact .ok _ { alike with pools_alike := still }
  | failed error still => exact .ok _ { alike with pools_alike := still }
  | outOfRange => exact breakOff_steady alike
  | brokenFirst broken _ =>
      obtain ⟨ended, isBroken, same⟩ := breakOff_broken session broken
      dsimp only
      rw [same]
      exact .brokenFirst isBroken _
  | brokenSecond broken _ =>
      obtain ⟨ended, isBroken, same⟩ := breakOff_broken other broken
      dsimp only
      rw [same]
      exact .brokenSecond isBroken _

theorem discard_steady (packet : Packet) : Steady (discard packet) :=
  (perform_steady packet.drop_steady).bind fun _ => .pure _

theorem update_steady (slot : Nat) (packet : Packet) :
    Steady (update slot packet) :=
  .modify fun alike => { alike with
    packets_eq := congrArg (Table.insert · slot packet) alike.packets_eq }

theorem vacate_steady (slot : Nat) : Steady (vacate slot) :=
  .modify fun alike => { alike with
    packets_eq := congrArg (Table.erase · slot) alike.packets_eq }

theorem updateReassembler_steady (index : Nat) (reassembler : Reassembler) :
    Steady (updateReassembler index reassembler) :=
  .modify fun alike => { alike with
    reassemblers_eq := congrArg (Table.insert · index reassembler)
      alike.reassemblers_eq }

theorem updateWalk_steady (index : Nat) (walk : Walk) :
    Steady (updateWalk index walk) :=
  .modify fun alike => { alike with
    walks_eq := congrArg (Table.insert · index walk) alike.walks_eq }

theorem keep_steady (slot : Nat) (packet : Packet) :
    Steady (keep slot packet) := by
  apply Agrees.get
  intro session other alike
  rw [alike.packets_eq]
  have filed : Alike
      { session with packets := other.packets.insert slot packet }
      { other with packets := other.packets.insert slot packet } :=
    { alike with packets_eq := rfl }
  apply Agrees.bind (.set filed)
  intro _
  cases other.packets.get? slot with
  | none => exact .pure _
  | some previous => exact discard_steady previous

theorem withPacket_steady {next : Packet → SessionStep Reply}
    (goesOn : ∀ packet, Steady (next packet)) :
    Steady (withPacket slot next) := by
  apply Agrees.get
  intro session other alike
  rw [alike.packets_eq]
  cases other.packets.get? slot with
  | none => exact .pure _
  | some packet => exact goesOn packet

theorem withPool_steady {id : PoolId} {next : SessionStep Reply}
    (goesOn : Steady next) : Steady (withPool id next) := by
  apply Agrees.get
  intro session other alike
  rw [alike.hasPool_eq id]
  exact .ite goesOn (.pure _)

theorem withReassembler_steady {next : Reassembler → SessionStep Reply}
    (goesOn : ∀ reassembler, Steady (next reassembler)) :
    Steady (withReassembler index next) := by
  apply Agrees.get
  intro session other alike
  rw [alike.reassemblers_eq]
  cases other.reassemblers.get? index with
  | none => exact .pure _
  | some reassembler => exact goesOn reassembler

theorem withWalk_steady {next : Walk → SessionStep Reply}
    (goesOn : ∀ walk, Steady (next walk)) :
    Steady (withWalk index next) := by
  apply Agrees.get
  intro session other alike
  rw [alike.walk?_eq]
  cases other.walk? index with
  | none => exact .pure _
  | some walk => exact goesOn walk

theorem keepResult_steady {operation : Operation Packet}
    (same : operation.Steady) : Steady (keepResult slot operation) := by
  apply (perform_steady same).bind
  intro result
  cases result with
  | error error => exact .pure _
  | ok packet => exact (keep_steady slot packet).bind fun _ => .pure _

theorem updateResult_steady {operation : Operation Packet}
    {reply : Packet → Reply}
    (same : operation.Steady) :
    Steady (updateResult slot operation reply) := by
  apply (perform_steady same).bind
  intro result
  cases result with
  | error error => exact .pure _
  | ok packet => exact (update_steady slot packet).bind fun _ => .pure _

/-! ## Commands -/

theorem newPool_steady : Steady newPool := by
  apply Agrees.get
  intro session other alike
  rw [alike.made_eq]
  refine Agrees.bind (.modify fun alike => { alike with made_eq := rfl })
    fun _ => ?_
  exact withPool_steady (.pure _)

theorem nextFragment_steady (index slot : Nat) :
    Steady (nextFragment index slot) := by
  apply withWalk_steady
  intro walk
  apply (perform_steady walk.fragmenter.next_steady).bind
  intro result
  match result with
  | .error error => exact .pure _
  | .ok (made, fragmenter) =>
      apply (updateWalk_steady index _).bind
      intro _
      match made with
      | some (.ok fragment) =>
          exact (keep_steady slot fragment).bind fun _ => .pure _
      | some (.error error) => exact .pure _
      | none => exact .pure _

theorem collectFragments_steady :
    ∀ (max index slot : Nat), Steady (collectFragments index slot max)
  | 0, _, _ => .pure _
  | max + 1, index, slot => by
      apply (nextFragment_steady index slot).bind
      intro reply
      match reply with
      | .fragment (some (.ok fragment)) =>
          exact (collectFragments_steady max _ _).bind fun _ => .pure _
      | .fragment (some (.error error)) =>
          exact (collectFragments_steady max _ _).bind fun _ => .pure _
      | .fragment none => exact .pure _
      | .nothing | .packet _ | .refused _ | .noSuchPool | .noSuchSlot
      | .noSuchReassembler | .noSuchWalk | .lent | .pieces _ | .copied _ _
      | .counts _ | .swapped _ | .headerZone _ | .walk _ | .fragments _
      | .pushed _ _ | .expired _ => exact .pure _

theorem swapFirst_steady (first second : Nat) :
    Steady (swapFirst first second) := by
  refine .ite (.pure _) (withPacket_steady fun one => ?_)
  refine withPacket_steady fun other => .ite (.pure _) ?_
  apply (update_steady _ _).bind
  exact fun _ => (update_steady _ _).bind fun _ => .pure _

theorem beginWalk_steady (id : PoolId) (slot mtu index : Nat) :
    Steady (beginWalk id slot mtu index) := by
  refine withPool_steady (withPacket_steady fun packet => ?_)
  apply (perform_steady (Pool.fragmentForLink_steady id packet mtu)).bind
  intro result
  cases result with
  | error error => exact .pure _
  | ok fragmenter =>
      exact (updateWalk_steady index _).bind fun _ => .pure _

theorem endWalk_steady (index : Nat) : Steady (endWalk index) := by
  apply withWalk_steady
  intro walk
  refine Agrees.bind (.modify fun alike => { alike with
    walks_eq := congrArg (Table.erase · index) alike.walks_eq }) ?_
  exact fun _ => .pure _

theorem newReassembler_steady (id : PoolId) (index : Nat)
    (choices : List Nat) :
    Steady (carryOut (.newReassembler id index choices)) := by
  apply withPool_steady
  apply (perform_steady (Reassembler.forPool_steady id)).bind
  intro result
  cases result with
  | error error => exact .pure _
  | ok reassembler =>
      apply Agrees.get
      intro session other alike
      rw [alike.reassemblers_eq]
      apply (updateReassembler_steady index reassembler).bind
      intro _
      cases other.reassemblers.get? index with
      | none => exact .pure _
      | some previous =>
          exact (perform_steady (previous.clear_steady choices)).bind
            fun _ => .pure _

theorem push_steady (index source now slot : Nat) :
    Steady (push index source now slot) := by
  refine withReassembler_steady fun reassembler => ?_
  refine withPacket_steady fun fragment => ?_
  apply (vacate_steady source).bind
  intro _
  apply (perform_steady (reassembler.push_steady fragment now)).bind
  intro result
  match result with
  | .error error => exact .pure _
  | .ok (answer, changed) =>
      apply (updateReassembler_steady index changed).bind
      intro _
      match answer with
      | .error error => exact .pure _
      | .ok none => exact .pure _
      | .ok (some packet) =>
          exact (keep_steady slot packet).bind fun _ => .pure _

theorem reassemble_steady (id : PoolId) (arrivals : List (Nat × Nat))
    (slot deadline : Nat) (choices : List Nat) :
    Steady (reassemble id arrivals slot deadline choices) := by
  refine withPool_steady (Agrees.get ?_)
  intro session other alike
  rw [packetsIn?, packetsIn?, alike.packets_eq]
  cases (if (arrivals.map Prod.snd).Nodup then
      (arrivals.map Prod.snd).mapM other.packets.get? else none) with
  | none => exact .pure _
  | some fragments =>
      apply (Agrees.forM vacate_steady).bind
      exact fun _ => keepResult_steady
        (Pool.reassemble_steady choices id _ deadline)

theorem carryOut_steady (command : Command) :
    Steady (carryOut command) := by
  cases command with
  | newPool => exact newPool_steady
  | allocate id len slot =>
      exact withPool_steady
        (keepResult_steady (Pool.allocate_steady id len))
  | packetFrom id bytes slot =>
      exact withPool_steady
        (keepResult_steady (Pool.allocateWith_steady id _ _))
  | append slot bytes =>
      exact withPacket_steady fun packet =>
        updateResult_steady (packet.append_steady bytes)
  | release slot =>
      exact withPacket_steady fun packet =>
        updateResult_steady packet.release_steady
  | drop slot =>
      refine withPacket_steady fun packet => ?_
      apply (vacate_steady slot).bind
      exact fun _ => (discard_steady packet).bind fun _ => .pure _
  | copy id source slot =>
      exact withPool_steady (withPacket_steady fun packet =>
        keepResult_steady (Pool.copyPacket_steady id packet))
  | receive id frame slot =>
      refine withPool_steady (Agrees.get ?_)
      intro session other alike
      have sameBytes : frameBytes (session.pools.get id) frame =
          frameBytes (other.pools.get id) frame := by
        unfold frameBytes
        rw [(alike.pools_alike.get id).byteOrder_eq]
      rw [sameBytes]
      exact keepResult_steady (Pool.receiveFrame_steady id _)
  | slices slot offset len =>
      refine withPacket_steady fun packet => ?_
      cases packet.slices? offset len with
      | none => exact breakOff_steady
      | some pieces => exact .pure _
  | readAt slot offset destination =>
      refine withPacket_steady fun packet => ?_
      cases packet.readAt offset destination with
      | copied count destination => exact .pure _
      | refused error => exact .pure _
      | outOfRange => exact breakOff_steady
  | copyTo slot destination =>
      exact withPacket_steady fun packet => .pure _
  | writeZone slot zone only bytes =>
      refine withPacket_steady fun packet => ?_
      exact (update_steady _ _).bind fun _ => .pure _
  | swapFirst first second => exact swapFirst_steady first second
  | writeFragmentHeader slot =>
      exact withPacket_steady fun packet =>
        updateResult_steady packet.writeFragmentHeader_steady
  | beginWalk id slot mtu walk => exact beginWalk_steady id slot mtu walk
  | nextFragment walk slot => exact nextFragment_steady walk slot
  | collectFragments walk slot max =>
      refine withWalk_steady fun _ => ?_
      exact (collectFragments_steady max walk slot).bind fun _ => .pure _
  | resumeWalk walk =>
      refine withWalk_steady fun _ => ?_
      exact (updateWalk_steady _ _).bind fun _ => .pure _
  | restartWalk walk =>
      refine withWalk_steady fun _ => ?_
      exact (updateWalk_steady _ _).bind fun _ => .pure _
  | endWalk walk => exact endWalk_steady walk
  | newReassembler id index choices => 
      exact newReassembler_steady id index choices
  | push index source now slot => exact push_steady index source now slot
  | expire index now =>
      refine withReassembler_steady fun reassembler => ?_
      apply (perform_steady (reassembler.expire_steady now)).bind
      intro result
      match result with
      | .error error => exact .pure _
      | .ok (datagrams, changed) =>
          exact (updateReassembler_steady index changed).bind
            fun _ => .pure _
  | clear index choices =>
      refine withReassembler_steady fun reassembler => ?_
      apply (perform_steady (reassembler.clear_steady choices)).bind
      intro result
      cases result with
      | error error => exact .pure _
      | ok changed =>
          exact (updateReassembler_steady index changed).bind
            fun _ => .pure _
  | dropReassembler index choices =>
      refine withReassembler_steady fun reassembler => ?_
      refine Agrees.bind (.modify fun alike => { alike with
        reassemblers_eq := congrArg (Table.erase · index)
          alike.reassemblers_eq }) fun _ => ?_
      exact (perform_steady (reassembler.clear_steady choices)).bind
        fun _ => .pure _
  | reassemble id arrivals slot deadline choices =>
      exact reassemble_steady id arrivals slot deadline choices

theorem step_steady (command : Command) :
    Steady (fun session => session.step command) := by
  intro session other alike
  simp only [step, alike.lends_eq]
  split
  · exact .ok _ alike
  · exact carryOut_steady command alike

/-! ## The end of a session -/

theorem finish_alike {session other : Session}
    (alike : session.Alike other) {choices : Nat → List Nat}
    {pools others : Pools} (finished : session.finish choices = .ok pools)
    (finishedOther : other.finish choices = .ok others) :
    pools.Alike others := by
  have ending : Steady (do
      other.reassemblers.entries.forM fun entry => do
        let _ ← perform (entry.2.clear (choices entry.1))
      other.packets.values.forM discard) := by
    refine Agrees.bind (Agrees.forM fun entry => ?_)
      fun _ => Agrees.forM discard_steady
    exact (perform_steady (entry.2.clear_steady _)).bind fun _ => .pure _
  have atRest : session.rested.Alike other.rested :=
    { alike with walks_eq := rfl }
  have same := ending atRest
  unfold finish at finished finishedOther
  rw [alike.packets_eq, alike.reassemblers_eq] at finished
  rcases SessionStep.run_bind _ session.rested _ with
    ⟨⟨_, emptied⟩, ran, goesOn⟩ | ⟨stop, ran, goesOn⟩
  · rw [goesOn] at finished
    rcases SessionStep.run_bind _ other.rested _ with
      ⟨⟨_, emptied'⟩, ran', goesOn'⟩ | ⟨stop, ran', goesOn'⟩
    · rw [goesOn'] at finishedOther
      rw [ran, ran'] at same
      cases finished
      cases finishedOther
      cases same with
      | ok _ still => exact still.pools_alike
    · rw [goesOn'] at finishedOther
      cases finishedOther
  · rw [goesOn] at finished
    cases finished

end Session

end PooledPackets
