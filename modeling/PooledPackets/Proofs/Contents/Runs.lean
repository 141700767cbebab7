import PooledPackets.Proofs.Contents.Commands

/-!
# Packets refine byte strings

Over any run without exchanges of segments and without writes over payload,
every live packet is what the ledger says and its numbers are those of its
chain. No step changes a packet that it does not reach.
-/

namespace PooledPackets

theorem Command.exchanges_of_proper {command : Command}
    (proper : command.meddles = false) : command.exchanges = false := by
  cases command with
  | swapFirst first second => cases proper
  | _ => rfl

namespace Session

variable {session : Session} {ledger : Ledger} {origin : Pools}
variable {configs : List Config}

/-! ## Fragments handed over -/

theorem told_push_of_silent {index source now slot : Nat} {reply : Reply}
    (silent : ∀ datagram answer, reply ≠ .pushed datagram answer) :
    ledger.told session (.push index source now slot) reply = ledger := by
  cases reply with
  | pushed datagram answer => exact absurd rfl (silent datagram answer)
  | _ => rfl

/-- The fragments that a reassembler holds and the one handed to it are
sound. -/
theorem Owns.sound_handed (owns : session.Owns origin .never [])
    {index source : Nat} {reassembler : Reassembler} {fragment : Packet}
    (found : session.reassemblers.get? index = some reassembler)
    (isFragment : session.packets.get? source = some fragment) :
    ∀ part ∈ fragment :: reassembler.fragments, part.Sound := by
  intro part member
  apply (owns.handed found isFragment).kept part
  rcases List.mem_cons.mp member with rfl | isHeld
  · exact List.mem_cons_self ..
  · exact .tail _ (List.mem_append_left _ isHeld)

theorem push_tells (describes : ledger.Describes session)
    (owns : session.Owns origin .never [])
    (accounted : session.Accounted origin)
    (index source now slot : Nat) :
    Tells (ledger.told session (.push index source now slot)) session
      (Command.reaches (.push index source now slot))
      (push index source now slot) session := by
  apply push_leaves.monoDone
  intro reply after effect
  cases effect with
  | idle absent silent =>
      rw [told_push_of_silent silent]
      exact .refl describes.toCovers
  | @answered reassembler changed fragment answer pools last found isFragment
      pushed =>
      have isHanded : Command.reaches (.push index source now slot)
          (.pushed (fragment.tag.map FragmentTag.datagram) answer) source :=
        Or.inl ⟨List.mem_singleton_self source, by simp⟩
      have emptied : ledger.Tracks session
          (Command.reaches (.push index source now slot)
            (.pushed (fragment.tag.map FragmentTag.datagram) answer))
          ((session.vacated source).attended index changed) :=
        ((Ledger.Tracks.refl describes.toCovers).vacated
          isHanded).attended index changed
      obtain ⟨⟨deadline, _, answers⟩, _⟩ :=
        (owns.handed found isFragment).push_satisfies.of_done pushed
      match answer with
      | .error error =>
          have unchanged : ledger.told session (.push index source now slot)
              (.pushed (fragment.tag.map FragmentTag.datagram)
                (.error error)) = ledger := by
            cases fragment.tag <;> rfl
          rw [unchanged]
          exact emptied.withPools last
      | .ok none =>
          have unchanged : ledger.told session (.push index source now slot)
              (.pushed (fragment.tag.map FragmentTag.datagram)
                (.ok none)) = ledger := by
            cases fragment.tag <;> rfl
          rw [unchanged]
          exact emptied.withPools last
      | .ok (some packet) =>
          obtain ⟨tag, tagged, _, told⟩ := answers.matches
            (accounted index reassembler found).2
            (owns.sound_handed found isFragment)
            (describes.held index reassembler found)
            (describes.packets source fragment isFragment)
          -- The reply names the datagram that the ledger has gathered.
          rw [← (describes.packets source fragment isFragment).tag_eq]
            at tagged
          rw [tagged] at emptied ⊢
          exact (emptied.filed (Or.inr ⟨rfl, by simp [Command.changes]⟩)
            told).withPools last

theorem matches_of_mapM (covers : ledger.Covers session) :
    ∀ {slots : List Nat} {packets : List Packet},
      slots.mapM session.packets.get? = some packets →
        List.Forall₂ Packet.Matches packets (slots.map ledger.packets)
  | [], _, found => by
      cases found
      exact .nil
  | slot :: rest, packets, found => by
      simp only [List.mapM_cons, Option.bind_eq_bind, Option.pure_def,
        Option.bind_eq_some_iff, Option.some.injEq] at found
      obtain ⟨packet, isThere, others, areThere, rfl⟩ := found
      exact .cons (covers.packets slot packet isThere)
        (matches_of_mapM covers areThere)

theorem reassemble_tells (covers : ledger.Covers session)
    (owns : session.Owns origin .never []) (pool : PoolId)
    (arrivals : List (Nat × Nat)) (slot deadline : Nat)
    (choices : List Nat) :
    Tells (ledger.told session
        (.reassemble pool arrivals slot deadline choices)) session
      (Command.reaches (.reassemble pool arrivals slot deadline choices))
      (reassemble pool arrivals slot deadline choices) session := by
  apply withPool_tells (.refl covers)
  apply SessionStep.Satisfies.get
  cases found : session.packetsIn? (arrivals.map Prod.snd) with
  | none => exact Ledger.Tracks.refl covers
  | some fragments =>
      simp only [packetsIn?] at found
      split at found
      · rename_i nodup
        obtain ⟨sameLength, perm⟩ := live_perm_of_packets nodup found
        have arrived : ((arrivals.map Prod.fst).zip fragments).map
            Prod.snd = fragments := by
          apply List.map_snd_zip
          simpa using Nat.le_of_eq sameLength
        have told := matches_of_mapM covers found
        rw [List.map_map, ← arrived] at told
        have consistent : (session.vacatedAll
            (arrivals.map Prod.snd)).pools.Consistent origin .never
              (((arrivals.map Prod.fst).zip fragments).map Prod.snd ++
                (session.vacatedAll (arrivals.map Prod.snd)).live) := by
          rw [arrived, pools_vacatedAll]
          exact owns.perm perm
        have emptied : ∀ reply, reply ≠ .lent → ledger.Tracks session
            (Command.reaches
              (.reassemble pool arrivals slot deadline choices) reply)
            (session.vacatedAll (arrivals.map Prod.snd)) :=
          fun reply answered => (Ledger.Tracks.refl covers).vacatedAll
            fun _ member => Or.inl ⟨member, answered⟩
        apply SessionStep.Satisfies.bind forM_vacate_satisfies
        rintro _ _ rfl
        apply keepResult_tells (consistent.reassemble_matches told)
        · exact fun error => emptied _ (by simp)
        · exact fun packet told => (emptied _ (by simp)).filed
            (Or.inr ⟨rfl, by simp [Command.changes]⟩) told
      · cases found

/-! ## All commands -/

/-- A command that is carried out files a packet of some history in a slot, and
so does the ledger; one that is refused leaves the ledger as it is. -/
structure Files (session : Session) (ledger : Ledger) (command : Command)
    (slot : Nat) (history : History) : Prop where
  refused : ∀ error, ledger.told session command (.refused error) = ledger
  made : ∀ packet, ledger.told session command (.packet packet) =
    ledger.file slot history
  changes : command.changes slot = true

variable {command : Command} {slot : Nat} {history : History}
variable {operation : Operation Packet}

theorem Files.refusing (files : session.Files ledger command slot history)
    (covers : ledger.Covers session) (error : BufferError) :
    (ledger.told session command (.refused error)).Tracks session
      (command.reaches (.refused error)) session := by
  rw [files.refused]
  exact .refl covers

theorem Files.making (files : session.Files ledger command slot history)
    (covers : ledger.Covers session) {packet : Packet}
    (told : packet.Matches history) :
    (ledger.told session command (.packet packet)).Tracks session
      (command.reaches (.packet packet)) (session.filed slot packet) := by
  rw [files.made]
  exact (Ledger.Tracks.refl covers).filed (Or.inr ⟨rfl, files.changes⟩) told

theorem Files.keepResult (files : session.Files ledger command slot history)
    (covers : ledger.Covers session)
    (contract : (operation session.pools).Satisfies
      (fun packet _ => packet.Matches history) (fun _ _ => True)
      (fun _ => True)) :
    Tells (ledger.told session command) session command.reaches
      (keepResult slot operation) session :=
  keepResult_tells contract (files.refusing covers)
    fun _ told => files.making covers told

theorem Files.updateResult (files : session.Files ledger command slot history)
    (covers : ledger.Covers session)
    (contract : (operation session.pools).Satisfies
      (fun packet _ => packet.Matches history) (fun _ _ => True)
      (fun _ => True)) :
    Tells (ledger.told session command) session command.reaches
      (updateResult slot operation .packet) session :=
  updateResult_tells contract (files.refusing covers)
    fun _ told => files.making covers told

theorem tended_tells (covers : ledger.Covers session) {index : Nat}
    {command : Command} (silent : ∀ reply,
      ledger.told session command reply = ledger)
    (tends : SessionStep.Satisfies (carryOut command) session
      (fun _ after => session.Tended index after) (fun _ => True)) :
    Tells (ledger.told session command) session command.reaches
      (carryOut command) session := by
  apply tends.monoDone
  intro reply after tended
  rw [silent]
  exact Ledger.Tracks.of_same covers tended.packets_eq

/-- The ledger tracks every command that does not meddle with payload. -/
theorem carryOut_tells {command : Command}
    (describes : ledger.Describes session)
    (owns : session.Owns origin .never [])
    (accounted : session.Accounted origin)
    (isFree : session.lends command = false)
    (proper : command.meddles = false) :
    Tells (ledger.told session command) session command.reaches
      (carryOut command) session := by
  have covers := describes.toCovers
  have unchanged : ∀ {reached : Nat → Prop},
      ledger.Tracks session reached session := .refl covers
  cases command with
  | newPool =>
      apply SessionStep.Satisfies.get
      apply SessionStep.Satisfies.changing
      have made : ledger.Tracks session (Command.reaches .newPool .nothing)
          (session.making (session.made + 1)) := .of_same covers rfl
      exact withPool_tells ⟨made.toCovers, fun _ _ => rfl⟩ made
  | allocate pool len slot =>
      apply withPool_tells unchanged
      exact Files.keepResult
        ⟨fun _ => rfl, fun _ => rfl, by simp [Command.changes]⟩ covers
        (Pools.Consistent.allocate_matches owns pool len)
  | packetFrom pool bytes slot =>
      apply withPool_tells unchanged
      exact Files.keepResult
        ⟨fun _ => rfl, fun _ => rfl, by simp [Command.changes]⟩ covers
        (Pools.Consistent.packetFrom_matches owns pool bytes)
  | append slot bytes =>
      apply withPacket_tells unchanged
      intro packet found
      have split := owns.perm (live_perm_of_packet found)
      exact Files.updateResult
        ⟨fun _ => rfl, fun _ => rfl, by simp [Command.changes]⟩ covers
        (split.append_matches (covers.packets slot packet found) bytes)
  | release slot =>
      apply withPacket_tells unchanged
      intro packet found
      exact Files.updateResult
        ⟨fun _ => rfl, fun _ => rfl, by simp [Command.changes]⟩ covers
        packet.release_matches
  | drop slot =>
      apply withPacket_tells unchanged
      intro packet found
      apply SessionStep.Satisfies.changing
      apply SessionStep.Satisfies.bind (discard_leaves packet _)
      rintro _ _ ⟨pools, rfl⟩
      exact (unchanged.vacated
        (Or.inr ⟨rfl, by simp [Command.changes]⟩)).withPools pools
  | copy pool source slot =>
      apply withPool_tells unchanged
      apply withPacket_tells unchanged
      intro packet found
      exact Files.keepResult
        ⟨fun _ => rfl, fun _ => rfl, by simp [Command.changes]⟩ covers
        (Pools.Consistent.copyPacket_matches owns pool
          (covers.packets source packet found))
  | receive pool frame slot =>
      apply withPool_tells unchanged
      apply SessionStep.Satisfies.get
      exact Files.keepResult
        ⟨fun _ => rfl, fun _ => rfl, by simp [Command.changes]⟩ covers
        (Pools.Consistent.receiveFrame_matches owns pool _)
  | slices slot offset len =>
      apply withPacket_tells unchanged
      intro packet _
      cases packet.slices? offset len with
      | none => exact breakOff_tells .outOfRange
      | some pieces => exact unchanged
  | readAt slot offset destination =>
      apply withPacket_tells unchanged
      intro packet _
      cases packet.readAt offset destination with
      | copied count destination => exact unchanged
      | refused error => exact unchanged
      | outOfRange => exact breakOff_tells .outOfRange
  | copyTo slot destination =>
      exact withPacket_tells unchanged fun _ _ => unchanged
  | writeZone slot zone only bytes =>
      have reserve : zone ≠ .payload := by
        rintro rfl
        cases proper
      apply withPacket_tells unchanged
      intro packet found
      exact unchanged.refiled (Or.inr ⟨rfl, by simp [Command.changes]⟩)
        ((covers.packets slot packet found).writeZone reserve only bytes)
  | swapFirst first second => cases proper
  | writeFragmentHeader slot =>
      apply withPacket_tells unchanged
      intro packet found
      apply updateResult_tells (Packet.writeFragmentHeader_matches
        (covers.packets slot packet found))
      · exact fun _ => unchanged
      · exact fun _ told => unchanged.refiled
          (Or.inr ⟨rfl, by simp [Command.changes]⟩) told
  | beginWalk pool slot mtu walk =>
      exact beginWalk_tells covers owns pool slot mtu walk
  | nextFragment walk slot => exact nextFragment_tells covers owns walk slot
  | collectFragments walk slot max =>
      exact collectFragments_tells covers owns isFree
  | resumeWalk index | restartWalk index =>
      apply withWalk_tells unchanged
      intro walk found
      exact unchanged.walking index _
  | endWalk walk =>
      apply withWalk_tells unchanged
      intro _ _
      have ended : ledger.Tracks session
          (Command.reaches (.endWalk walk) .nothing)
          (session.unwalked walk) := .of_same covers rfl
      exact ended
  | newReassembler pool index choices =>
      exact tended_tells covers (fun reply => by cases reply <;> rfl)
        (newReassembler_tends pool index choices)
  | push index source now slot =>
      exact push_tells describes owns accounted index source now slot
  | expire index now =>
      exact tended_tells covers (fun reply => by cases reply <;> rfl)
        (expire_tends index now)
  | clear index choices =>
      exact tended_tells covers (fun reply => by cases reply <;> rfl)
        (clear_tends index choices)
  | dropReassembler index choices =>
      exact tended_tells covers (fun reply => by cases reply <;> rfl)
        (dropReassembler_tends index choices)
  | reassemble pool arrivals slot deadline choices =>
      exact reassemble_tells covers owns pool arrivals slot deadline choices

/-- What is lent stays as it is. -/
theorem step_tells {command : Command}
    (describes : ledger.Describes session)
    (owns : session.Owns origin .never [])
    (accounted : session.Accounted origin)
    (proper : command.meddles = false) :
    Tells (ledger.told session command) session command.reaches
      (fun session => session.step command) session := by
  refine step_satisfies (fun _ => ?_) fun isFree =>
    carryOut_tells describes owns accounted isFree proper
  have unchanged : ledger.told session command .lent = ledger := by
    cases command <;> rfl
  rw [unchanged]
  exact .refl describes.toCovers

/-! ## Runs -/

/-- A step leaves all packets as they are but those in the slots that it
reaches. -/
structure Spares (session : Session) (command : Command) (reply : Reply)
    (after : Session) : Prop where
  slots : ∀ slot, ¬command.reaches reply slot →
    after.packets.get? slot = session.packets.get? slot
  live : ∀ packet ∈ after.live, packet ∈ session.live ∨
    ∃ slot, command.reaches reply slot ∧
      after.packets.get? slot = some packet

theorem step_describes {command : Command} {reply : Reply}
    {after : Session} (describes : ledger.Describes session)
    (owns : session.Owns origin .never [])
    (accounted : session.Accounted origin)
    (proper : command.meddles = false)
    (stepped : session.step command = .ok (reply, after)) :
    (ledger.next session command reply after).Describes after ∧
      session.Spares command reply after := by
  have tracks :=
    (step_tells describes owns accounted proper).of_ok stepped
  have holds := step_holds.of_ok stepped
  refine ⟨describes.next tracks.toCovers holds, tracks.spares, ?_⟩
  -- A packet outside the slots was live before, wherever it came from.
  intro packet member
  rcases List.mem_append.mp member with inSlot | outside
  · obtain ⟨⟨slot, _⟩, isEntry, rfl⟩ := List.mem_map.mp inSlot
    have found := Table.get?_eq_some_iff.mpr isEntry
    by_cases isReached : command.reaches reply slot
    · exact Or.inr ⟨slot, isReached, found⟩
    · rw [tracks.spares slot isReached] at found
      exact Or.inl (mem_live_of_packet found)
  · exact Or.inl (holds.subset_live packet outside)

theorem runTelling_reached :
    ∀ {commands : List Command} {session after : Session}
      {ledger last : Ledger},
      ledger.Describes session → session.Reached configs →
      (∀ command ∈ commands, command.meddles = false) →
      session.runTelling ledger commands = .ok (after, last) →
        last.Describes after ∧ after.Reached configs
  | [], _, _, _, _, describes, reached, _, ran => by
      cases ran
      exact ⟨describes, reached⟩
  | command :: rest, session, after, ledger, last, describes, reached,
      proper, ran => by
      simp only [runTelling] at ran
      cases stepped : session.step command with
      | error stop => simp [stepped] at ran
      | ok result =>
          simp only [stepped] at ran
          have isProper := proper command (List.mem_cons_self ..)
          have describesNext := (step_describes describes reached.owns
            reached.accounted isProper stepped).1
          exact runTelling_reached describesNext
            (reached.step (Command.exchanges_of_proper isProper) stepped)
            (fun other member => proper other (.tail _ member)) ran

/-- Every live packet holds the bytes it was made from and those added since,
whatever else was done; its length and its count are those of its chain; and
no step changes a packet that it does not reach. -/
theorem runTelling_refines {commands : List Command}
    (few : configs.length ≤ UInt32.size)
    (proper : ∀ command ∈ commands, command.meddles = false)
    (ran : (start (Pools.ofConfigs configs)).runTelling .empty commands =
      .ok (session, ledger)) :
    ledger.Describes session ∧
    (∀ packet ∈ session.live, packet.Sound ∧
      packet.length = packet.toBytes.length ∧
      (packet.isReleased = false → 1 ≤ packet.segmentCount)) ∧
    ∀ command reply after, command.meddles = false →
      session.step command = .ok (reply, after) →
        session.Spares command reply after := by
  have nothing : Ledger.empty.Describes (start (Pools.ofConfigs configs)) :=
    { packets := by simp [start]
      held := by simp [start] }
  have fresh : (start (Pools.ofConfigs configs)).Reached configs :=
    ⟨few, [], by simp, rfl⟩
  obtain ⟨describes, reached⟩ := runTelling_reached nothing fresh proper ran
  refine ⟨describes, ?_, ?_⟩
  · intro packet member
    have sound : packet.Sound := reached.owns.kept packet member
    refine ⟨sound, sound.length_toBytes.symm, fun isLive => ?_⟩
    rw [sound.count_eq]
    exact List.length_pos_iff.mpr (Packet.isReleased_eq_false_iff.mp isLive)
  · intro command reply after isProper stepped
    exact (step_describes describes reached.owns reached.accounted isProper
      stepped).2

/-- Two packets of one pool; bytes are added to both in turn, over segments that
a third one has filled and given back. -/
theorem runTelling_refines_of_two :
    let config : Config :=
      { segmentCapacity := 4, segmentCount := 5, headerReserve := 1 }
    let commands : List Command :=
      [.newPool, .packetFrom 0 [90, 91, 92, 93, 94, 95] 2,
        .packetFrom 0 [1, 2, 3] 0, .release 2, .packetFrom 0 [6] 1,
        .append 0 [4], .append 1 [7], .append 0 [5]]
    ∃ session ledger packet,
      (start (Pools.ofConfigs [config])).runTelling .empty commands =
        .ok (session, ledger) ∧
      session.packets.get? 0 = some packet ∧
      packet.toBytes = [1, 2, 3, 4, 5] ∧ packet.length = 5 ∧
      1 ≤ packet.segmentCount ∧
      ∀ reply after, session.step (.append 1 [8]) = .ok (reply, after) →
        after.packets.get? 0 = some packet := by
  intro config commands
  have known : (do
      let made ← ((start (Pools.ofConfigs [config])).runTelling .empty
        commands).toOption
      let packet ← made.1.packets.get? 0
      pure ((made.2.packets 0).bytes, packet.isReleased)) =
        some ([1, 2, 3, 4, 5], false) := by
    decide +kernel
  obtain ⟨⟨session, ledger⟩, ran, known⟩ :=
    Option.bind_eq_some_iff.mp known
  obtain ⟨packet, found, known⟩ := Option.bind_eq_some_iff.mp known
  obtain ⟨bytes, isLive⟩ := Prod.mk.inj (Option.some.inj known)
  rw [toOption_eq_some_iff] at ran
  obtain ⟨describes, numbers, spares⟩ :=
    runTelling_refines (by decide) (by decide) ran
  have isPacket : packet ∈ session.live :=
    (live_perm_of_packet found).mem_iff.mpr (List.mem_cons_self ..)
  obtain ⟨_, length, counted⟩ := numbers packet isPacket
  have told := (describes.packets 0 packet found).bytes_eq
  rw [bytes] at told
  refine ⟨session, ledger, packet, ran, found, told, ?_, counted isLive, ?_⟩
  · rw [length, told]
    rfl
  · intro reply after stepped
    rw [← found]
    apply (spares _ reply after rfl stepped).slots 0
    simp [Command.reaches, Command.given, Command.changes]

end Session

end PooledPackets
