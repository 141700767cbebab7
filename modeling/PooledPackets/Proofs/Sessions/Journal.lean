import PooledPackets.Proofs.Reassembly.Tiling
import PooledPackets.Proofs.Sessions.Holdings

/-!
# Reassembly is sound

Beside a session a journal is kept of the fragments that were accepted for
each datagram since it began. It does not look into the reassemblers, but
what they hold is what it says, in another order. So a packet that a
reassembler delivers can be compared with the fragments that were pushed.
-/

namespace PooledPackets

/-- The fragments accepted for a datagram of a reassembler, by the number of
the reassembler and that of the datagram. -/
abbrev Journal := Nat → Nat → List Packet

namespace Session

/-- Whether a datagram of a reassembler is incomplete. -/
def isPending (session : Session) (index datagram : Nat) : Bool :=
  (session.reassemblers.get? index).any
    fun reassembler => reassembler.pending.contains datagram

/-- The fragment that a command has added to a datagram, if it has. -/
def accepted (session : Session) (reply : Reply) (index datagram : Nat) :
    Command → List Packet
  | .push at' source _ _ =>
      match reply with
      | .pushed (some number) (.ok none) =>
          if at' = index ∧ number.toNat = datagram then
            (session.packets.get? source).toList
          else []
      | _ => []
  | _ => []

theorem accepted_eq (session : Session) (reply : Reply)
    (index datagram : Nat) (command : Command) :
    session.accepted reply index datagram command =
      ((command.source? reply index datagram).bind
        session.packets.get?).toList := by
  cases command with
  | push at' source now slot =>
      simp only [accepted, Command.source?]
      cases reply with
      | pushed number answer =>
          cases number with
          | none => rfl
          | some number =>
              cases answer with
              | error error => rfl
              | ok joined =>
                  cases joined with
                  | some packet => rfl
                  | none =>
                      dsimp only
                      split
                      · rfl
                      · rfl
      | _ => rfl
  | _ => rfl

end Session

/-- The journal after a command. What was accepted for a datagram is forgotten
once the datagram is not incomplete any more. -/
def Journal.next (journal : Journal) (session : Session)
    (command : Command) (reply : Reply) (after : Session) : Journal :=
  fun index datagram =>
    if after.isPending index datagram then
      journal index datagram ++
        session.accepted reply index datagram command
    else []

namespace Session

/-- Carries out commands and keeps a journal. -/
def runNoting (session : Session) (journal : Journal) :
    List Command → Except Stop (Session × Journal)
  | [] => .ok (session, journal)
  | command :: rest =>
      match session.step command with
      | .error stop => .error stop
      | .ok (reply, after) =>
          after.runNoting (journal.next session command reply after) rest

end Session

/-- What the reassemblers of a session hold is what the journal says. -/
def Journal.Records (journal : Journal) (session : Session) : Prop :=
  ∀ index reassembler,
    session.reassemblers.get? index = some reassembler →
    ∀ datagram,
      (journal index datagram).Perm (reassembler.fragmentsFor datagram)

namespace Journal.Records

variable {journal : Journal} {session after : Session}
variable {command : Command} {reply : Reply}

theorem perm_of_insert (records : journal.Records session)
    {index deadline : Nat} {reassembler : Reassembler}
    (found : session.reassemblers.get? index = some reassembler)
    {tag : FragmentTag} {fragment : Packet} {longer : Assembly}
    (inserting : (reassembler.assemblyFor tag.datagram.toNat
      deadline).insert tag fragment reassembler.limits.holdLimit =
        .ok longer) :
    longer.fragments.Perm
      (journal index tag.datagram.toNat ++ [fragment]) := by
  have grown := Assembly.fragments_of_insert inserting
  rw [reassembler.fragments_assemblyFor] at grown
  have recorded := records index reassembler found tag.datagram.toNat
  exact grown.trans ((recorded.symm.cons fragment).trans
    (List.perm_append_singleton fragment _).symm)

/-- What is held is noted, whether it was held before or has just been
added. -/
theorem next (records : journal.Records session)
    (holds : session.Holds command reply after) :
    (journal.next session command reply after).Records after := by
  intro index reassembler found datagram
  cases isHeld : reassembler.pending.get? datagram with
  | none =>
      have notPending : after.isPending index datagram = false := by
        simp [Session.isPending, found, Table.contains, isHeld]
      simp [Journal.next, notPending, Reassembler.fragmentsFor, isHeld]
  | some assembly =>
      have pending : after.isPending index datagram = true := by
        simp [Session.isPending, found, Table.contains, isHeld]
      rw [Reassembler.fragmentsFor_of_get? isHeld, Journal.next,
        if_pos pending, session.accepted_eq]
      cases holds index reassembler found datagram assembly isHeld with
      | kept nothing wasThere wasHeld =>
          have recorded := records index _ wasThere datagram
          rw [Reassembler.fragmentsFor_of_get? wasHeld] at recorded
          simpa [nothing] using recorded
      | grown isSource wasThere isFragment _ isDatagram inserting =>
          subst isDatagram
          simpa [isSource, isFragment] using
            (records.perm_of_insert wasThere inserting).symm

theorem step_records (records : journal.Records session) :
    SessionStep.Satisfies (fun session => session.step command) session
      (fun reply after =>
        (journal.next session command reply after).Records after)
      (fun _ => True) :=
  Session.step_holds.monoDone fun _ _ holds => records.next holds

theorem runNoting_records :
    ∀ {commands : List Command} {session after : Session}
      {journal noted : Journal},
      journal.Records session →
      session.runNoting journal commands = .ok (after, noted) →
        noted.Records after ∧ session.runAll commands = .ok after
  | [], _, _, _, _, records, ran => by
      cases ran
      exact ⟨records, rfl⟩
  | command :: rest, session, after, journal, noted, records, ran => by
      simp only [Session.runNoting] at ran
      cases stepped : session.step command with
      | error stop => simp [stepped] at ran
      | ok result =>
          simp only [stepped] at ran
          have recordsNext :=
            (@step_records _ _ command records).of_ok stepped
          obtain ⟨recordsAfter, ranRest⟩ :=
            runNoting_records recordsNext ran
          refine ⟨recordsAfter, ?_⟩
          simp only [Session.runAll, stepped]
          exact ranRest

end Journal.Records

/-! ## Packets put together from fragments -/

/-- A packet is what fragments amount to that tile a datagram: each of its
bytes is that of the one fragment that covers its position. -/
structure Packet.Composed (packet : Packet) (id : PoolId)
    (fragments : List Packet) (total : Nat) : Prop where
  tile : Tile fragments total
  length_eq : packet.length = total
  size_eq : packet.toBytes.length = total
  byte_eq : ∀ position < total, ∃ fragment ∈ fragments,
    fragment.Covers position ∧
    (∀ other ∈ fragments, other.Covers position → other = fragment) ∧
    packet.toBytes[position]? =
      fragment.toBytes[position - fragment.start]?
  tag_eq : packet.tag = none
  pool_eq : packet.pool = id

/-- Joining the fragments of a complete datagram composes them. -/
theorem Assembly.Accounted.composed {assembly : Assembly}
    {datagram holdLimit : Nat}
    (accounted : assembly.Accounted datagram holdLimit)
    (complete : assembly.isComplete = true)
    (sound : ∀ fragment ∈ assembly.fragments, fragment.Sound)
    {packet : Packet} (soundPacket : packet.Sound) {id : PoolId}
    (joined : packet.Joined .never id assembly.fragments) :
    ∃ total, packet.Composed id assembly.fragments total := by
  obtain ⟨total, tile, runs⟩ := accounted.tile complete
  have filled : ∀ entry ∈ assembly.held.entries,
      entry.2.toBytes.length = entry.2.length :=
    fun entry member =>
      (sound entry.2 (List.mem_map_of_mem member)).length_toBytes
  have spelled := joined.spelled rfl
  have size : packet.toBytes.length = total := by
    have added := runs.sum_eq
    rw [Nat.zero_add, ← Assembly.length_spelling filled] at added
    rw [spelled]
    exact added
  refine ⟨total, tile, ?_, size, ?_, joined.tag_eq, joined.pool_eq⟩
  · rw [← size]
    exact soundPacket.length_toBytes.symm
  · intro position inside
    obtain ⟨entry, member, begins, ends⟩ :=
      runs.exists_covering position (Nat.zero_le _) inside
    have isFragment : entry.2 ∈ assembly.fragments :=
      List.mem_map_of_mem member
    have covers : entry.2.Covers position := by
      rw [Packet.Covers, accounted.start_eq member,
        accounted.stop_eq member]
      exact ⟨begins, ends⟩
    refine ⟨entry.2, isFragment, covers, ?_, ?_⟩
    · intro other isOther coversOther
      exact tile.eq_of_covers isOther isFragment coversOther covers
    · rw [spelled, accounted.start_eq member]
      exact runs.getElem?_spelling filled entry member position begins ends

theorem Packet.Composed.perm {packet : Packet} {id : PoolId}
    {fragments arranged : List Packet} {total : Nat}
    (composed : packet.Composed id fragments total)
    (same : fragments.Perm arranged) :
    packet.Composed id arranged total where
  tile := composed.tile.perm same
  length_eq := composed.length_eq
  size_eq := composed.size_eq
  byte_eq := fun position inside => by
    obtain ⟨fragment, member, covers, only, byte⟩ :=
      composed.byte_eq position inside
    exact ⟨fragment, same.mem_iff.mp member, covers,
      fun other isOther => only other (same.mem_iff.mpr isOther), byte⟩
  tag_eq := composed.tag_eq
  pool_eq := composed.pool_eq

namespace Session

variable {session : Session} {index source now slot : Nat}

/-- All that goes into a datagram is live. -/
theorem Owns.sound_of_insert {origin : Pools} {deadline : Nat}
    {reassembler : Reassembler} {tag : FragmentTag} {fragment : Packet}
    {longer : Assembly} (owns : session.Owns origin .never [])
    (found : session.reassemblers.get? index = some reassembler)
    (isFragment : session.packets.get? source = some fragment)
    (inserting : (reassembler.assemblyFor tag.datagram.toNat
      deadline).insert tag fragment reassembler.limits.holdLimit =
        .ok longer) :
    ∀ part ∈ longer.fragments, part.Sound := by
  intro part member
  have grown := Assembly.fragments_of_insert inserting
  rw [reassembler.fragments_assemblyFor] at grown
  apply (owns.handed found isFragment).kept part
  rcases List.mem_cons.mp (grown.mem_iff.mp member) with rfl | wasHeld
  · exact List.mem_cons_self ..
  · exact .tail _ (List.mem_append_left _
      (reassembler.fragmentsFor_subset _ wasHeld))

/-- Whenever a push delivers a packet, the fragments accepted for the datagram
since it began tile it, and the packet is composed of them. A push that makes
them tile the datagram never leaves it incomplete. -/
theorem runNoting_sound {configs : List Config} {commands : List Command}
    {journal : Journal} {datagram : Option UInt32}
    {answer : Except BufferError (Option Packet)} {after : Session}
    (few : configs.length ≤ UInt32.size)
    (faithful : ∀ command ∈ commands, command.exchanges = false)
    (ran : (start (Pools.ofConfigs configs)).runNoting (fun _ _ => [])
      commands = .ok (session, journal))
    (stepped : session.step (.push index source now slot) =
      .ok (.pushed datagram answer, after)) :
    ∃ reassembler fragment,
      session.reassemblers.get? index = some reassembler ∧
      session.packets.get? source = some fragment ∧
      (∀ packet, answer = .ok (some packet) → ∃ number total,
        datagram = some number ∧
        (∀ part ∈ journal index number.toNat ++ [fragment], ∃ tag,
          part.tag = some tag ∧ tag.datagram = number) ∧
        packet.Composed reassembler.pool
          (journal index number.toNat ++ [fragment]) total) ∧
      (answer = .ok none → ∃ number, datagram = some number ∧
        ∀ total, ¬Tile (journal index number.toNat ++ [fragment])
          total) := by
  have nothingHeld : Journal.Records (fun _ _ => [])
      (start (Pools.ofConfigs configs)) := by
    intro other reassembler found
    simp [start] at found
  obtain ⟨records, ranAll⟩ := nothingHeld.runNoting_records ran
  have reached : session.Reached configs := ⟨few, commands, faithful, ranAll⟩
  have owns := reached.owns
  have pushing := push_step_ends.of_ok stepped
  cases pushing with
  | idle _ silent => exact absurd rfl (silent _ _)
  | @answered reassembler changed fragment _ _ _ found isFragment pushed
      _ =>
      obtain ⟨⟨deadline, _, answers⟩, consistentAfter⟩ :=
        (owns.handed found isFragment).push_satisfies.of_done pushed
      obtain ⟨_, accounted⟩ := reached.accounted index reassembler found
      -- The answer tells which of the verdicts it was.
      have verdict := reassembler.judged fragment now deadline
      have fits := answers.fits
      have ending := answers.ending
      generalize reassembler.judge fragment now deadline = decided
        at verdict fits ending
      refine ⟨reassembler, fragment, found, isFragment, ?_, ?_⟩
      · rintro packet rfl
        cases verdict with
        | untagged _ => cases fits
        | refused error _ => cases fits
        | waiting _ _ _ _ => cases fits
        | @whole tag longer tagged inserting complete =>
            obtain ⟨before, _, joined⟩ := ending longer rfl
            have whole := (accounted.assemblyFor tag.datagram.toNat
              deadline).insert tagged rfl inserting
            have same := records.perm_of_insert found inserting
            have sound : ∀ part ∈ longer.fragments, part.Sound := by
              intro part member
              exact owns.sound_of_insert found isFragment inserting part
                member
            have soundPacket : packet.Sound :=
              consistentAfter.kept packet (List.mem_cons_self ..)
            obtain ⟨total, composed⟩ :=
              whole.composed complete sound soundPacket joined
            refine ⟨tag.datagram, total, by rw [tagged]; rfl, ?_,
              composed.perm same⟩
            intro part member
            obtain ⟨entry, isHeld, rfl⟩ :=
              List.mem_map.mp (same.mem_iff.mpr member)
            obtain ⟨place, isPlace, sameDatagram, _⟩ :=
              whole.tagged entry isHeld
            exact ⟨place, isPlace, UInt32.toNat_inj.mp sameDatagram⟩
      · rintro rfl
        cases verdict with
        | untagged _ => cases fits
        | refused error _ => cases fits
        | whole _ _ _ => exact absurd rfl fits
        | @waiting tag longer tagged inserting incomplete _ =>
            have whole := (accounted.assemblyFor tag.datagram.toNat
              deadline).insert tagged rfl inserting
            have same := records.perm_of_insert found inserting
            refine ⟨tag.datagram, by rw [tagged]; rfl, ?_⟩
            intro total tile
            have complete := whole.complete_of_tile (tile.perm same.symm)
            simp [incomplete] at complete

/-- Three fragments of one packet, the last one first and the middle one
last. -/
theorem runNoting_sound_of_three :
    let config : Config :=
      { segmentCapacity := 4, segmentCount := 8, headerReserve := 1 }
    let commands : List Command :=
      [.newPool, .packetFrom 0 [1, 2, 3, 4, 5] 0, .newReassembler 0 0 [],
        .beginWalk 0 0 2 0, .collectFragments 0 1 3, .push 0 3 0 9,
        .push 0 1 1 9]
    ∃ session journal reassembler packet fragment number total,
      (start (Pools.ofConfigs [config])).runNoting (fun _ _ => [])
        commands = .ok (session, journal) ∧
      session.reassemblers.get? 0 = some reassembler ∧
      session.packets.get? 2 = some fragment ∧
      Packet.Composed packet reassembler.pool
        (journal 0 (UInt32.toNat number) ++ [fragment]) total := by
  intro config commands
  have delivers : (do
      let made ← ((start (Pools.ofConfigs [config])).runNoting
        (fun _ _ => []) commands).toOption
      let stepped ← (made.1.step (.push 0 2 2 9)).toOption
      let whole ← stepped.1.answer?
      pure whole.isSome) = some true := by
    decide +kernel
  obtain ⟨⟨session, journal⟩, ran, delivers⟩ :=
    Option.bind_eq_some_iff.mp delivers
  obtain ⟨⟨reply, after⟩, stepped, delivers⟩ :=
    Option.bind_eq_some_iff.mp delivers
  obtain ⟨whole, isAnswer, isWhole⟩ := Option.bind_eq_some_iff.mp delivers
  rw [toOption_eq_some_iff] at ran stepped
  obtain ⟨datagram, rfl⟩ := Reply.answer?_eq_some_iff.mp isAnswer
  obtain ⟨packet, rfl⟩ := Option.isSome_iff_exists.mp
    (Option.some.inj isWhole)
  obtain ⟨reassembler, fragment, found, isFragment, sound, _⟩ :=
    runNoting_sound (by decide) (by decide) ran stepped
  obtain ⟨number, total, _, _, composed⟩ := sound packet rfl
  exact ⟨session, journal, reassembler, packet, fragment, number, total,
    ran, found, isFragment, composed⟩

end Session

end PooledPackets
