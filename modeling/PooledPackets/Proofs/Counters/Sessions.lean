import PooledPackets.Proofs.Counters.Reassembly
import PooledPackets.Proofs.Sessions.Holdings

/-!
# Sessions on the books

Every live packet of a session is on the books of its pool. A command takes
what it was told to take off the books, puts what it files on them, and leaves
there what is to be noted of its answer.
-/

namespace PooledPackets

open Books

/-! ## What there is to note of an answer -/

/-- What there is to note of fragments made one after the other. -/
def Fragmenter.allNotes
    (results : List (Except BufferError (Nat × Packet))) : List Note :=
  results.flatMap fun
    | .ok _ => [.event .fragment]
    | .error error => error.notes

namespace Session

/-- The pool that a walk takes its fragments from. -/
def walkPool? (session : Session) (index : Nat) : Option PoolId :=
  (session.walks.get? index).map fun walk => walk.fragmenter.pool

/-- The pool that a command counts with. -/
def counting? (session : Session) : Command → Option PoolId
  | .allocate pool _ _ => some pool
  | .packetFrom pool _ _ => some pool
  | .copy pool _ _ => some pool
  | .receive pool _ _ => some pool
  | .beginWalk pool _ _ _ => some pool
  | .reassemble pool _ _ _ _ => some pool
  | .append slot _ => (session.packets.get? slot).map Packet.pool
  | .release slot => (session.packets.get? slot).map Packet.pool
  | .writeFragmentHeader slot =>
      (session.packets.get? slot).map Packet.pool
  | .nextFragment walk _ => session.walkPool? walk
  | .collectFragments walk _ _ => session.walkPool? walk
  | .push index _ _ _ =>
      (session.reassemblers.get? index).map Reassembler.pool
  | .expire index _ =>
      (session.reassemblers.get? index).map Reassembler.pool
  | _ => none

/-- What there is to note of the answer to a fragment that was pushed. -/
def pushNotes (session : Session) (index source now : Nat)
    (answer : Except BufferError (Option Packet)) : List Note :=
  match session.reassemblers.get? index, session.packets.get? source with
  | some reassembler, some fragment =>
      match reassembler.limits.timeout.after? now with
      | none => []
      | some deadline =>
          reassembler.notes
            (session.pools.get reassembler.pool).config.chaining fragment now
              deadline answer
  | _, _ => []

/-- What there is to note of a datagram that was reassembled at once. -/
def reassemblyNotes (session : Session) (pool : PoolId)
    (arrivals : List (Nat × Nat)) (deadline : Nat) : List Note :=
  match session.packetsIn? (arrivals.map Prod.snd) with
  | none => []
  | some fragments =>
      Reassembler.deliveryNotes
        ⟨pool, (session.pools.get pool).config.reassembly, .empty⟩
        (session.pools.get pool).config.chaining deadline
        ((arrivals.map Prod.fst).zip fragments)

/-- What there is to note of the answer to a command. -/
def notes (session : Session) (command : Command) : Reply → List Note
  | .refused error => error.notes
  | .fragment result => Fragmenter.notes result
  | .fragments results => Fragmenter.allNotes results
  | .expired late => Reassembler.timeouts late
  | .pushed _ answer =>
      match command with
      | .push index source now _ => session.pushNotes index source now answer
      | _ => []
  | .packet _ =>
      match command with
      | .reassemble pool arrivals _ deadline _ =>
          session.reassemblyNotes pool arrivals deadline
      | _ => []
  | _ => []

/-- What an answer leaves on the books. -/
def noted (session : Session) (command : Command) (reply : Reply) : Books :=
  match session.counting? command with
  | none => 0
  | some id => allNoted id (session.notes command reply)

variable {session : Session} {command : Command} {reply : Reply}

theorem noted_of_silent (silent : session.notes command reply = []) :
    session.noted command reply = 0 := by
  rw [noted, silent]
  cases session.counting? command <;> rfl

theorem noted_of_counting {id : PoolId}
    (counting : session.counting? command = some id) :
    session.noted command reply =
      allNoted id (session.notes command reply) := by
  rw [noted, counting]

end Session

/-! ## Packets that keep their tags -/

/-- A packet that has a tag was not released. -/
def Packet.Intact (packet : Packet) : Prop :=
  ∀ tag, packet.tag = some tag → packet.isReleased = false

namespace Packet

variable {longer packet : Packet} {id : PoolId}

theorem IsOut.intact (isOut : packet.IsOut id) : packet.Intact :=
  fun _ _ => isOut.held

theorem Continues.intact (continues : longer.Continues packet)
    (intact : packet.Intact) : longer.Intact := by
  intro tag tagged
  rw [continues.tag_eq] at tagged
  rw [continues.isReleased_eq]
  exact intact tag tagged

theorem intact_husk (packet : Packet) : packet.husk.Intact := by
  intro tag tagged
  cases tagged

theorem lives_husk (packet : Packet) : lives packet.husk = 0 :=
  lives_of_released rfl

theorem continues_writeZone (packet : Packet) (zone : Zone)
    (only : Option Nat) (bytes : Bytes) :
    (packet.writeZone zone only bytes).Continues packet := by
  refine ⟨?_, rfl, rfl⟩
  rw [isReleased, isReleased, Bool.eq_iff_iff,
    List.isEmpty_iff_length_eq_zero, List.isEmpty_iff_length_eq_zero,
    writeZone, List.length_mapIdx]

end Packet

/-- Every fragment that is held for a datagram has a tag. -/
theorem Reassembler.Accounted.held_of_intact {reassembler : Reassembler}
    (accounted : reassembler.Accounted)
    (intact : ∀ part ∈ reassembler.fragments, part.Intact) :
    ∀ part ∈ reassembler.fragments, part.isReleased = false := by
  intro part member
  obtain ⟨assembly, isPending, inAssembly⟩ := List.mem_flatMap.mp member
  obtain ⟨⟨datagram, _⟩, isEntry, rfl⟩ := List.mem_map.mp isPending
  obtain ⟨⟨offset, _⟩, isHeld, rfl⟩ := List.mem_map.mp inAssembly
  have pending :=
    accounted.pending _ _ (Table.get?_eq_some_iff.mpr isEntry)
  obtain ⟨tag, tagged, _⟩ := pending.tagged _ isHeld
  exact intact _ member tag tagged

namespace Session

/-- The live packets of a session and those in hand are on the books, with what
else the books say. -/
structure Booked (session : Session) (origin : Pools)
    (inHand : List Packet) (books : Books) : Prop where
  intact : ∀ packet ∈ inHand ++ session.live, packet.Intact
  pools : session.pools.Booked origin
    (books + alive (inHand ++ session.live))

/-- What a step answers is noted, and nothing is in hand any more. -/
def LeavesNoted {α : Type} (step : SessionStep α) (session : Session)
    (origin : Pools) (books : Books) (told : α → Books) : Prop :=
  SessionStep.Satisfies step session
    (fun answer after => after.Booked origin [] (books + told answer))
    (fun _ => True)

variable {session : Session} {origin : Pools} {books : Books}
variable {inHand : List Packet} {packet : Packet}

/-! ## The parts of a step -/

namespace Booked

/-- The packets are where they were or elsewhere, and the pools have not
changed. -/
theorem regroup {after : Session} {others : List Packet}
    (booked : session.Booked origin inHand books)
    (same : (inHand ++ session.live).Perm (others ++ after.live))
    (samePools : after.pools = session.pools) :
    after.Booked origin others books where
  intact := fun packet member =>
    booked.intact packet (same.mem_iff.mpr member)
  pools := by
    rw [samePools, ← alive_perm same]
    exact booked.pools

theorem of_eq {other : Books} (booked : session.Booked origin inHand books)
    (same : books = other) : session.Booked origin inHand other :=
  same ▸ booked

/-- Nothing has changed, and there is nothing to note. -/
theorem idle (booked : session.Booked origin [] books) {told : Books}
    (silent : told = 0) : session.Booked origin [] (books + told) :=
  booked.of_eq (by rw [silent, add_zero])

/-- Other packets are in hand than before. -/
theorem handling {pools : Pools} {others : List Packet} {told : Books}
    (booked : session.Booked origin inHand books)
    (intact : ∀ packet ∈ others, packet.Intact)
    (onBooks : pools.Booked origin (books +
      alive (inHand ++ session.live) - alive inHand + alive others +
        told)) :
    (session.withPools pools).Booked origin others (books + told) where
  intact := by
    intro packet member
    rcases List.mem_append.mp member with isOther | isLive
    · exact intact packet isOther
    · exact booked.intact packet (List.mem_append_right _ isLive)
  pools := by
    apply onBooks.of_eq
    rw [alive_append, alive_append]
    change _ = _ + (_ + alive session.live)
    abel

end Booked

theorem discard_noted
    (booked : session.Booked origin (packet :: inHand) books) :
    SessionStep.Satisfies (discard packet) session
      (fun _ after => after.Booked origin inHand books)
      (fun _ => True) := by
  have dropped : (packet.drop session.pools).Satisfies _
      (fun _ _ => False) _ := booked.pools.drop_satisfies packet
  apply SessionStep.Satisfies.bind (perform_leaves dropped)
  intro result after ending
  obtain ⟨pools, rfl, known⟩ := ending
  cases result with
  | error error => exact known.elim
  | ok value =>
      have intact : ∀ other ∈ inHand, other.Intact := fun other member =>
        booked.intact other (.tail _ (List.mem_append_left _ member))
      refine (booked.handling intact (known.of_eq ?_)).of_eq (add_zero _)
      rw [alive_cons]
      abel

/-- A packet that goes into a slot takes the place of the one there. -/
theorem keep_noted {slot : Nat}
    (booked : session.Booked origin (packet :: inHand) books) :
    SessionStep.Satisfies (keep slot packet) session
      (fun _ after => after.Booked origin inHand books)
      (fun _ => True) := by
  apply SessionStep.Satisfies.get
  have filing : (packet :: inHand ++ (session.vacated slot).live).Perm
      (inHand ++ (session.filed slot packet).live) := by
    refine List.Perm.trans ?_
      ((live_filed_perm session slot packet).symm.append_left inHand)
    exact List.perm_middle.symm
  cases found : session.packets.get? slot with
  | none =>
      rw [vacated_of_absent found] at filing
      have filed : (session.filed slot packet).Booked origin inHand books :=
        booked.regroup filing rfl
      exact filed
  | some previous =>
      have split : (packet :: inHand ++ session.live).Perm
          (previous :: inHand ++ (session.filed slot packet).live) := by
        apply ((live_perm_of_packet found).append_left _).trans
        exact List.perm_middle.trans (filing.cons previous)
      have filed : (session.filed slot packet).Booked origin
          (previous :: inHand) books := booked.regroup split rfl
      exact discard_noted filed

variable {told : Reply → Books}

theorem keepResult_noted {slot : Nat} {operation : Operation Packet}
    {id : PoolId} (booked : session.Booked origin inHand books)
    (contract : (operation session.pools).Satisfies
      (fun packet after => packet.IsOut id ∧ after.Booked origin
        (books + alive (inHand ++ session.live) - alive inHand +
          lives packet + told (.packet packet)))
      (fun error after => after.Booked origin
        (books + alive (inHand ++ session.live) - alive inHand +
          told (.refused error)))
      (fun _ => True)) :
    LeavesNoted (keepResult slot operation) session origin books told := by
  apply SessionStep.Satisfies.bind (perform_leaves contract)
  intro result after ending
  obtain ⟨pools, rfl, known⟩ := ending
  cases result with
  | error error =>
      apply SessionStep.Satisfies.pure
      apply booked.handling (by simp)
      exact known.of_eq (by rw [alive_nil, add_zero])
  | ok packet =>
      obtain ⟨isOut, onBooks⟩ := known
      have filing : (session.withPools pools).Booked origin [packet]
          (books + told (.packet packet)) := by
        apply booked.handling (by simpa using isOut.intact)
        exact onBooks.of_eq (by rw [alive_cons, alive_nil, add_zero])
      exact SessionStep.Satisfies.bind (keep_noted filing)
        fun _ _ bookedAfter => bookedAfter

theorem updateResult_noted {slot : Nat} {operation : Operation Packet}
    {reply : Packet → Reply} (booked : session.Booked origin [] books)
    (found : session.packets.get? slot = some packet)
    (contract : (operation session.pools).Satisfies
      (fun changed after => changed.Intact ∧ after.Booked origin
        (books + alive session.live - lives packet + lives changed +
          told (reply changed)))
      (fun error after => after.Booked origin
        (books + alive session.live + told (.refused error)))
      (fun _ => True)) :
    LeavesNoted (updateResult slot operation reply) session origin books
      told := by
  apply SessionStep.Satisfies.bind (perform_leaves contract)
  intro result after ending
  obtain ⟨pools, rfl, known⟩ := ending
  cases result with
  | error error =>
      apply SessionStep.Satisfies.pure
      apply booked.handling (by simp)
      exact known.of_eq (by rw [alive_nil, List.nil_append]; abel)
  | ok changed =>
      obtain ⟨intact, onBooks⟩ := known
      have split := live_perm_of_packet found
      have taken : (session.vacated slot).Booked origin [packet] books :=
        booked.regroup split rfl
      have placed : ((session.vacated slot).withPools pools).Booked origin
          [changed] (books + told (reply changed)) := by
        apply taken.handling (by simpa using intact)
        apply onBooks.of_eq
        rw [alive_perm split, List.singleton_append, alive_cons, alive_cons,
          alive_cons, alive_nil]
        abel
      have filed : ((session.withPools pools).filed slot changed).Booked
          origin [] (books + told (reply changed)) :=
        placed.regroup (live_filed_perm session slot changed).symm rfl
      exact filed

theorem breakOff_noted (stop : Stop) :
    LeavesNoted (breakOff stop : SessionStep Reply) session origin books
      told := by
  obtain ⟨ended, broken⟩ :=
    @exists_breakOff_eq Reply stop session
  simp [LeavesNoted, SessionStep.Satisfies, broken]

theorem withPacket_noted {slot : Nat} {next : Packet → SessionStep Reply}
    (booked : session.Booked origin [] books)
    (silent : told .noSuchSlot = 0)
    (goesOn : ∀ packet, session.packets.get? slot = some packet →
      LeavesNoted (next packet) session origin books told) :
    LeavesNoted (withPacket slot next) session origin books told := by
  apply SessionStep.Satisfies.get
  cases found : session.packets.get? slot with
  | none => exact SessionStep.Satisfies.pure (booked.idle silent)
  | some packet => exact goesOn packet found

theorem withPool_noted {id : PoolId} {next : SessionStep Reply}
    (booked : session.Booked origin [] books)
    (silent : told .noSuchPool = 0)
    (goesOn : LeavesNoted next session origin books told) :
    LeavesNoted (withPool id next) session origin books told :=
  SessionStep.Satisfies.get (SessionStep.Satisfies.ite (fun _ => goesOn)
    fun _ => SessionStep.Satisfies.pure (booked.idle silent))

theorem withReassembler_noted {index : Nat}
    {next : Reassembler → SessionStep Reply}
    (booked : session.Booked origin [] books)
    (silent : told .noSuchReassembler = 0)
    (goesOn : ∀ reassembler,
      session.reassemblers.get? index = some reassembler →
        LeavesNoted (next reassembler) session origin books told) :
    LeavesNoted (withReassembler index next) session origin books told := by
  apply SessionStep.Satisfies.get
  cases found : session.reassemblers.get? index with
  | none => exact SessionStep.Satisfies.pure (booked.idle silent)
  | some reassembler => exact goesOn reassembler found

theorem withWalk_noted {index : Nat} {next : Walk → SessionStep Reply}
    (booked : session.Booked origin [] books)
    (silent : told .noSuchWalk = 0)
    (goesOn : ∀ walk, session.walk? index = some walk →
      LeavesNoted (next walk) session origin books told) :
    LeavesNoted (withWalk index next) session origin books told := by
  apply SessionStep.Satisfies.get
  cases found : session.walk? index with
  | none => exact SessionStep.Satisfies.pure (booked.idle silent)
  | some walk => exact goesOn walk found

/-! ## Making and changing packets -/

variable {command : Command}

/-- A packet that was made is filed; where none could be made the refusal is
noted. -/
theorem made_noted {slot : Nat} {operation : Operation Packet} {id : PoolId}
    (booked : session.Booked origin [] books)
    (counting : session.counting? command = some id)
    (silent : ∀ packet, session.notes command (.packet packet) = [])
    (contract : ∀ {before : Books}, session.pools.Booked origin before →
      (operation session.pools).Satisfies
        (fun packet after => packet.IsOut id ∧
          after.Booked origin (before + entry id .packets))
        (fun error after =>
          after.Booked origin (before + allNoted id error.notes))
        (fun _ => True)) :
    LeavesNoted (keepResult slot operation) session origin books
      (session.noted command) := by
  apply keepResult_noted booked
  apply (contract booked.pools).mono
  · intro packet after known
    refine ⟨known.1, known.2.of_eq ?_⟩
    rw [noted_of_silent (silent packet), known.1.lives_eq, alive_nil]
    abel
  · intro error after refused
    rw [noted_of_counting counting]
    exact refused.of_eq (by rw [alive_nil, sub_zero]; rfl)
  · exact fun _ known => known

/-- A packet that was changed is where it was; where it could not be changed
the refusal is noted. -/
theorem changed_noted {slot : Nat} {operation : Operation Packet}
    {reply : Packet → Reply} (booked : session.Booked origin [] books)
    (found : session.packets.get? slot = some packet)
    (counting : session.counting? command = some packet.pool)
    (silent : ∀ changed, session.notes command (reply changed) = [])
    (contract : ∀ {before : Books}, session.pools.Booked origin before →
      (operation session.pools).Satisfies
        (fun changed after => changed.Continues packet ∧
          after.Booked origin before)
        (fun error after =>
          after.Booked origin (before + allNoted packet.pool error.notes))
        (fun _ => True)) :
    LeavesNoted (updateResult slot operation reply) session origin books
      (session.noted command) := by
  have intact : packet.Intact :=
    booked.intact packet (mem_live_of_packet found)
  apply updateResult_noted booked found
  apply (contract booked.pools).mono
  · intro changed after known
    refine ⟨known.1.intact intact, known.2.of_eq ?_⟩
    rw [noted_of_silent (silent changed), known.1.lives_eq]
    change books + alive session.live = _
    abel
  · intro error after refused
    rw [noted_of_counting counting]
    exact refused
  · exact fun _ known => known

/-- Nothing is to note of bytes that are written over those of a packet. -/
theorem updated_noted {slot : Nat} {changed : Packet} {reply : Reply}
    (booked : session.Booked origin [] books)
    (found : session.packets.get? slot = some packet)
    (continues : changed.Continues packet) (silent : told reply = 0) :
    LeavesNoted (do
      update slot changed
      pure reply) session origin books told := by
  have split := live_perm_of_packet found
  have taken : (session.vacated slot).Booked origin [packet] books :=
    booked.regroup split rfl
  have intact : packet.Intact := taken.intact packet (List.mem_cons_self ..)
  have placed : (session.vacated slot).Booked origin [changed]
      (books + 0) := by
    apply taken.handling (by simpa using continues.intact intact)
    apply taken.pools.of_eq
    rw [alive_cons, alive_cons, continues.lives_eq]
    abel
  have filed : (session.filed slot changed).Booked origin [] (books + 0) :=
    placed.regroup (live_filed_perm session slot changed).symm rfl
  exact (filed.of_eq (add_zero books)).idle silent

end Session

end PooledPackets
