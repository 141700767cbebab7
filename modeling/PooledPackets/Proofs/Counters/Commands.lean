import PooledPackets.Proofs.Counters.Sessions

/-!
# Commands on the books

Every command leaves the live packets of a session on the books, with what
there is to note of its answer.
-/

namespace PooledPackets

open Books

namespace Session

variable {session : Session} {origin : Pools} {books : Books}
variable {inHand : List Packet} {told : Reply → Books}

/-! ## Splitting packets -/

/-- A walk as it stands splits for the pool that it was begun for. -/
theorem walkPool?_of_walk? {index : Nat} {walk : Walk}
    (found : session.walk? index = some walk) :
    session.walkPool? index = some walk.fragmenter.pool := by
  obtain ⟨_, source, begun⟩ := walk?_eq_some_iff.mp found
  simp [walkPool?, begun]

/-- A fragment that was made is noted, and so is why one could not be made. -/
theorem nextFragment_noted {index slot : Nat} {id : PoolId}
    (booked : session.Booked origin [] books)
    (splits : session.walkPool? index = some id) :
    SessionStep.Satisfies (nextFragment index slot) session
      (fun reply after => after.walkPool? index = some id ∧
        (reply = .noSuchWalk ∧ after.Booked origin [] books ∨
          ∃ result, reply = .fragment result ∧ after.Booked origin []
            (books + allNoted id (Fragmenter.notes result))))
      (fun _ => True) := by
  apply SessionStep.Satisfies.get
  cases found : session.walk? index with
  | none => exact ⟨splits, Or.inl ⟨rfl, booked⟩⟩
  | some walk =>
      have samePool : walk.fragmenter.pool = id :=
        Option.some.inj ((walkPool?_of_walk? found).symm.trans splits)
      have made : (walk.fragmenter.next session.pools).Satisfies _
          (fun _ _ => False) _ := booked.pools.next_satisfies
      apply SessionStep.Satisfies.bind (perform_leaves made)
      intro result after ending
      obtain ⟨pools, rfl, known⟩ := ending
      match result with
      | .error error => exact known.elim
      | .ok (result, fragmenter) =>
          obtain ⟨_, keepsPool, isOut, onBooks⟩ := known
          dsimp only at keepsPool isOut onBooks
          rw [samePool] at keepsPool isOut onBooks
          have noted : (session.withPools pools).Booked origin
              (Fragmenter.made result)
              (books + allNoted id (Fragmenter.notes result)) := by
            apply booked.handling fun packet isMade =>
              (isOut packet isMade).intact
            exact onBooks.of_eq (by rw [alive_nil, sub_zero])
          have turned : ((session.withPools pools).walking index
              { walk with fragmenter }).Booked origin
                (Fragmenter.made result)
                (books + allNoted id (Fragmenter.notes result)) :=
            noted.regroup (List.Perm.refl _) rfl
          have splitsOn : ((session.withPools pools).walking index
              { walk with fragmenter }).walkPool? index = some id := by
            simp [walkPool?, walking, keepsPool]
          apply SessionStep.Satisfies.changing
          match result with
          | none => exact ⟨splitsOn, Or.inr ⟨_, rfl, turned⟩⟩
          | some (.error error) =>
              exact ⟨splitsOn, Or.inr ⟨_, rfl, turned⟩⟩
          | some (.ok fragment) =>
              apply SessionStep.Satisfies.bind
                ((keep_leaves slot fragment _).and (keep_noted turned))
              intro _ last ending
              obtain ⟨⟨_, rfl⟩, bookedLast⟩ := ending
              exact ⟨splitsOn, Or.inr ⟨_, rfl, bookedLast⟩⟩

theorem collectFragments_noted {id : PoolId} {max index slot : Nat}
    (booked : session.Booked origin [] books)
    (splits : session.walkPool? index = some id) :
    LeavesNoted (collectFragments index slot max) session origin books
      (fun results => allNoted id (Fragmenter.allNotes results)) := by
  induction max generalizing slot session books with
  | zero => exact booked.idle rfl
  | succ max inductionHypothesis =>
      apply SessionStep.Satisfies.bind (nextFragment_noted booked splits)
      intro reply after ending
      -- What a fragment leaves to note comes before what the others leave.
      have later : ∀ {first : List Note}
          {results : List (Except BufferError (Nat × Packet))}
          {last : Session}, last.Booked origin []
            (books + allNoted id first +
              allNoted id (Fragmenter.allNotes results)) →
          last.Booked origin [] (books + allNoted id
            (first ++ Fragmenter.allNotes results)) :=
        fun bookedLast => bookedLast.of_eq (by
          rw [allNoted_append, add_assoc])
      obtain ⟨splitsOn, ⟨rfl, bookedAfter⟩ | ⟨result, rfl, bookedAfter⟩⟩ :=
        ending
      · exact bookedAfter.idle rfl
      match result with
      | none => exact bookedAfter
      | some (.error error) =>
          apply SessionStep.Satisfies.bind
            (inductionHypothesis bookedAfter splitsOn)
          exact fun _ _ bookedLast => later bookedLast
      | some (.ok fragment) =>
          apply SessionStep.Satisfies.bind
            (inductionHypothesis bookedAfter splitsOn)
          exact fun _ _ bookedLast => later bookedLast

/-- A packet being split stays on the books. -/
theorem beginWalk_noted {pool : PoolId} {slot mtu index : Nat}
    (booked : session.Booked origin [] books) :
    LeavesNoted (beginWalk pool slot mtu index) session origin books
      (session.noted (.beginWalk pool slot mtu index)) := by
  apply withPool_noted booked (noted_of_silent rfl)
  apply withPacket_noted booked (noted_of_silent rfl)
  intro packet found
  apply SessionStep.Satisfies.bind
    (perform_leaves (booked.pools.fragmentForLink_satisfies pool packet mtu))
  intro result after ending
  obtain ⟨pools, rfl, known⟩ := ending
  cases result with
  | error error =>
      apply SessionStep.Satisfies.pure
      apply booked.handling (by simp)
      exact known.of_eq (by rw [alive_nil, sub_zero, add_zero]; rfl)
  | ok fragmenter =>
      have begun : ((session.withPools pools).walking index
          ⟨slot, fragmenter⟩).Booked origin [] books :=
        ⟨booked.intact, known.2⟩
      exact begun.idle (noted_of_silent rfl)

/-! ## Reassemblers -/

/-- What a reassembler holds is in hand when it is taken out of its place. -/
theorem Booked.unattended {index : Nat} {reassembler : Reassembler}
    (booked : session.Booked origin inHand books)
    (found : session.reassemblers.get? index = some reassembler) :
    (session.unattended index).Booked origin
      (inHand ++ reassembler.fragments) books := by
  refine booked.regroup ?_ rfl
  rw [List.append_assoc]
  exact (live_perm_of_reassembler found).append_left inHand

theorem Booked.attended {index : Nat} {reassembler : Reassembler}
    (booked : (session.unattended index).Booked origin
      (inHand ++ reassembler.fragments) books) :
    (session.attended index reassembler).Booked origin inHand books := by
  refine booked.regroup ?_ rfl
  rw [List.append_assoc]
  exact (live_attended_perm session index reassembler).symm.append_left inHand

theorem expire_noted {index now : Nat}
    (booked : session.Booked origin [] books) :
    LeavesNoted (carryOut (.expire index now)) session origin books
      (session.noted (.expire index now)) := by
  apply withReassembler_noted booked (noted_of_silent rfl)
  intro reassembler found
  have taken := booked.unattended found
  have swept : (reassembler.expire now session.pools).Satisfies _
      (fun _ _ => False) _ := taken.pools.expire_satisfies now
  apply SessionStep.Satisfies.bind (perform_leaves swept)
  intro result after ending
  obtain ⟨pools, rfl, known⟩ := ending
  match result with
  | .error error => exact known.elim
  | .ok (late, changed) =>
      obtain ⟨same, onBooks⟩ := known
      cases same
      have intact : ∀ part ∈ (reassembler.swept now).fragments,
          part.Intact := by
        intro part member
        apply taken.intact part
        apply List.mem_append_left _
        exact (reassembler.fragments_perm_swept now).mem_iff.mpr
          (List.mem_append_right _ member)
      have counting : session.counting? (.expire index now) =
          some reassembler.pool := by
        simp [counting?, found]
      have left : ((session.withPools pools).unattended index).Booked origin
          ([] ++ (reassembler.swept now).fragments) (books + allNoted
            reassembler.pool (Reassembler.timeouts
              (reassembler.late now))) := taken.handling intact onBooks
      refine SessionStep.Satisfies.changing (SessionStep.Satisfies.pure ?_)
      rw [noted_of_counting counting]
      exact left.attended

/-- The fragments of a reassembler that is emptied are off the books. -/
theorem Booked.clear_satisfies {reassembler : Reassembler}
    {choices : List Nat}
    (booked : session.Booked origin (inHand ++ reassembler.fragments)
      books) :
    (reassembler.clear choices session.pools).Satisfies
      (fun changed pools => changed = reassembler.cleared ∧
        (session.withPools pools).Booked origin inHand books)
      (fun _ _ => False) (fun _ => True) := by
  apply booked.pools.clear_satisfies.monoDone
  intro changed pools known
  have intact : ∀ packet ∈ inHand, packet.Intact := by
    intro packet member
    exact booked.intact packet
      (List.mem_append_left _ (List.mem_append_left _ member))
  have emptied : (session.withPools pools).Booked origin inHand
      (books + 0) := by
    apply booked.handling intact
    apply known.2.of_eq
    rw [alive_append inHand]
    abel
  exact ⟨known.1, emptied.of_eq (add_zero books)⟩

theorem clear_noted {index : Nat} {choices : List Nat}
    (booked : session.Booked origin [] books) :
    LeavesNoted (carryOut (.clear index choices)) session origin books
      (session.noted (.clear index choices)) := by
  apply withReassembler_noted booked (noted_of_silent rfl)
  intro reassembler found
  have taken := booked.unattended found
  have cleared : (reassembler.clear choices
      session.pools).Satisfies _ _ _ :=
    taken.clear_satisfies
  apply SessionStep.Satisfies.bind (perform_leaves cleared)
  intro result after ending
  obtain ⟨pools, rfl, known⟩ := ending
  cases result with
  | error error => exact known.elim
  | ok changed =>
      obtain ⟨rfl, emptied⟩ := known
      have left : ((session.withPools pools).unattended index).Booked origin
          ([] ++ reassembler.cleared.fragments) books := emptied
      exact left.attended.idle (noted_of_silent rfl)

theorem dropReassembler_noted {index : Nat} {choices : List Nat}
    (booked : session.Booked origin [] books) :
    LeavesNoted (carryOut (.dropReassembler index choices)) session origin
      books (session.noted (.dropReassembler index choices)) := by
  apply withReassembler_noted booked (noted_of_silent rfl)
  intro reassembler found
  have taken := booked.unattended found
  apply SessionStep.Satisfies.changing
  apply SessionStep.Satisfies.bind (perform_leaves taken.clear_satisfies)
  intro result after ending
  obtain ⟨pools, rfl, known⟩ := ending
  cases result with
  | error error => exact known.elim
  | ok changed => exact known.2.idle (noted_of_silent rfl)

/-- A new reassembler holds nothing, and what the one in its place held is
dropped. -/
theorem newReassembler_noted {pool : PoolId} {index : Nat}
    {choices : List Nat} (booked : session.Booked origin [] books) :
    LeavesNoted (carryOut (.newReassembler pool index choices)) session
      origin books (session.noted (.newReassembler pool index choices)) := by
  apply withPool_noted booked (noted_of_silent rfl)
  have made : (Reassembler.forPool pool session.pools).Satisfies
      (fun reassembler after => reassembler.fragments = [] ∧
        after = session.pools)
      (fun _ _ => False) (fun _ => True) :=
    Outcome.Satisfies.readPool (Outcome.Satisfies.pure ⟨rfl, rfl⟩)
  apply SessionStep.Satisfies.bind (perform_leaves made)
  intro result after ending
  obtain ⟨pools, rfl, known⟩ := ending
  cases result with
  | error error => exact known.elim
  | ok reassembler =>
      obtain ⟨holdsNothing, rfl⟩ := known
      refine SessionStep.Satisfies.get
        (SessionStep.Satisfies.changing ?_)
      change SessionStep.Satisfies _ (session.attended index reassembler) _ _
      have unchanged : (session.withPools session.pools).reassemblers =
        session.reassemblers := rfl
      rw [unchanged]
      have attend : ∀ {inHand : List Packet},
          (session.unattended index).Booked origin inHand books →
          (session.attended index reassembler).Booked origin inHand
            books := by
        intro inHand taken
        apply Booked.attended
        rw [holdsNothing, List.append_nil]
        exact taken
      cases found : session.reassemblers.get? index with
      | none =>
          rw [← unattended_of_absent found] at booked
          exact (attend booked).idle (noted_of_silent rfl)
      | some previous =>
          have taken := attend (booked.unattended found)
          apply SessionStep.Satisfies.bind
            (perform_leaves taken.clear_satisfies)
          intro result after ending
          obtain ⟨emptied, rfl, known⟩ := ending
          cases result with
          | error error => exact known.elim
          | ok changed =>
              exact known.2.idle (noted_of_silent rfl)

theorem noted_push {index source now slot deadline : Nat}
    {reassembler : Reassembler} {fragment : Packet}
    {number : Option UInt32} {answer : Except BufferError (Option Packet)}
    (found : session.reassemblers.get? index = some reassembler)
    (isFragment : session.packets.get? source = some fragment)
    (reading : reassembler.limits.timeout.after? now = some deadline) :
    session.noted (.push index source now slot) (.pushed number answer) =
      allNoted reassembler.pool (reassembler.notes
        (session.pools.get reassembler.pool).config.chaining fragment now
          deadline answer) := by
  have counting : session.counting? (.push index source now slot) =
      some reassembler.pool := by
    simp [counting?, found]
  rw [noted_of_counting counting]
  simp only [notes, pushNotes, found, isFragment, reading]

/-- What a reassembler delivers is filed; what it was handed is held or off
the books. -/
theorem push_noted {index source now slot : Nat}
    (booked : session.Booked origin [] books)
    (accounted : session.Accounted origin) :
    LeavesNoted (push index source now slot) session origin books
      (session.noted (.push index source now slot)) := by
  apply withReassembler_noted booked (noted_of_silent rfl)
  intro reassembler found
  apply withPacket_noted booked (noted_of_silent rfl)
  intro fragment isFragment
  have taken : (session.vacated source).Booked origin [fragment] books :=
    booked.regroup (live_perm_of_packet isFragment) rfl
  have handed := taken.unattended found
  have intact : fragment.Intact :=
    taken.intact fragment (List.mem_cons_self ..)
  have held : ∀ part ∈ reassembler.fragments, part.isReleased = false := by
    apply (accounted index reassembler found).2.held_of_intact
    intro part member
    exact handed.intact part
      (List.mem_append_left _ (List.mem_append_right _ member))
  have pushed : (reassembler.push fragment now
      (session.vacated source).pools).Satisfies _ _ _ :=
    (reassembler.push_decided fragment now).and
      (handed.pools.push_satisfies held intact)
  refine SessionStep.Satisfies.changing
    (SessionStep.Satisfies.bind (perform_leaves pushed) ?_)
  intro result after ending
  obtain ⟨pools, rfl, known⟩ := ending
  match result with
  | .error error => exact known.1.elim
  | .ok (answer, changed) =>
      obtain ⟨⟨_, _, same, _⟩, deadline, reading, delivered, onBooks⟩ := known
      dsimp only at same delivered onBooks
      have intactNow : ∀ packet ∈ Reassembler.delivered answer ++
          changed.fragments, packet.Intact := by
        intro packet member
        rcases List.mem_append.mp member with isDelivered | isHeld
        · exact (delivered packet isDelivered).intact
        · apply handed.intact packet
          apply List.mem_append_left _
          rw [same] at isHeld
          exact reassembler.fragments_judge_subset _ _ _ isHeld
      have left : (((session.vacated source).withPools pools).unattended
          index).Booked origin
            (Reassembler.delivered answer ++ changed.fragments)
            (books + session.noted (.push index source now slot)
              (.pushed (fragment.tag.map FragmentTag.datagram) answer)) := by
        apply handed.handling intactNow
        apply onBooks.of_eq
        rw [noted_push found isFragment reading, booked.pools.config_eq,
          alive_append _ changed.fragments,
          alive_append [fragment] reassembler.fragments, alive_cons,
          alive_nil]
        abel
      have answered := left.attended
      apply SessionStep.Satisfies.changing
      match answer with
      | .error error => exact SessionStep.Satisfies.pure answered
      | .ok none => exact SessionStep.Satisfies.pure answered
      | .ok (some packet) =>
          exact SessionStep.Satisfies.bind (keep_noted answered)
            fun _ _ bookedAfter => bookedAfter

/-- The packets that are reassembled are off the books, and what they make is
on them. -/
theorem reassemble_noted {pool : PoolId} {arrivals : List (Nat × Nat)}
    {slot deadline : Nat} {choices : List Nat}
    (booked : session.Booked origin [] books) :
    LeavesNoted (reassemble pool arrivals slot deadline choices) session
      origin books (session.noted
        (.reassemble pool arrivals slot deadline choices)) := by
  apply withPool_noted booked (noted_of_silent rfl)
  apply SessionStep.Satisfies.get
  cases found : session.packetsIn? (arrivals.map Prod.snd) with
  | none => exact booked.idle (noted_of_silent rfl)
  | some fragments =>
      have inSlots := found
      simp only [packetsIn?] at inSlots
      split at inSlots
      · rename_i nodup
        obtain ⟨sameLength, perm⟩ := live_perm_of_packets nodup inSlots
        have arrived : ((arrivals.map Prod.fst).zip fragments).map
            Prod.snd = fragments := by
          apply List.map_snd_zip
          simpa using Nat.le_of_eq sameLength
        have taken : (session.vacatedAll (arrivals.map Prod.snd)).Booked
            origin fragments books :=
          booked.regroup perm (pools_vacatedAll _ _)
        apply SessionStep.Satisfies.bind forM_vacate_satisfies
        intro _ _ vacated
        subst vacated
        have intact : ∀ arrival ∈ (arrivals.map Prod.fst).zip fragments,
            arrival.2.Intact := by
          intro arrival member
          exact taken.intact _
            (List.mem_append_left _ (List.of_mem_zip member).2)
        apply keepResult_noted taken
        apply (taken.pools.reassemble_satisfies intact).mono
        · intro packet after known
          refine ⟨known.1, known.2.of_eq ?_⟩
          rw [arrived, noted_of_counting rfl]
          simp only [notes, reassemblyNotes, found, booked.pools.config_eq]
        · intro error after refused
          apply refused.of_eq
          rw [arrived]
          rfl
        · exact fun _ known => known
      · cases inSlots

/-! ## All commands -/

/-- Whatever a command does, its answer is noted. -/
theorem carryOut_noted {command : Command}
    (booked : session.Booked origin [] books)
    (accounted : session.Accounted origin)
    (faithful : command.exchanges = false) :
    LeavesNoted (carryOut command) session origin books
      (session.noted command) := by
  cases command with
  | newPool =>
      have unchanged : ({ session with made := session.made + 1 } :
          Session).Booked origin [] books :=
        booked.regroup (List.Perm.refl _) rfl
      refine SessionStep.Satisfies.get (SessionStep.Satisfies.changing ?_)
      apply withPool_noted unchanged (noted_of_silent rfl)
      exact unchanged.idle (noted_of_silent rfl)
  | allocate pool len slot =>
      apply withPool_noted booked (noted_of_silent rfl)
      exact made_noted booked rfl (fun _ => rfl)
        fun before => before.allocate_satisfies pool len
  | packetFrom pool bytes slot =>
      apply withPool_noted booked (noted_of_silent rfl)
      exact made_noted booked rfl (fun _ => rfl)
        fun before => before.allocateWith_satisfies pool _ _
  | append slot bytes =>
      apply withPacket_noted booked (noted_of_silent rfl)
      intro packet found
      exact changed_noted booked found (by simp [counting?, found])
        (fun _ => rfl) fun before => before.append_satisfies packet bytes
  | release slot =>
      apply withPacket_noted booked (noted_of_silent rfl)
      intro packet found
      apply updateResult_noted booked found
      apply (booked.pools.release_satisfies packet).mono
      · intro husk after known
        obtain ⟨rfl, onBooks⟩ := known
        refine ⟨packet.intact_husk, onBooks.of_eq ?_⟩
        rw [noted_of_silent rfl, packet.lives_husk, add_zero, add_zero]
        rfl
      · intro error after refused
        have counting : session.counting? (.release slot) =
            some packet.pool := by
          simp [counting?, found]
        rw [noted_of_counting counting]
        exact refused
      · exact fun _ known => known
  | drop slot =>
      apply withPacket_noted booked (noted_of_silent rfl)
      intro packet found
      have taken : (session.vacated slot).Booked origin [packet] books :=
        booked.regroup (live_perm_of_packet found) rfl
      apply SessionStep.Satisfies.changing
      apply SessionStep.Satisfies.bind (discard_noted taken)
      exact fun _ _ bookedAfter => bookedAfter.idle (noted_of_silent rfl)
  | copy pool source slot =>
      apply withPool_noted booked (noted_of_silent rfl)
      apply withPacket_noted booked (noted_of_silent rfl)
      intro packet _
      exact made_noted booked rfl (fun _ => rfl)
        fun before => before.copyPacket_satisfies pool packet
  | receive pool frame slot =>
      apply withPool_noted booked (noted_of_silent rfl)
      apply SessionStep.Satisfies.get
      exact made_noted booked rfl (fun _ => rfl)
        fun before => before.receiveFrame_satisfies pool _
  | slices slot offset len =>
      apply withPacket_noted booked (noted_of_silent rfl)
      intro packet _
      cases packet.slices? offset len with
      | none => exact breakOff_noted .outOfRange
      | some pieces => exact booked.idle (noted_of_silent rfl)
  | readAt slot offset destination =>
      apply withPacket_noted booked (noted_of_silent rfl)
      intro packet _
      cases packet.readAt offset destination with
      | copied count destination =>
          exact booked.idle (noted_of_silent rfl)
      | refused error => exact booked.idle rfl
      | outOfRange => exact breakOff_noted .outOfRange
  | copyTo slot destination =>
      apply withPacket_noted booked (noted_of_silent rfl)
      exact fun _ _ => booked.idle (noted_of_silent rfl)
  | writeZone slot zone only bytes =>
      apply withPacket_noted booked (noted_of_silent rfl)
      intro packet found
      exact updated_noted booked found
        (packet.continues_writeZone zone only bytes) (noted_of_silent rfl)
  | swapFirst first second => cases faithful
  | writeFragmentHeader slot =>
      apply withPacket_noted booked (noted_of_silent rfl)
      intro packet found
      exact changed_noted booked found (by simp [counting?, found])
        (fun _ => rfl) fun before => before.writeFragmentHeader_satisfies packet
  | beginWalk pool slot mtu index => exact beginWalk_noted booked
  | nextFragment index slot =>
      cases splits : session.walkPool? index with
      | none =>
          rw [walkPool?, Option.map_eq_none_iff] at splits
          apply SessionStep.Satisfies.get
          rw [walk?, splits]
          exact booked.idle (noted_of_silent rfl)
      | some id =>
          have counting : session.counting? (.nextFragment index slot) =
            some id := splits
          apply (nextFragment_noted booked splits).monoDone
          intro reply after ending
          obtain ⟨_, ⟨rfl, same⟩ | ⟨result, rfl, bookedAfter⟩⟩ := ending
          · exact same.idle (noted_of_silent rfl)
          · rw [noted_of_counting counting]
            exact bookedAfter
  | collectFragments index slot max =>
      apply withWalk_noted booked (noted_of_silent rfl)
      intro walk found
      have splits := walkPool?_of_walk? found
      apply SessionStep.Satisfies.bind (collectFragments_noted booked splits)
      intro results after bookedAfter
      have counting : session.counting? (.collectFragments index slot max) =
        some walk.fragmenter.pool := splits
      apply SessionStep.Satisfies.pure
      rw [noted_of_counting counting]
      exact bookedAfter
  | resumeWalk index | restartWalk index | endWalk index =>
      apply withWalk_noted booked (noted_of_silent rfl)
      intro walk _
      have unchanged : ∀ walks, ({ session with walks } : Session).Booked
          origin [] books := fun _ => booked.regroup (List.Perm.refl _) rfl
      exact (unchanged _).idle (noted_of_silent rfl)
  | newReassembler pool index choices => exact newReassembler_noted booked
  | push index source now slot => exact push_noted booked accounted
  | expire index now => exact expire_noted booked
  | clear index choices => exact clear_noted booked
  | dropReassembler index choices => exact dropReassembler_noted booked
  | reassemble pool arrivals slot deadline choices =>
      exact reassemble_noted booked

end Session

end PooledPackets
