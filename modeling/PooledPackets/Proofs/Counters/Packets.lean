import PooledPackets.Fragment.Fragmenter
import PooledPackets.Proofs.Counters.Books
import PooledPackets.Proofs.Ownership.Joining
import PooledPackets.Proofs.Packets.Soundness

/-!
# Packets on the books

Every packet that is made is on the books of its pool until it is given back,
however that happens: it is released, dropped, or dropped because something
else was refused. An operation that is refused leaves nothing on the books but
a note of the refusal.
-/

namespace PooledPackets

open Operation Books

/-! ## Packets that are out -/

/-- A packet of a pool that was not released. -/
structure Packet.IsOut (packet : Packet) (id : PoolId) : Prop where
  held : packet.isReleased = false
  pool_eq : packet.pool = id

/-- A packet that nothing but its payload was changed of. -/
structure Packet.Continues (longer packet : Packet) : Prop where
  isReleased_eq : longer.isReleased = packet.isReleased
  pool_eq : longer.pool = packet.pool
  tag_eq : longer.tag = packet.tag

namespace Packet

variable {longer longest packet : Packet} {id : PoolId}

theorem IsOut.lives_eq (isOut : packet.IsOut id) :
    lives packet = entry id .packets :=
  lives_of_held isOut.held isOut.pool_eq

theorem IsOut.withTag (isOut : packet.IsOut id) (tag : Option FragmentTag) :
    (packet.withTag tag).IsOut id :=
  ⟨isOut.held, isOut.pool_eq⟩

namespace Continues

theorem refl (packet : Packet) : packet.Continues packet :=
  ⟨rfl, rfl, rfl⟩

theorem trans (further : longest.Continues longer)
    (first : longer.Continues packet) : longest.Continues packet where
  isReleased_eq := further.isReleased_eq.trans first.isReleased_eq
  pool_eq := further.pool_eq.trans first.pool_eq
  tag_eq := further.tag_eq.trans first.tag_eq

theorem lives_eq (continues : longer.Continues packet) :
    lives longer = lives packet := by
  rw [lives, lives, continues.isReleased_eq, continues.pool_eq]

theorem isOut (continues : longer.Continues packet)
    (isOut : packet.IsOut id) : longer.IsOut id :=
  ⟨continues.isReleased_eq.trans isOut.held,
    continues.pool_eq.trans isOut.pool_eq⟩

theorem of_write {written : Packet} {bytes : Bytes}
    (writing : packet.write bytes = .ok written) :
    written.Continues packet := by
  obtain ⟨sameChain, sameTag, samePool⟩ := write_keeps writing
  have sameLength := congrArg List.length sameChain
  rw [List.length_map, List.length_map] at sameLength
  refine ⟨?_, samePool, sameTag⟩
  rw [isReleased, isReleased, Bool.eq_iff_iff,
    List.isEmpty_iff_length_eq_zero, List.isEmpty_iff_length_eq_zero,
    sameLength]

theorem extend (held : packet.isReleased = false)
    (segments : List Segment) :
    (packet.extend segments).Continues packet := by
  refine ⟨?_, rfl, rfl⟩
  have nonempty := List.isEmpty_eq_false_iff.mp held
  rw [held]
  apply List.isEmpty_eq_false_iff.mpr
  exact List.append_ne_nil_of_left_ne_nil nonempty segments

end Continues

end Packet

namespace Pools.Booked

variable {pools origin : Pools} {books : Books} {id : PoolId}
variable {refused : BufferError → Pools → Prop}

/-! ## Segments leaving and coming back -/

theorem checkIn_satisfies (booked : pools.Booked origin books) (id : PoolId)
    (returned : List Returned) :
    (Pool.checkIn id returned pools).Satisfies
      (fun _ after => after.Booked origin books) refused
      (fun _ => True) := by
  apply Outcome.Satisfies.namesakes
  apply Outcome.Satisfies.readPool
  cases taken : Pool.takeBack (fun other => pools.sameNumber other id) id
    returned (pools.get id) with
  | error violation => trivial
  | ok restored =>
      have kept := Pool.takeBack_keeps taken
      exact booked.set kept.1 kept.2

theorem checkOut_satisfies (booked : pools.Booked origin books)
    (id : PoolId) (count : Nat) :
    (Pool.checkOut id count pools).Satisfies
      (fun segments after => segments.length = count ∧
        after.Booked origin books)
      (fun error after =>
        after.Booked origin (books + allNoted id error.notes))
      (fun _ => True) := by
  refine Outcome.Satisfies.readPool (Outcome.Satisfies.ite ?_ ?_)
  · intro _
    apply Outcome.Satisfies.bind (booked.countEvent_satisfies id .exhausted)
    intro _ after noted
    exact Outcome.Satisfies.fail (noted.of_eq (by simp [BufferError.notes]))
  · intro enough
    refine ⟨?_, booked.set rfl rfl⟩
    simp only [Pool.freeCount] at enough
    rw [List.length_take]
    omega

/-! ## Giving back -/

theorem giveBack_satisfies (booked : pools.Booked origin books)
    (packet : Packet) :
    (packet.giveBack pools).Satisfies
      (fun _ after =>
        after.Booked origin (books - entry packet.pool .packets))
      refused (fun _ => True) := by
  apply Outcome.Satisfies.bind (booked.checkIn_satisfies packet.pool _)
  intro _ after bookedAfter
  exact bookedAfter.countRelease_satisfies packet.pool

theorem drop_satisfies (booked : pools.Booked origin books)
    (packet : Packet) :
    (packet.drop pools).Satisfies
      (fun _ after => after.Booked origin (books - lives packet))
      refused (fun _ => True) := by
  refine Outcome.Satisfies.ite ?_ ?_
  · intro released
    apply Outcome.Satisfies.pure
    rw [lives_of_released released, sub_zero]
    exact booked
  · intro held
    rw [lives_of_held (eq_false_of_ne_true held) rfl]
    exact booked.giveBack_satisfies packet

theorem dropAll_satisfies (booked : pools.Booked origin books)
    (packets : List Packet) :
    (Packet.dropAll packets pools).Satisfies
      (fun _ after => after.Booked origin (books - alive packets))
      refused (fun _ => True) := by
  induction packets generalizing pools books with
  | nil => exact booked.of_eq (by simp)
  | cons packet rest inductionHypothesis =>
      apply Outcome.Satisfies.bind
        ((booked.drop_satisfies packet).holding fun _ _ _ => trivial)
      intro _ after bookedAfter
      apply (inductionHypothesis bookedAfter).monoDone
      intro _ last bookedLast
      exact bookedLast.of_eq (by rw [alive_cons]; abel)

theorem release_satisfies (booked : pools.Booked origin books)
    (packet : Packet) :
    (packet.release pools).Satisfies
      (fun husk after => husk = packet.husk ∧
        after.Booked origin (books - lives packet))
      (fun error after =>
        after.Booked origin (books + allNoted packet.pool error.notes))
      (fun _ => True) := by
  refine Outcome.Satisfies.ite ?_ ?_
  · intro _
    apply Outcome.Satisfies.bind
      (booked.countEvent_satisfies packet.pool .doubleRelease)
    intro _ after noted
    exact Outcome.Satisfies.fail (noted.of_eq (by simp [BufferError.notes]))
  · intro held
    rw [lives_of_held (eq_false_of_ne_true held) rfl]
    apply Outcome.Satisfies.bind (booked.giveBack_satisfies packet)
    exact fun _ _ bookedAfter => Outcome.Satisfies.pure ⟨rfl, bookedAfter⟩

/-! ## Making packets -/

theorem check_satisfies (booked : pools.Booked origin books)
    (packet : Packet) :
    (packet.check pools).Satisfies (fun _ after => after.Booked origin books)
      refused (fun _ => True) := by
  refine Outcome.Satisfies.readPool (Outcome.Satisfies.ite ?_ fun _ => booked)
  intro _
  cases packet.disagreement? (pools.get packet.pool).layout.maxPayload with
  | none => exact booked
  | some violation => trivial

theorem assemble_satisfies (booked : pools.Booked origin books)
    (id : PoolId) {segments : List Segment} (nonempty : segments ≠ []) :
    (Packet.assemble id segments pools).Satisfies
      (fun packet after => packet.IsOut id ∧ after.Booked origin books)
      refused (fun _ => True) := by
  apply Outcome.Satisfies.bind
    ((booked.check_satisfies (Packet.ofSegments id segments)).holding
      fun _ _ _ => trivial)
  intro _ after bookedAfter
  refine Outcome.Satisfies.pure ⟨⟨?_, rfl⟩, bookedAfter⟩
  exact List.isEmpty_eq_false_iff.mpr nonempty

theorem allocate_satisfies (booked : pools.Booked origin books)
    (id : PoolId) (len : Nat) :
    (Pool.allocate id len pools).Satisfies
      (fun packet after => packet.IsOut id ∧
        after.Booked origin (books + entry id .packets))
      (fun error after =>
        after.Booked origin (books + allNoted id error.notes))
      (fun _ => True) := by
  refine Outcome.Satisfies.readPool (Outcome.Satisfies.ite ?_ ?_)
  · intro _
    apply Outcome.Satisfies.bind (booked.countEvent_satisfies id .oversized)
    intro _ after noted
    exact Outcome.Satisfies.fail (noted.of_eq (by simp [BufferError.notes]))
  · intro _
    apply Outcome.Satisfies.bind (booked.checkOut_satisfies id _)
    intro segments after known
    obtain ⟨counted, bookedAfter⟩ := known
    apply Outcome.Satisfies.bind (bookedAfter.countAllocation_satisfies id)
    intro _ last bookedLast
    apply bookedLast.assemble_satisfies id
    apply List.ne_nil_of_length_pos
    rw [counted]
    exact (pools.get id).layout.segmentsFor_pos len

/-! ## Adding bytes -/

theorem makeRoom_satisfies (booked : pools.Booked origin books)
    {packet : Packet} (held : packet.isReleased = false) (count : Nat) :
    (packet.makeRoom count pools).Satisfies
      (fun roomy after => roomy.Continues packet ∧
        after.Booked origin books)
      (fun error after =>
        after.Booked origin (books + allNoted packet.pool error.notes))
      (fun _ => True) := by
  refine Outcome.Satisfies.ite ?_ ?_
  · exact fun _ => Outcome.Satisfies.pure ⟨.refl packet, booked⟩
  · intro _
    refine Outcome.Satisfies.readPool (Outcome.Satisfies.ite ?_ ?_)
    · intro _
      apply Outcome.Satisfies.bind (booked.checkOut_satisfies packet.pool _)
      intro segments after known
      exact Outcome.Satisfies.pure ⟨.extend held segments, known.2⟩
    · intro _
      apply Outcome.Satisfies.bind
        (booked.countEvent_satisfies packet.pool .oversized)
      intro _ after noted
      exact Outcome.Satisfies.fail
        (noted.of_eq (by simp [BufferError.notes]))

theorem append_satisfies (booked : pools.Booked origin books)
    (packet : Packet) (bytes : Bytes) :
    (packet.append bytes pools).Satisfies
      (fun longer after => longer.Continues packet ∧
        after.Booked origin books)
      (fun error after =>
        after.Booked origin (books + allNoted packet.pool error.notes))
      (fun _ => True) := by
  refine Outcome.Satisfies.ite ?_ ?_
  · exact fun _ => Outcome.Satisfies.fail
      (booked.of_eq (by simp [BufferError.notes]))
  · intro held
    refine Outcome.Satisfies.ite ?_ ?_
    · exact fun _ => Outcome.Satisfies.pure ⟨.refl packet, booked⟩
    · intro _
      apply Outcome.Satisfies.bind
        (booked.makeRoom_satisfies (eq_false_of_ne_true held) bytes.length)
      intro roomy after known
      obtain ⟨continues, bookedAfter⟩ := known
      cases writing : roomy.write bytes with
      | error violation => trivial
      | ok written =>
          apply Outcome.Satisfies.bind (bookedAfter.check_satisfies written)
          intro _ last bookedLast
          exact Outcome.Satisfies.pure
            ⟨(Packet.Continues.of_write writing).trans continues, bookedLast⟩

/-- Byte strings that are refused leave nothing behind of what was in hand. -/
theorem appendAll_satisfies (booked : pools.Booked origin books)
    {inHand : Packet → List Packet} (extra : List Packet)
    (owns : ∀ packet, (inHand packet).Perm (packet :: extra))
    (packet : Packet) (pieces : List Bytes) :
    (packet.appendAll inHand pieces pools).Satisfies
      (fun longer after => longer.Continues packet ∧
        after.Booked origin books)
      (fun error after => after.Booked origin (books -
        alive (packet :: extra) + allNoted packet.pool error.notes))
      (fun _ => True) := by
  induction pieces generalizing packet pools with
  | nil => exact ⟨.refl packet, booked⟩
  | cons bytes rest inductionHypothesis =>
      refine Outcome.Satisfies.bind (((booked.append_satisfies packet
        bytes).holding fun _ _ _ => trivial).onFailure ?_) ?_
      · intro error after noted
        apply (noted.dropAll_satisfies (inHand packet)).monoDone
        intro _ last bookedLast
        apply bookedLast.of_eq
        rw [alive_perm (owns packet)]
        abel
      · intro longer after known
        obtain ⟨continues, bookedAfter⟩ := known
        apply (inductionHypothesis bookedAfter longer).mono
        · intro longest last ending
          exact ⟨ending.1.trans continues, ending.2⟩
        · intro error last noted
          rw [alive_cons, continues.lives_eq, continues.pool_eq,
            ← alive_cons] at noted
          exact noted
        · exact fun _ known => known

theorem allocateWith_satisfies (booked : pools.Booked origin books)
    (id : PoolId) (len : Nat) (pieces : List Bytes) :
    (Pool.allocateWith id len pieces pools).Satisfies
      (fun packet after => packet.IsOut id ∧
        after.Booked origin (books + entry id .packets))
      (fun error after =>
        after.Booked origin (books + allNoted id error.notes))
      (fun _ => True) := by
  apply Outcome.Satisfies.bind (booked.allocate_satisfies id len)
  intro blank after known
  obtain ⟨isOut, bookedBlank⟩ := known
  apply (bookedBlank.appendAll_satisfies [] (fun packet => .refl [packet])
    blank pieces).mono
  · exact fun packet last ending => ⟨ending.1.isOut isOut, ending.2⟩
  · intro error last noted
    apply noted.of_eq
    rw [alive_cons, alive_nil, isOut.lives_eq, isOut.pool_eq]
    abel
  · exact fun _ known => known

theorem copyPacket_satisfies (booked : pools.Booked origin books)
    (id : PoolId) (packet : Packet) :
    (Pool.copyPacket id packet pools).Satisfies
      (fun copy after => copy.IsOut id ∧
        after.Booked origin (books + entry id .packets))
      (fun error after =>
        after.Booked origin (books + allNoted id error.notes))
      (fun _ => True) := by
  refine Outcome.Satisfies.ite ?_ fun _ => ?_
  · exact fun _ => Outcome.Satisfies.fail
      (booked.of_eq (by simp [BufferError.notes]))
  · apply Outcome.Satisfies.bind (booked.allocateWith_satisfies id _ _)
    intro copy after known
    exact Outcome.Satisfies.pure ⟨known.1.withTag _, known.2⟩

theorem receiveFrame_satisfies (booked : pools.Booked origin books)
    (id : PoolId) (frame : Bytes) :
    (Pool.receiveFrame id frame pools).Satisfies
      (fun fragment after => fragment.IsOut id ∧
        after.Booked origin (books + entry id .packets))
      (fun error after =>
        after.Booked origin (books + allNoted id error.notes))
      (fun _ => True) := by
  apply Outcome.Satisfies.readPool
  apply Outcome.Satisfies.ofExcept
  · intro error isError
    have silent : error.notes = [] := by
      unfold FragmentHeader.decode at isError
      split at isError
      · cases isError
      · cases isError
        rfl
    exact booked.of_eq (by simp [silent])
  · intro header _
    apply Outcome.Satisfies.bind (booked.allocateWith_satisfies id _ _)
    intro packet after known
    exact Outcome.Satisfies.pure ⟨known.1.withTag _, known.2⟩

theorem writeFragmentHeader_satisfies (booked : pools.Booked origin books)
    (packet : Packet) :
    (packet.writeFragmentHeader pools).Satisfies
      (fun stamped after => stamped.Continues packet ∧
        after.Booked origin books)
      (fun error after =>
        after.Booked origin (books + allNoted packet.pool error.notes))
      (fun _ => True) := by
  -- None of the refusals is of a kind that is counted.
  have refuse : ∀ {error : BufferError}, error.notes = [] →
      (Operation.fail error pools : Outcome Packet).Satisfies
        (fun stamped after => stamped.Continues packet ∧
          after.Booked origin books)
        (fun error after =>
          after.Booked origin (books + allNoted packet.pool error.notes))
        (fun _ => True) :=
    fun silent => Outcome.Satisfies.fail (booked.of_eq (by simp [silent]))
  unfold Packet.writeFragmentHeader
  cases tagged : packet.tag with
  | none => exact refuse rfl
  | some tag =>
      refine Outcome.Satisfies.readPool
        (Outcome.Satisfies.ite (fun _ => refuse rfl) fun _ => ?_)
      apply Outcome.Satisfies.ofExcept
      · intro error isError
        unfold FragmentTag.toHeader at isError
        split at isError
        · cases isError
        · cases isError
          exact refuse rfl
      · intro header _
        cases chained : packet.chain with
        | nil => exact refuse rfl
        | cons first rest =>
            dsimp only
            cases first.writeHeaderEnd?
                (header.encode (pools.get packet.pool).config.byteOrder) with
            | none => trivial
            | some stamped =>
                refine Outcome.Satisfies.pure
                  ⟨⟨?_, rfl, tagged.symm⟩, booked⟩
                simp [Packet.isReleased, chained]

end Pools.Booked

/-! ## Fragments -/

namespace Fragmenter

/-- The fragment that was made, if one was. -/
def made : Option (Except BufferError Packet) → List Packet
  | some (.ok fragment) => [fragment]
  | _ => []

/-- What there is to note of a fragment. -/
def notes : Option (Except BufferError Packet) → List Note
  | none => []
  | some (.ok _) => [.event .fragment]
  | some (.error error) => error.notes

end Fragmenter

namespace Pools.Booked

variable {pools origin : Pools} {books : Books} {id : PoolId}

theorem fragmentForLink_satisfies (booked : pools.Booked origin books)
    (id : PoolId) (packet : Packet) (mtu : Nat) :
    (Pool.fragmentForLink id packet mtu pools).Satisfies
      (fun fragmenter after => fragmenter.source = packet ∧
        after.Booked origin books)
      (fun error after =>
        after.Booked origin (books + allNoted id error.notes))
      (fun _ => True) := by
  have refuse : ∀ {error : BufferError}, error.notes = [] →
      pools.Booked origin (books + allNoted id error.notes) :=
    fun silent => booked.of_eq (by simp [silent])
  refine Outcome.Satisfies.ite (fun _ => refuse rfl) fun _ => ?_
  refine Outcome.Satisfies.ite (fun _ => refuse rfl) fun _ => ?_
  refine Outcome.Satisfies.readPool
    (Outcome.Satisfies.ite (fun _ => refuse rfl) fun _ => ?_)
  exact ⟨rfl, booked.set rfl rfl⟩

variable {fragmenter : Fragmenter}

theorem build_satisfies (booked : pools.Booked origin books) (len : Nat) :
    (fragmenter.build len pools).Satisfies
      (fun fragment after => fragment.IsOut fragmenter.pool ∧
        after.Booked origin (books + entry fragmenter.pool .packets))
      (fun error after => after.Booked origin
        (books + allNoted fragmenter.pool error.notes))
      (fun _ => True) := by
  unfold Fragmenter.build
  cases fragmenter.source.slices? fragmenter.offset len with
  | none =>
      apply Outcome.Satisfies.bind (booked.allocate_satisfies _ len)
      exact fun _ _ _ => trivial
  | some pieces =>
      apply Outcome.Satisfies.bind (booked.allocateWith_satisfies _ len _)
      intro fragment after known
      exact Outcome.Satisfies.pure ⟨known.1.withTag _, known.2⟩

theorem next_satisfies (booked : pools.Booked origin books)
    {refused : BufferError → Pools → Prop} :
    (fragmenter.next pools).Satisfies
      (fun result after =>
        result.2.source = fragmenter.source ∧
        result.2.pool = fragmenter.pool ∧
        (∀ fragment ∈ Fragmenter.made result.1,
          fragment.IsOut fragmenter.pool) ∧
        after.Booked origin (books + alive (Fragmenter.made result.1) +
          allNoted fragmenter.pool (Fragmenter.notes result.1)))
      refused (fun _ => True) := by
  refine Outcome.Satisfies.ite ?_ fun _ => ?_
  · refine fun _ => Outcome.Satisfies.pure ⟨rfl, rfl, ?_, ?_⟩
    · simp [Fragmenter.made]
    · exact booked.of_eq (by simp [Fragmenter.made, Fragmenter.notes])
  · apply Outcome.Satisfies.bind
      (booked.build_satisfies _).attempt.neverRefused
    intro result after known
    cases result with
    | error error =>
        refine Outcome.Satisfies.pure ⟨rfl, rfl, ?_, ?_⟩
        · simp [Fragmenter.made]
        · exact known.of_eq (by simp [Fragmenter.made, Fragmenter.notes])
    | ok fragment =>
        obtain ⟨isOut, bookedAfter⟩ := known
        apply Outcome.Satisfies.bind
          (bookedAfter.countEvent_satisfies fragmenter.pool .fragment)
        intro _ last noted
        refine Outcome.Satisfies.pure ⟨rfl, rfl, ?_, ?_⟩
        · simpa [Fragmenter.made] using isOut
        · apply noted.of_eq
          simp [Fragmenter.made, Fragmenter.notes, isOut.lives_eq]

end Pools.Booked

/-! ## Joining -/

/-- What there is to note of joined fragments: where they were linked, only one
of the packets is left. -/
def Reassembly.notes (chaining : Bool) (id : PoolId)
    (fragments : List Packet) : List Note :=
  if chaining && fragments.all (fun fragment => fragment.pool == id) then
    [.joined fragments.length]
  else []

namespace Pools.Booked

variable {pools origin : Pools} {books : Books} {id : PoolId}
variable {fragments : List Packet}

/-- Of linked packets one is left. -/
theorem splice_satisfies (booked : pools.Booked origin books)
    (nonempty : fragments ≠ [])
    (held : ∀ fragment ∈ fragments, fragment.isReleased = false)
    {refused : BufferError → Pools → Prop} :
    (Reassembly.splice id fragments pools).Satisfies
      (fun packet after => packet.IsOut id ∧ after.Booked origin books)
      refused (fun _ => True) := by
  apply Outcome.Satisfies.bind (booked.checkIn_satisfies id _)
  intro _ after bookedAfter
  apply bookedAfter.assemble_satisfies id
  apply Reassembly.sortOut_ne_nil
  obtain ⟨first, isFirst⟩ := List.exists_mem_of_ne_nil _ nonempty
  intro nothing
  have segments := List.isEmpty_eq_false_iff.mp (held first isFirst)
  exact segments (List.flatMap_eq_nil_iff.mp nothing first isFirst)

theorem copyInto_satisfies (booked : pools.Booked origin books)
    (packet : Packet) (fragments : List Packet) :
    (Reassembly.copyInto packet fragments pools).Satisfies
      (fun longer after => longer.Continues packet ∧
        after.Booked origin (books - alive fragments))
      (fun error after => after.Booked origin (books -
        alive (packet :: fragments) + allNoted packet.pool error.notes))
      (fun _ => True) := by
  induction fragments generalizing packet pools books with
  | nil => exact ⟨.refl packet, booked.of_eq (by simp)⟩
  | cons fragment rest inductionHypothesis =>
      apply Outcome.Satisfies.bind (booked.appendAll_satisfies
        (fragment :: rest) (fun _ => List.perm_append_comm) packet
          fragment.chunks)
      intro longer after known
      obtain ⟨continues, bookedAfter⟩ := known
      apply Outcome.Satisfies.bind
        ((bookedAfter.drop_satisfies fragment).holding fun _ _ _ => trivial)
      intro _ between bookedBetween
      apply (inductionHypothesis bookedBetween longer).mono
      · intro longest last ending
        refine ⟨ending.1.trans continues, ending.2.of_eq ?_⟩
        rw [alive_cons]
        abel
      · intro error last noted
        apply noted.of_eq
        rw [alive_cons, alive_cons, alive_cons, continues.lives_eq,
          continues.pool_eq]
        abel
      · exact fun _ known => known

theorem copy_satisfies (booked : pools.Booked origin books) (total : Nat)
    {own : Bool} (nonempty : fragments ≠ [])
    (held : ∀ fragment ∈ fragments, fragment.isReleased = false)
    (isOwn : own = true → ∀ fragment ∈ fragments, fragment.pool = id) :
    (Reassembly.copy id total own fragments pools).Satisfies
      (fun packet after => packet.IsOut id ∧
        after.Booked origin (books - alive fragments + entry id .packets))
      (fun error after => after.Booked origin
        (books - alive fragments + allNoted id error.notes))
      (fun _ => True) := by
  cases fragments with
  | nil => exact absurd rfl nonempty
  | cons first rest =>
      refine Outcome.Satisfies.ite (fun linked => ?_) fun _ => ?_
      · have firstOut : (first.withTag none).IsOut id :=
          ⟨held first (List.mem_cons_self ..),
            isOwn linked first (List.mem_cons_self ..)⟩
        have same : lives first = entry id .packets := firstOut.lives_eq
        apply (booked.copyInto_satisfies _ rest).mono
        · intro packet after known
          refine ⟨known.1.isOut firstOut, known.2.of_eq ?_⟩
          rw [alive_cons, same]
          abel
        · intro error after noted
          apply noted.of_eq
          rw [alive_cons, alive_cons, firstOut.lives_eq, firstOut.pool_eq,
            same]
        · exact fun _ known => known
      · refine Outcome.Satisfies.bind
          ((booked.allocate_satisfies id total).onFailure ?_) ?_
        · intro error after noted
          apply (noted.dropAll_satisfies (first :: rest)).monoDone
          intro _ last bookedLast
          exact bookedLast.of_eq (by abel)
        · intro packet after known
          obtain ⟨isOut, bookedAfter⟩ := known
          refine Outcome.Satisfies.bind ((bookedAfter.appendAll_satisfies
            (first :: rest) (fun packet => .refl _) packet
              first.chunks).monoRefused ?_) ?_
          · intro error last noted
            apply noted.of_eq
            rw [alive_cons, isOut.lives_eq, isOut.pool_eq]
            abel
          · intro filled between known
            obtain ⟨continues, bookedBetween⟩ := known
            apply Outcome.Satisfies.bind
              ((bookedBetween.drop_satisfies first).holding
                fun _ _ _ => trivial)
            intro _ last bookedLast
            apply (bookedLast.copyInto_satisfies filled rest).mono
            · intro longest final ending
              refine ⟨(ending.1.trans continues).isOut isOut,
                ending.2.of_eq ?_⟩
              rw [alive_cons]
              abel
            · intro error final noted
              apply noted.of_eq
              have filledOut := continues.isOut isOut
              rw [alive_cons, alive_cons, filledOut.lives_eq,
                filledOut.pool_eq]
              abel
            · exact fun _ known => known

/-- Joined fragments are off the books; the packet that they make is on them. -/
theorem join_satisfies (booked : pools.Booked origin books)
    {assembly : Assembly} (nonempty : assembly.fragments ≠ [])
    (held : ∀ fragment ∈ assembly.fragments, fragment.isReleased = false) :
    (Reassembly.join id assembly pools).Satisfies
      (fun packet after => packet.IsOut id ∧
        after.Booked origin (books - alive assembly.fragments +
          lives packet + allNoted id (.event .delivered ::
            Reassembly.notes (origin.get id).config.chaining id
              assembly.fragments)))
      (fun error after => after.Booked origin
        (books - alive assembly.fragments + allNoted id error.notes))
      (fun _ => True) := by
  have sameConfig := booked.config_eq id
  have isOwn : assembly.fragments.all (fun fragment => fragment.pool == id) =
      true → ∀ fragment ∈ assembly.fragments, fragment.pool = id := by
    intro all fragment member
    simpa using List.all_eq_true.mp all fragment member
  apply Outcome.Satisfies.namesakes_of_distinct booked.distinct
  refine Outcome.Satisfies.readPool (Outcome.Satisfies.ite ?_ ?_)
  · intro linked
    have all := (Bool.and_eq_true _ _ ▸ linked : _ ∧ _).2
    apply Outcome.Satisfies.bind (booked.splice_satisfies nonempty held)
    intro packet after known
    apply Outcome.Satisfies.bind (known.2.countEvent_satisfies id .delivered)
    intro _ last noted
    refine Outcome.Satisfies.pure ⟨known.1, noted.of_eq ?_⟩
    rw [sameConfig] at linked
    rw [Reassembly.notes, if_pos linked, known.1.lives_eq,
      alive_of_held held (isOwn all), allNoted_cons, allNoted_cons,
      allNoted_nil]
    simp only [Books.noted]
    abel
  · intro notLinked
    apply Outcome.Satisfies.bind (booked.copy_satisfies assembly.received
      nonempty held isOwn)
    intro packet after known
    apply Outcome.Satisfies.bind (known.2.countEvent_satisfies id .delivered)
    intro _ last noted
    refine Outcome.Satisfies.pure ⟨known.1, noted.of_eq ?_⟩
    rw [sameConfig] at notLinked
    rw [Reassembly.notes, if_neg notLinked, known.1.lives_eq, allNoted_cons,
      allNoted_nil]
    abel

end Pools.Booked

end PooledPackets
