import PooledPackets.Proofs.Contents.Histories
import PooledPackets.Proofs.RelatedTables
import PooledPackets.Proofs.Reassembly.Tiling
import PooledPackets.Proofs.Sessions.Holdings

/-!
# Histories of gathered fragments

A packet that is put together from fragments has their payloads, in the order
of their offsets. Which fragments it takes to make a datagram whole can be told
from their histories alone.
-/

namespace PooledPackets

namespace History

/-- The payload of fragments in the order of their offsets. -/
def spelled (parts : Table History) : Bytes :=
  parts.values.flatMap bytes

/-- Whether a fragment is the last one of its datagram. -/
def isLast (history : History) : Bool :=
  history.tag.any fun tag => !tag.moreFragments

/-- Whether the fragments held for a datagram have as many bytes as there are
up to the end of the last of them. -/
def isWhole (parts : Table History) : Bool :=
  parts.entries.any fun entry =>
    entry.2.isLast &&
      entry.1 + entry.2.bytes.length == (spelled parts).length

/-- What is held for each datagram once a fragment was added to its own. -/
def including (held : Nat → Table History) (history : History) :
    Nat → Table History :=
  match history.tag with
  | none => held
  | some tag =>
      Function.update held tag.datagram.toNat
        ((held tag.datagram.toNat).insert tag.offset history)

/-- The payload of the first datagram that is whole when fragments come one
after the other. -/
def gather (held : Nat → Table History) : List History → Bytes
  | [] => []
  | history :: later =>
      match history.tag with
      | none => []
      | some tag =>
          let now := including held history
          if isWhole (now tag.datagram.toNat) then
            spelled (now tag.datagram.toNat)
          else gather now later

theorem including_of_tag {history : History} {tag : FragmentTag}
    (tagged : history.tag = some tag) (held : Nat → Table History) :
    including held history = Function.update held tag.datagram.toNat
      ((held tag.datagram.toNat).insert tag.offset history) := by
  rw [including, tagged]

end History

/-- Fragments that are held and their histories, by offset. -/
abbrev HeldAs (held : Table Packet) (parts : Table History) : Prop :=
  held.Related Packet.Matches parts

namespace HeldAs

variable {held : Table Packet} {parts : Table History}

theorem spelling_eq (heldAs : HeldAs held parts) :
    Reassembly.spelling held.values = History.spelled parts := by
  unfold HeldAs Table.Related at heldAs
  rw [Table.values, History.spelled, Table.values]
  generalize held.entries = entries, parts.entries = others at heldAs ⊢
  induction heldAs with
  | nil => rfl
  | cons first _ inductionHypothesis =>
      rw [List.map_cons, List.map_cons, Reassembly.spelling_cons,
        List.flatMap_cons, first.2.bytes_eq, inductionHypothesis]

end HeldAs

namespace Assembly

variable {assembly : Assembly} {parts : Table History}

/-- Whether a datagram is complete can be told from the histories of its
fragments. -/
theorem Accounted.isComplete_eq {datagram holdLimit : Nat}
    (accounted : assembly.Accounted datagram holdLimit)
    (sound : ∀ fragment ∈ assembly.fragments, fragment.Sound)
    (heldAs : HeldAs assembly.held parts) :
    assembly.isComplete = History.isWhole parts := by
  have filled : ∀ entry ∈ assembly.held.entries,
      entry.2.toBytes.length = entry.2.length :=
    fun entry member =>
      (sound entry.2 (List.mem_map_of_mem member)).length_toBytes
  have received : assembly.received = (History.spelled parts).length := by
    rw [← heldAs.spelling_eq, accounted.received_eq]
    exact (length_spelling filled).symm
  have complete : assembly.isComplete = true ↔
      ∃ entry ∈ assembly.held.entries, IsLast entry ∧
        stopOf entry = assembly.received := by
    rw [isComplete, beq_iff_eq]
    exact accounted.total_eq _
  have tested : (assembly.held.entries.any fun entry =>
      (entry.2.tag.any fun tag => !tag.moreFragments) &&
        entry.1 + entry.2.length == (History.spelled parts).length) =
      History.isWhole parts := by
    apply Table.Related.any_eq heldAs
    intro entry member other same
    obtain ⟨sameNumber, told⟩ := same
    rw [← filled entry member, told.bytes_eq, told.tag_eq, sameNumber]
    rfl
  -- Both sides now ask for a last fragment that ends where the bytes end.
  rw [← tested, Bool.eq_iff_iff, complete, List.any_eq_true, received]
  simp [IsLast, stopOf, Option.any_eq_true]

end Assembly

/-- Joined fragments have come to the payload that their histories spell. -/
theorem Packet.Joined.matches {packet : Packet} {id : PoolId}
    {assembly : Assembly} {datagram holdLimit : Nat} {parts : Table History}
    (joined : packet.Joined .never id assembly.fragments)
    (accounted : assembly.Accounted datagram holdLimit)
    (nonempty : assembly.fragments ≠ [])
    (heldAs : HeldAs assembly.held parts) :
    packet.Matches (.made (History.spelled parts) none) := by
  have held : ∀ fragment ∈ assembly.fragments, fragment.chain ≠ [] := by
    intro fragment member
    obtain ⟨entry, isHeld, rfl⟩ := List.mem_map.mp member
    obtain ⟨tag, tagged, _⟩ := accounted.tagged entry isHeld
    obtain ⟨other, _, _, told⟩ := Table.Related.exists_of_mem heldAs isHeld
    exact told.held_of_tag tagged
  apply Packet.Matches.made (joined.held nonempty held) ?_ joined.tag_eq
  exact (joined.spelled rfl).trans heldAs.spelling_eq

namespace Reassembler

/-- What a reassembler holds and the histories of it, datagram by datagram. -/
def HoldsAs (reassembler : Reassembler) (held : Nat → Table History) : Prop :=
  ∀ datagram, HeldAs (reassembler.heldFor datagram) (held datagram)

variable {reassembler changed : Reassembler} {fragment packet : Packet}
variable {history : History} {tag : FragmentTag} {longer : Assembly}
variable {held : Nat → Table History} {now deadline : Nat} {pools : Pools}

/-- An added fragment stands at its offset. -/
theorem HoldsAs.insert (holdsAs : reassembler.HoldsAs held)
    (told : fragment.Matches history) (tagged : fragment.tag = some tag)
    (inserting : (reassembler.assemblyFor tag.datagram.toNat
      deadline).insert tag fragment reassembler.limits.holdLimit =
        .ok longer) :
    HeldAs longer.held
      (History.including held history tag.datagram.toNat) := by
  obtain ⟨_, _, _, rfl⟩ := Assembly.insert_eq_ok_iff.mp inserting
  rw [Assembly.held_place, held_assemblyFor,
    History.including_of_tag (told.tag_eq ▸ tagged), Function.update_self]
  exact Table.Related.insert (holdsAs _) told tag.offset

theorem HoldsAs.having (holdsAs : reassembler.HoldsAs held)
    (tagged : history.tag = some tag)
    (heldAs : HeldAs longer.held
      (History.including held history tag.datagram.toNat)) :
    (reassembler.having tag.datagram.toNat longer).HoldsAs
      (History.including held history) := by
  intro datagram
  rw [heldFor, Reassembler.having, Table.get?_insert]
  by_cases isDatagram : datagram = tag.datagram.toNat
  · rw [if_pos isDatagram, isDatagram]
    exact heldAs
  · rw [if_neg isDatagram, History.including_of_tag tagged,
      Function.update_of_ne isDatagram]
    exact holdsAs datagram

section

variable (accounted : reassembler.Accounted)
variable (sound : ∀ part ∈ fragment :: reassembler.fragments, part.Sound)
variable (holdsAs : reassembler.HoldsAs held)
variable (told : fragment.Matches history)
include accounted sound holdsAs told

/-- Whether a fragment makes its datagram complete can be told from the
histories. -/
theorem isComplete_of_insert (tagged : fragment.tag = some tag)
    (inserting : (reassembler.assemblyFor tag.datagram.toNat
      deadline).insert tag fragment reassembler.limits.holdLimit =
        .ok longer) :
    longer.isComplete = History.isWhole
      (History.including held history tag.datagram.toNat) := by
  apply ((accounted.assemblyFor _ deadline).insert tagged rfl
    inserting).isComplete_eq ?_ (holdsAs.insert told tagged inserting)
  intro part member
  have grown := Assembly.fragments_of_insert inserting
  rw [reassembler.fragments_assemblyFor] at grown
  apply sound part
  rcases List.mem_cons.mp (grown.mem_iff.mp member) with rfl | wasHeld
  · exact List.mem_cons_self ..
  · exact .tail _ (reassembler.fragmentsFor_subset _ wasHeld)

/-- A packet that is delivered has come to what the histories of its fragments
spell. -/
theorem Answers.matches (answers : reassembler.Answers .never pools fragment
      now deadline (.ok (some packet), changed)) :
    ∃ tag, history.tag = some tag ∧
      History.isWhole
        (History.including held history tag.datagram.toNat) = true ∧
      packet.Matches (.made (History.spelled
        (History.including held history tag.datagram.toNat)) none) := by
  have verdict := reassembler.judged fragment now deadline
  have fits := answers.fits
  have ending := answers.ending
  generalize reassembler.judge fragment now deadline = decided
    at verdict fits ending
  cases verdict with
  | untagged _ => cases fits
  | refused error _ => cases fits
  | waiting _ _ _ _ => cases fits
  | @whole tag longer tagged inserting complete =>
      obtain ⟨before, _, joined⟩ := ending longer rfl
      refine ⟨tag, told.tag_eq ▸ tagged, ?_, ?_⟩
      · rw [← isComplete_of_insert accounted sound holdsAs told tagged
          inserting]
        exact complete
      · apply Packet.Joined.matches joined
          ((accounted.assemblyFor _ deadline).insert tagged rfl inserting) ?_
          (holdsAs.insert told tagged inserting)
        have grown := Assembly.fragments_of_insert inserting
        intro nothing
        simp [nothing] at grown

/-- A fragment after which its datagram is still incomplete is held like the
others. -/
theorem Answers.waits (answers : reassembler.Answers .never pools fragment
      now deadline (.ok none, changed)) :
    ∃ tag longer, history.tag = some tag ∧
      History.isWhole
        (History.including held history tag.datagram.toNat) = false ∧
      (reassembler.assemblyFor tag.datagram.toNat deadline).insert tag
        fragment reassembler.limits.holdLimit = .ok longer ∧
      changed = (reassembler.roomy tag.datagram.toNat now).having
        tag.datagram.toNat longer := by
  have verdict := reassembler.judged fragment now deadline
  have fits := answers.fits
  have same := answers.state_eq
  generalize reassembler.judge fragment now deadline = decided
    at verdict fits same
  cases verdict with
  | untagged _ => cases fits
  | refused error _ => cases fits
  | whole _ _ _ => exact absurd rfl fits
  | @waiting tag longer tagged inserting incomplete _ =>
      refine ⟨tag, longer, told.tag_eq ▸ tagged, ?_, inserting, same⟩
      rw [← isComplete_of_insert accounted sound holdsAs told tagged
        inserting]
      exact incomplete

end

/-! ## Reassembling one datagram -/

/-- All datagrams are late at the same time. -/
def Due (reassembler : Reassembler) (deadline : Nat) : Prop :=
  ∀ datagram assembly,
    reassembler.pending.get? datagram = some assembly →
      assembly.deadline = deadline

theorem Due.roomy_eq (due : reassembler.Due deadline)
    (inTime : now < deadline) (datagram : Nat) :
    reassembler.roomy datagram now = reassembler := by
  rcases reassembler.roomy_eq_or datagram now with isSwept | isSame
  · rw [isSwept, swept, Table.filter_eq_self]
    intro entry member
    have isDue := due entry.1 entry.2 (Table.get?_eq_some_iff.mpr member)
    simpa [isDue] using inTime
  · exact isSame

theorem Due.having (due : reassembler.Due deadline)
    (inserting : (reassembler.assemblyFor tag.datagram.toNat
      deadline).insert tag fragment reassembler.limits.holdLimit =
        .ok longer) :
    (reassembler.having tag.datagram.toNat longer).Due deadline := by
  intro datagram assembly found
  rw [Reassembler.having, Table.get?_insert] at found
  by_cases isDatagram : datagram = tag.datagram.toNat
  · rw [if_pos isDatagram] at found
    cases found
    obtain ⟨_, _, _, rfl⟩ := Assembly.insert_eq_ok_iff.mp inserting
    change (reassembler.assemblyFor tag.datagram.toNat deadline).deadline =
      deadline
    rw [assemblyFor]
    cases isThere : reassembler.pending.get? tag.datagram.toNat with
    | none => rfl
    | some before => exact due _ before isThere
  · rw [if_neg isDatagram] at found
    exact due datagram assembly found

end Reassembler

namespace Pools.Consistent

variable {origin : Pools} {others : List Packet} {deadline : Nat}
variable {choices : List Nat}

/-- What comes of a reassembly is the first datagram that is whole. -/
theorem reassembleFrom_matches :
    ∀ {arrivals : List (Nat × Packet)} {histories : List History}
      {latest : UInt32} {reassembler : Reassembler}
      {held : Nat → Table History} {pools : Pools},
      pools.Consistent origin .never
        (arrivals.map Prod.snd ++ (reassembler.fragments ++ others)) →
      reassembler.Accounted → reassembler.HoldsAs held →
      reassembler.Due deadline →
      List.Forall₂ Packet.Matches (arrivals.map Prod.snd) histories →
      (Pool.reassembleFrom reassembler deadline choices latest arrivals
        pools).Satisfies
          (fun packet _ =>
            packet.Matches (.made (History.gather held histories) none))
          (fun _ _ => True) (fun _ => True)
  | [], _, _, reassembler, _, pools, _, _, _, _, _ => by
      apply Outcome.Satisfies.bind
        (@Outcome.Satisfies.trivially _ (Operation.count reassembler.pool _
          pools))
      intro _ after _
      exact Outcome.Satisfies.bind
        (@Outcome.Satisfies.trivially _ (Pool.dropLeftovers reassembler []
          choices after)) fun _ _ _ => trivial
  | (now, fragment) :: later, history :: histories, _, reassembler, held,
      pools, consistent, accounted, holdsAs, due, .cons told toldLater => by
      have abandoned : ∀ {reassembler : Reassembler} {rest : List Packet}
          {error : BufferError} {pools : Pools}
          {done : Packet → Pools → Prop},
          (Pool.abandon reassembler rest choices error pools).Satisfies done
            (fun _ _ => True) (fun _ => True) :=
        Outcome.Satisfies.bind Outcome.Satisfies.trivially
          fun _ _ _ => trivial
      refine Outcome.Satisfies.ite ?_ ?_
      · intro _
        apply Outcome.Satisfies.bind
          (@Outcome.Satisfies.trivially _ (Operation.count reassembler.pool _
            pools))
        exact fun _ _ _ => abandoned
      · intro notLate
        have inTime := Nat.lt_of_not_le notLate
        have handed : pools.Consistent origin .never
            (fragment :: (reassembler.fragments ++
              (later.map Prod.snd ++ others))) := by
          refine consistent.perm (List.Perm.cons _ ?_)
          exact List.perm_append_comm_assoc ..
        have sound : ∀ part ∈ fragment :: reassembler.fragments,
            part.Sound := by
          intro part member
          apply handed.kept part
          rcases List.mem_cons.mp member with rfl | isHeld
          · exact List.mem_cons_self ..
          · exact .tail _ (List.mem_append_left _ isHeld)
        apply Outcome.Satisfies.bind ((handed.pushUntil_satisfies
          consistent.keepsHand).mono (fun _ _ known => known)
          (fun _ _ _ => trivial) (fun _ _ => trivial))
        rintro ⟨answer, next⟩ after ⟨answers, consistentAfter⟩
        match answer with
        | .error error => exact abandoned
        | .ok (some packet) =>
            obtain ⟨tag, tagged, whole, told⟩ :=
              answers.matches accounted sound holdsAs told
            apply Outcome.Satisfies.bind
              (@Outcome.Satisfies.trivially _ (Pool.dropLeftovers next
                (later.map Prod.snd) choices after))
            intro _ _ _
            apply Outcome.Satisfies.pure
            simpa [History.gather, tagged, whole] using told
        | .ok none =>
            obtain ⟨tag, longer, tagged, incomplete, inserting, isNext⟩ :=
              answers.waits accounted sound holdsAs told
            -- Before the deadline nothing is late, so nothing is swept away
            -- to make room and all that was held still is.
            rw [due.roomy_eq inTime] at isNext
            have accountedNext : next.Accounted := by
              have state := answers.state_eq
              dsimp only at state
              rw [state]
              exact accounted.judge fragment now deadline
            subst isNext
            have gathered : History.gather held (history :: histories) =
                History.gather (History.including held history)
                  histories := by
              simp [History.gather, tagged, incomplete]
            rw [gathered]
            have consistentNext : after.Consistent origin .never
                ((reassembler.having tag.datagram.toNat longer).fragments ++
                  (later.map Prod.snd ++ others)) := consistentAfter
            exact reassembleFrom_matches
              (consistentNext.perm (List.perm_append_comm_assoc ..))
              accountedNext (holdsAs.having tagged
                (holdsAs.insert told (told.tag_eq ▸ tagged) inserting))
              (due.having inserting) toldLater

theorem reassemble_matches {id : PoolId} {pools : Pools}
    {arrivals : List (Nat × Packet)} {histories : List History}
    (consistent : pools.Consistent origin .never
      (arrivals.map Prod.snd ++ others))
    (told : List.Forall₂ Packet.Matches (arrivals.map Prod.snd)
      histories) :
    (Pool.reassemble id arrivals deadline choices pools).Satisfies
      (fun packet _ => packet.Matches
        (.made (History.gather (fun _ => .empty) histories) none))
      (fun _ _ => True) (fun _ => True) := by
  have fresh : (Reassembler.forPool id pools).Satisfies
      (fun reassembler after => after = pools ∧ reassembler =
        ⟨id, (pools.get id).config.reassembly, .empty⟩)
      (fun _ _ => True) (fun _ => True) :=
    Outcome.Satisfies.readPool (Outcome.Satisfies.pure ⟨rfl, rfl⟩)
  apply Outcome.Satisfies.bind fresh
  rintro _ _ ⟨rfl, rfl⟩
  exact reassembleFrom_matches consistent (.fresh id _)
    (fun _ => List.Forall₂.nil) (by simp [Reassembler.Due]) told

end Pools.Consistent

end PooledPackets
