import PooledPackets.Proofs.Fragments.Gathering
import PooledPackets.Proofs.Ownership.Copying
import PooledPackets.Proofs.Reassembly.Projection

/-!
# Answers to fragments of one datagram

Two reassemblers that hold the same of a datagram give the same answers to the
same fragments of it, whatever the states of their pools are. Where a packet
is delivered, it is the same but for the segments that hold it.
-/

namespace PooledPackets

open Operation

namespace Packet.Resembles

variable {packet other : Packet}

theorem gauge_eq (alike : packet.Resembles other) :
    packet.gauge = other.gauge := by
  have sameSize := congrArg List.length alike.payload_eq
  rw [List.length_map, List.length_map] at sameSize
  have bothReleased : packet.isReleased = other.isReleased := by
    rw [isReleased, isReleased, Bool.eq_iff_iff, List.isEmpty_iff_length_eq_zero,
      List.isEmpty_iff_length_eq_zero, sameSize]
  rw [gauge, gauge, bothReleased, alike.length_eq, alike.room_eq]

end Packet.Resembles

namespace Reassembly

variable {fragments others : List Packet}

theorem flatMap_eq {α : Type} {read : Packet → List α}
    (readsSame : ∀ packet other : Packet, packet.Resembles other →
      read packet = read other)
    (alike : List.Forall₂ Packet.Resembles fragments others) :
    fragments.flatMap read = others.flatMap read := by
  induction alike with
  | nil => rfl
  | cons same _ inductionHypothesis =>
      rw [List.flatMap_cons, List.flatMap_cons, readsSame _ _ same,
        inductionHypothesis]

theorem spelling_eq
    (alike : List.Forall₂ Packet.Resembles fragments others) :
    spelling fragments = spelling others :=
  flatMap_eq (fun _ _ same => same.toBytes_eq) alike

theorem refusal?_eq
    (alike : List.Forall₂ Packet.Resembles fragments others)
    (chaining : Bool) (limit : Nat) :
    refusal? chaining limit fragments = refusal? chaining limit others := by
  cases alike with
  | nil => rfl
  | cons same later =>
      have samePieces :=
        flatMap_eq (fun _ _ same => same.chunks_eq) later
      simp only [refusal?, same.gauge_eq, samePieces]

end Reassembly

namespace Reassembler

variable {reassembler other : Reassembler} {fragment fragment' : Packet}
variable {tag : FragmentTag} {now deadline : Nat} {longer : Assembly}

theorem of_judgeAdded_whole {assembly : Assembly}
    (isWhole : (reassembler.judgeAdded assembly tag fragment).1 =
      .whole longer) :
    assembly.insert tag fragment reassembler.limits.holdLimit = .ok longer ∧
      longer.isComplete = true := by
  unfold judgeAdded at isWhole
  split at isWhole
  · cases isWhole
  · split at isWhole
    · rename_i inserting complete
      cases isWhole
      exact ⟨inserting, complete⟩
    · cases isWhole

/-- A fragment that makes its datagram whole has come in time. -/
theorem of_judge_whole (tagged : fragment.tag = some tag)
    (room : reassembler.HasRoom tag.datagram.toNat)
    (isWhole : (reassembler.judge fragment now deadline).1 =
      .whole longer) :
    (∀ assembly,
      reassembler.pending.get? tag.datagram.toNat = some assembly →
        now < assembly.deadline) ∧
      (reassembler.assemblyFor tag.datagram.toNat deadline).insert tag
        fragment reassembler.limits.holdLimit = .ok longer ∧
      longer.isComplete = true := by
  rw [judge_of_room tagged room] at isWhole
  rw [assemblyFor]
  cases found : reassembler.pending.get? tag.datagram.toNat with
  | none =>
      rw [found] at isWhole
      refine ⟨by simp, ?_⟩
      exact of_judgeAdded_whole isWhole
  | some assembly =>
      rw [found] at isWhole
      dsimp only at isWhole
      split at isWhole
      · cases isWhole
      · rename_i inTime
        refine ⟨?_, of_judgeAdded_whole isWhole⟩
        intro held isHeld
        cases isHeld
        exact Nat.lt_of_not_le inTime

/-- What holds once a whole datagram was joined, or could not be joined. -/
def Joins (done : Packet → Pools → Prop)
    (refused : BufferError → Pools → Prop) (acceptance : Acceptance)
    (after : Pools) : Prop :=
  match acceptance.1 with
  | .ok (some packet) => done packet after
  | .ok none => False
  | .error error => refused error after

variable {hand : Hand} {pools : Pools} {done : Packet → Pools → Prop}
variable {refused : BufferError → Pools → Prop}

theorem add_of_whole {assembly : Assembly}
    (inserting : assembly.insert tag fragment
      reassembler.limits.holdLimit = .ok longer)
    (complete : longer.isComplete = true)
    (joins : (Reassembly.join reassembler.pool longer pools).Satisfies done
      refused (fun _ => True)) :
    (reassembler.add hand assembly tag fragment pools).Satisfies
      (Joins done refused) (fun _ _ => False) (fun _ => True) := by
  rw [add, inserting]
  simp only [complete, if_true]
  apply Outcome.Satisfies.bind (joins.attempt.holding fun _ _ _ => trivial)
  intro result after known
  cases result with
  | ok packet => exact known
  | error error => exact known

/-- A datagram that is whole is joined right away where there was room for
its last fragment. -/
theorem push_of_whole
    (reading : reassembler.limits.timeout.after? now = some deadline)
    (tagged : fragment.tag = some tag)
    (room : reassembler.HasRoom tag.datagram.toNat)
    (isWhole : (reassembler.judge fragment now deadline).1 = .whole longer)
    (joins : (Reassembly.join reassembler.pool longer pools).Satisfies done
      refused (fun _ => True)) :
    (reassembler.push fragment now pools).Satisfies (Joins done refused)
      (fun _ _ => False) (fun _ => True) := by
  obtain ⟨inTime, inserting, complete⟩ :=
    of_judge_whole tagged room isWhole
  rw [push_eq reading, pushUntil_of_room tagged room inTime]
  exact add_of_whole inserting complete joins

/-- A datagram that is whole is joined once room was made for its last
fragment. -/
theorem pushUntil_of_whole (tagged : fragment.tag = some tag)
    (isWhole : (reassembler.judge fragment now deadline).1 = .whole longer)
    (joins : ∀ between, pools.GetsBack ((reassembler.evicted
      tag.datagram.toNat now).flatMap Packet.chain) between →
        (Reassembly.join reassembler.pool longer between).Satisfies done
          refused (fun _ => True)) :
    (reassembler.pushUntil hand fragment now deadline pools).Satisfies
      (Joins done refused) (fun _ _ => False) (fun _ => True) := by
  simp only [judge, tagged] at isWhole
  simp only [pushUntil, tagged]
  apply Outcome.Satisfies.bind
    (reassembler.makeRoom_returns tag.datagram.toNat fragment now)
  rintro _ between ⟨rfl, regained⟩
  have joined := joins between regained
  rw [← reassembler.roomy_pool tag.datagram.toNat now] at joined
  generalize reassembler.roomy tag.datagram.toNat now = roomy
    at isWhole joined ⊢
  unfold judgeTagged at isWhole
  cases found : roomy.pending.get? tag.datagram.toNat with
  | some assembly =>
      rw [found] at isWhole
      dsimp only at isWhole ⊢
      split at isWhole
      · cases isWhole
      · rename_i inTime
        obtain ⟨inserting, complete⟩ := of_judgeAdded_whole isWhole
        rw [if_neg inTime]
        exact add_of_whole inserting complete joined
  | none =>
      rw [found] at isWhole
      dsimp only at isWhole ⊢
      split at isWhole
      · cases isWhole
      · rename_i notFull
        obtain ⟨inserting, complete⟩ := of_judgeAdded_whole isWhole
        rw [if_neg notFull]
        exact add_of_whole inserting complete joined

/-- What joining a whole datagram of the reassembler's own pool comes to. -/
theorem push_joins {origin after : Pools} {others : List Packet}
    {answer : Except BufferError (Option Packet)} {changed : Reassembler}
    {numbers : List Nat}
    (consistent : pools.Consistent origin .never
      (fragment :: (reassembler.fragments ++ others)))
    (confined : reassembler.Confined numbers)
    (own : fragment.pool = reassembler.pool)
    (reading : reassembler.limits.timeout.after? now = some deadline)
    (tagged : fragment.tag = some tag)
    (listed : tag.datagram.toNat ∈ numbers)
    (isWhole : (reassembler.judge fragment now deadline).1 = .whole longer)
    (pushed : reassembler.push fragment now pools =
      .done (answer, changed) after) :
    (∃ error, answer = .error error ∧ Reassembly.refusal?
      (origin.get reassembler.pool).config.chaining
      (origin.get reassembler.pool).layout.maxPayload longer.fragments =
        some error) ∨
    ∃ packet, answer = .ok (some packet) ∧ Reassembly.refusal?
      (origin.get reassembler.pool).config.chaining
      (origin.get reassembler.pool).layout.maxPayload longer.fragments =
        none ∧
      packet.toBytes = Reassembly.spelling longer.fragments := by
  have room := confined.hasRoom listed
  obtain ⟨_, inserting, _⟩ := of_judge_whole tagged room isWhole
  have grown := Assembly.fragments_of_insert inserting
  have nonempty : longer.fragments ≠ [] := by
    intro nothing
    rw [nothing] at grown
    simp at grown
  have consistentLonger : pools.Consistent origin .never
      (longer.fragments ++
        ((reassembler.without tag.datagram.toNat).fragments ++ others)) := by
    have parted := (reassembler.fragments_perm_assemblyFor
      tag.datagram.toNat deadline).append_right others
    rw [List.append_assoc] at parted
    exact consistent.perm
      ((parted.cons fragment).trans (grown.symm.append_right _))
  have ownLonger := confined.own_of_insert own inserting
  have joins := consistentLonger.join_satisfies.and
    (consistentLonger.join_gauged ownLonger nonempty)
  have known := (push_of_whole reading tagged room isWhole
    (joins.mono (fun _ _ known => known) (fun _ _ known => known)
      (fun _ _ => trivial))).of_done pushed
  match answer with
  | .ok (some packet) =>
      obtain ⟨⟨_, joined⟩, fits⟩ := known
      exact Or.inr ⟨packet, rfl, fits, joined.spelled rfl⟩
  | .ok none => exact known.elim
  | .error error => exact Or.inl ⟨error, rfl, known.2⟩

/-- Answers that are the same but for the segments of a packet delivered. -/
inductive SameAnswer : Except BufferError (Option Packet) →
    Except BufferError (Option Packet) → Prop
  | refused (error : BufferError) :
      SameAnswer (.error error) (.error error)
  | waiting : SameAnswer (.ok none) (.ok none)
  | delivered {packet packet' : Packet}
      (same : packet.toBytes = packet'.toBytes) :
      SameAnswer (.ok (some packet)) (.ok (some packet'))

theorem AgreeOn.push {pools pools' origin after after' : Pools}
    {others others' : List Packet} {numbers numbers' : List Nat}
    {answer answer' : Except BufferError (Option Packet)}
    {changed changed' : Reassembler}
    (agree : AgreeOn tag.datagram.toNat reassembler other)
    (same : fragment.Resembles fragment')
    (tagged : fragment.tag = some tag)
    (own : fragment.pool = reassembler.pool)
    (consistent : pools.Consistent origin .never
      (fragment :: (reassembler.fragments ++ others)))
    (consistent' : pools'.Consistent origin .never
      (fragment' :: (other.fragments ++ others')))
    (confined : reassembler.Confined numbers)
    (confined' : other.Confined numbers')
    (listed : tag.datagram.toNat ∈ numbers)
    (listed' : tag.datagram.toNat ∈ numbers')
    (pushed : reassembler.push fragment now pools =
      .done (answer, changed) after)
    (pushed' : other.push fragment' now pools' =
      .done (answer', changed') after') :
    SameAnswer answer answer' ∧
      AgreeOn tag.datagram.toNat changed changed' := by
  obtain ⟨deadline, reading, rfl, fits⟩ :=
    (reassembler.push_decided fragment now).of_done pushed
  obtain ⟨deadline', reading', rfl, fits'⟩ :=
    (other.push_decided fragment' now).of_done pushed'
  have sameReading := reading'
  rw [← agree.limits_eq, reading] at sameReading
  cases sameReading
  have tagged' : fragment'.tag = some tag := same.tag_eq ▸ tagged
  have own' : fragment'.pool = other.pool := by
    rw [← same.pool_eq, own, agree.pool_eq]
  obtain ⟨alike, agreeAfter⟩ := agree.judge same tagged
    (confined.hasRoom listed) (confined'.hasRoom listed')
  refine ⟨?_, agreeAfter⟩
  generalize decided : (reassembler.judge fragment now deadline).1 =
    decision, decided' : (other.judge fragment' now deadline).1 =
      decision' at alike fits fits'
  cases alike with
  | refused error =>
      cases fits
      cases fits'
      exact .refused error
  | waiting =>
      cases fits
      cases fits'
      exact .waiting
  | whole alike =>
      have sameRefusal := Reassembly.refusal?_eq alike.fragments
        (origin.get reassembler.pool).config.chaining
        (origin.get reassembler.pool).layout.maxPayload
      have first := push_joins consistent confined own reading tagged
        listed decided pushed
      have second := push_joins consistent' confined' own' reading' tagged'
        listed' decided' pushed'
      rw [← agree.pool_eq, ← sameRefusal] at second
      rcases first with ⟨error, rfl, short⟩ | ⟨packet, rfl, fits, spelled⟩
      · rw [short] at second
        rcases second with ⟨error', rfl, isError⟩ | ⟨_, _, impossible, _⟩
        · cases isError
          exact .refused error
        · cases impossible
      · rw [fits] at second
        rcases second with ⟨_, _, impossible⟩ |
          ⟨packet', rfl, _, spelled'⟩
        · cases impossible
        · apply SameAnswer.delivered
          rw [spelled, spelled', Reassembly.spelling_eq alike.fragments]

end Reassembler

end PooledPackets
