import PooledPackets.Proofs.Contents.Gathered
import PooledPackets.Proofs.Counters.Packets

/-!
# Reassembly on the books

What a reassembler holds is on the books of the pools that the fragments come
from. Whatever becomes of a fragment, the books change by what the reassembler
holds more or less, by the packet that it delivers, and by what there is to
note of the answer and of the datagrams that were dropped to make room.
-/

namespace PooledPackets

open Operation Books

/-! ## What there is to note -/

namespace Reassembler

/-- Every datagram that is dropped as late is noted. -/
def timeouts (late : List Nat) : List Note :=
  late.map fun _ => .event .timeout

/-- The datagrams that are dropped to make room for a new one. -/
def outdated (reassembler : Reassembler) (datagram now : Nat) : List Nat :=
  if !reassembler.pending.contains datagram &&
      decide (reassembler.limits.maxDatagrams ≤ reassembler.inFlight) then
    reassembler.late now
  else []

/-- What there is to note of a datagram that is whole and was joined. -/
def Decision.joined (chaining : Bool) (id : PoolId) : Decision → List Note
  | .whole assembly => Reassembly.notes chaining id assembly.fragments
  | _ => []

/-- What there is to note of the answer to a fragment. -/
def Decision.notes (chaining : Bool) (id : PoolId) (decision : Decision) :
    Except BufferError (Option Packet) → List Note
  | .ok (some _) => .event .delivered :: decision.joined chaining id
  | .ok none => []
  | .error error => error.notes

/-- What there is to note of a fragment that arrived at `now`. -/
def notes (reassembler : Reassembler) (chaining : Bool) (fragment : Packet)
    (now deadline : Nat) (answer : Except BufferError (Option Packet)) :
    List Note :=
  (match fragment.tag with
    | none => []
    | some tag => timeouts (reassembler.outdated tag.datagram.toNat now)) ++
  (reassembler.judge fragment now deadline).1.notes chaining reassembler.pool
    answer

/-- What has come of a fragment is on the books, with what there is to note of
the answer. -/
structure Settles (reassembler : Reassembler) (origin : Pools)
    (books : Books) (fragment : Packet)
    (notes : Except BufferError (Option Packet) → List Note)
    (acceptance : Acceptance) (after : Pools) : Prop where
  delivered : ∀ packet ∈ delivered acceptance.1,
    packet.IsOut reassembler.pool
  booked : after.Booked origin (books - lives fragment -
    alive reassembler.fragments + alive acceptance.2.fragments +
      alive (Reassembler.delivered acceptance.1) +
        allNoted reassembler.pool (notes acceptance.1))

end Reassembler

/-- Of the reasons for which a datagram refuses a fragment only an overlap is
counted. -/
theorem Assembly.notes_of_insert {assembly : Assembly} {tag : FragmentTag}
    {fragment : Packet} {holdLimit : Nat} {error : BufferError}
    (inserting : assembly.insert tag fragment holdLimit = .error error)
    (noOverlap : ∀ datagram offset len,
      error ≠ .overlap datagram offset len) : error.notes = [] := by
  simp only [insert] at inserting
  split at inserting
  · cases inserting
    exact absurd rfl (noOverlap _ _ _)
  · split at inserting
    · cases inserting
      rfl
    · split at inserting
      · cases inserting
        rfl
      · cases inserting

namespace Pools.Booked

open Reassembler

variable {pools origin : Pools} {books : Books}
variable {reassembler : Reassembler} {fragment : Packet}
variable {refused : BufferError → Pools → Prop}

/-! ## Dropping datagrams -/

theorem dropLate_satisfies (booked : pools.Booked origin books)
    (id : PoolId) (assemblies : List Assembly) :
    (dropLate id assemblies pools).Satisfies
      (fun _ after => after.Booked origin (books -
        alive (assemblies.flatMap Assembly.fragments) +
          allNoted id (assemblies.map fun _ => .event .timeout)))
      refused (fun _ => True) := by
  induction assemblies generalizing pools books with
  | nil => exact booked.of_eq (by simp)
  | cons assembly rest inductionHypothesis =>
      apply Outcome.Satisfies.bind
        (booked.dropAll_satisfies assembly.fragments)
      intro _ between bookedBetween
      apply Outcome.Satisfies.bind
        (bookedBetween.countEvent_satisfies id .timeout)
      intro _ after bookedAfter
      apply (inductionHypothesis bookedAfter).monoDone
      intro _ last bookedLast
      apply bookedLast.of_eq
      rw [List.flatMap_cons, alive_append, List.map_cons, allNoted_cons]
      abel

theorem expire_satisfies (booked : pools.Booked origin books) (now : Nat) :
    (reassembler.expire now pools).Satisfies
      (fun result after =>
        result = (reassembler.late now, reassembler.swept now) ∧
        after.Booked origin (books - alive reassembler.fragments +
          alive (reassembler.swept now).fragments +
            allNoted reassembler.pool (timeouts (reassembler.late now))))
      refused (fun _ => True) := by
  apply Outcome.Satisfies.bind (booked.dropLate_satisfies _ _)
  intro _ after bookedAfter
  refine Outcome.Satisfies.pure ⟨rfl, bookedAfter.of_eq ?_⟩
  have counted : timeouts (reassembler.late now) =
      (reassembler.pending.filter fun _ assembly =>
        decide (assembly.deadline ≤ now)).values.map
          fun _ => .event .timeout := by
    simp only [timeouts, late, Table.keys, Table.values, List.map_map]
    rfl
  rw [alive_perm (reassembler.fragments_perm_swept now), alive_append,
    counted, lateFragments]
  abel

theorem dropDatagrams_satisfies (booked : pools.Booked origin books)
    (assemblies : List Assembly) :
    (dropDatagrams assemblies pools).Satisfies
      (fun _ after => after.Booked origin
        (books - alive (assemblies.flatMap Assembly.fragments)))
      refused (fun _ => True) := by
  induction assemblies generalizing pools books with
  | nil => exact booked.of_eq (by simp)
  | cons assembly rest inductionHypothesis =>
      apply Outcome.Satisfies.bind
        (booked.dropAll_satisfies assembly.fragments)
      intro _ between bookedBetween
      apply (inductionHypothesis bookedBetween).monoDone
      intro _ last bookedLast
      apply bookedLast.of_eq
      rw [List.flatMap_cons, alive_append]
      abel

theorem clear_satisfies {choices : List Nat}
    (booked : pools.Booked origin books) :
    (reassembler.clear choices pools).Satisfies
      (fun result after => result = reassembler.cleared ∧
        after.Booked origin (books - alive reassembler.fragments))
      refused (fun _ => True) := by
  have dropped := @dropDatagrams_satisfies _ _ _ refused booked
    (arrange choices reassembler.pending.values)
  rw [alive_perm (reassembler.fragments_arrange_perm choices)] at dropped
  apply Outcome.Satisfies.bind dropped
  exact fun _ _ bookedAfter => Outcome.Satisfies.pure ⟨rfl, bookedAfter⟩

/-! ## Accepting fragments -/

theorem makeRoom_satisfies_outdated (booked : pools.Booked origin books)
    (datagram now : Nat) :
    (reassembler.makeRoom datagram fragment now pools).Satisfies
      (fun roomy after => roomy = reassembler.roomy datagram now ∧
        after.Booked origin (books - alive reassembler.fragments +
          alive roomy.fragments + allNoted reassembler.pool
            (timeouts (reassembler.outdated datagram now))))
      refused (fun _ => True) := by
  refine Outcome.Satisfies.ite ?_ ?_
  · intro full
    apply Outcome.Satisfies.bind
      ((booked.expire_satisfies now).holding fun _ _ _ => trivial)
    intro result after ending
    obtain ⟨rfl, bookedAfter⟩ := ending
    refine Outcome.Satisfies.pure ⟨?_, ?_⟩
    · rw [roomy, if_pos full]
    · rw [outdated, if_pos full]
      exact bookedAfter
  · intro notFull
    refine Outcome.Satisfies.pure ⟨?_, ?_⟩
    · rw [roomy, if_neg notFull]
    · rw [outdated, if_neg notFull]
      exact booked.of_eq (by simp [timeouts])

/-- Of the ways in which a fragment does not fit its datagram only an overlap
is counted. -/
theorem giveUp_satisfies (booked : pools.Booked origin books) {hand : Hand}
    {assembly : Assembly} {tag : FragmentTag} {error : BufferError}
    (silent : (∀ datagram offset len,
      error ≠ .overlap datagram offset len) → error.notes = []) :
    (reassembler.giveUp hand assembly tag fragment error pools).Satisfies
      (fun acceptance after => acceptance =
          (.error error, reassembler.without tag.datagram.toNat) ∧
        after.Booked origin (books - lives fragment -
          alive assembly.fragments +
            allNoted reassembler.pool error.notes))
      refused (fun _ => True) := by
  apply Outcome.Satisfies.bind
    ((booked.drop_satisfies fragment).holding fun _ _ _ => trivial)
  intro _ between bookedBetween
  apply Outcome.Satisfies.bind
    ((bookedBetween.dropAll_satisfies assembly.fragments).holding
      fun _ _ _ => trivial)
  intro _ after bookedAfter
  cases error with
  | overlap datagram offset len =>
      apply Outcome.Satisfies.bind
        (bookedAfter.countEvent_satisfies reassembler.pool .overlap)
      intro _ last noted
      refine Outcome.Satisfies.pure ⟨rfl, noted.of_eq ?_⟩
      simp [BufferError.notes]
  | _ =>
      refine Outcome.Satisfies.pure ⟨rfl, bookedAfter.of_eq ?_⟩
      rw [silent (by simp), allNoted_nil, add_zero]


/-- A fragment added to its datagram is held, or joined with the others, or
dropped with them. -/
theorem add_satisfies (booked : pools.Booked origin books) {hand : Hand}
    {assembly : Assembly} {tag : FragmentTag}
    (parts : alive reassembler.fragments = alive assembly.fragments +
      alive (reassembler.without tag.datagram.toNat).fragments)
    (held : ∀ part ∈ fragment :: assembly.fragments,
      part.isReleased = false) :
    (reassembler.add hand assembly tag fragment pools).Satisfies
      (reassembler.Settles origin books fragment
        ((reassembler.judgeAdded assembly tag fragment).1.notes
          (origin.get reassembler.pool).config.chaining reassembler.pool))
      refused (fun _ => True) := by
  unfold Reassembler.add judgeAdded
  cases inserting : assembly.insert tag fragment
      reassembler.limits.holdLimit with
  | error error =>
      have silent := Assembly.notes_of_insert inserting
      apply (booked.giveUp_satisfies silent).monoDone
      intro _ after ending
      obtain ⟨rfl, bookedAfter⟩ := ending
      refine ⟨by simp [delivered], bookedAfter.of_eq ?_⟩
      simp only [delivered, Decision.notes, alive_nil]
      rw [parts]
      abel
  | ok longer =>
      have grown := Assembly.fragments_of_insert inserting
      have heldLonger : ∀ part ∈ longer.fragments,
          part.isReleased = false :=
        fun part member => held part (grown.mem_iff.mp member)
      have added := alive_perm grown
      rw [alive_cons] at added
      refine Outcome.Satisfies.ite ?_ ?_
      · intro complete
        have nonempty : longer.fragments ≠ [] := by
          intro nothing
          simp [nothing] at grown
        simp only [complete, if_true]
        apply Outcome.Satisfies.bind
          ((booked.join_satisfies nonempty heldLonger).attempt.holding
            fun _ _ _ => trivial).neverRefused
        intro result after known
        cases result with
        | error error =>
            refine Outcome.Satisfies.pure ⟨?_, known.of_eq ?_⟩
            · simp [delivered, Except.map]
            · simp only [delivered, Except.map, Decision.notes, alive_nil]
              rw [parts, added]
              abel
        | ok packet =>
            refine Outcome.Satisfies.pure ⟨?_, known.2.of_eq ?_⟩
            · intro delivered member
              rw [List.mem_singleton.mp member]
              exact known.1
            · simp only [delivered, Except.map, Decision.notes,
                Decision.joined, alive_cons, alive_nil]
              rw [parts, added]
              abel
      · intro incomplete
        simp only [incomplete]
        refine Outcome.Satisfies.pure ⟨by simp [delivered], ?_⟩
        apply booked.of_eq
        simp only [delivered, Decision.notes, alive_nil, allNoted_nil]
        rw [alive_perm (reassembler.fragments_having_perm _ longer),
          alive_append, parts, added]
        abel

/-- The same for the fragment of a datagram that room was made for. -/
theorem add_satisfies_roomy {hand : Hand} {assembly : Assembly}
    {tag : FragmentTag} {now deadline : Nat}
    (booked : pools.Booked origin (books - alive reassembler.fragments +
      alive (reassembler.roomy tag.datagram.toNat now).fragments +
        allNoted reassembler.pool
          (timeouts (reassembler.outdated tag.datagram.toNat now))))
    (tagged : fragment.tag = some tag)
    (parts : alive (reassembler.roomy tag.datagram.toNat now).fragments =
      alive assembly.fragments + alive ((reassembler.roomy
        tag.datagram.toNat now).without tag.datagram.toNat).fragments)
    (held : ∀ part ∈ fragment :: assembly.fragments,
      part.isReleased = false)
    (decided : reassembler.judge fragment now deadline =
      (reassembler.roomy tag.datagram.toNat now).judgeAdded assembly tag
        fragment) :
    ((reassembler.roomy tag.datagram.toNat now).add hand assembly tag
      fragment pools).Satisfies
        (reassembler.Settles origin books fragment (reassembler.notes
          (origin.get reassembler.pool).config.chaining fragment now
            deadline))
        refused (fun _ => True) := by
  apply (booked.add_satisfies parts held).monoDone
  intro acceptance after ending
  obtain ⟨delivered, bookedAfter⟩ := ending
  rw [roomy_pool] at delivered bookedAfter
  refine ⟨delivered, bookedAfter.of_eq ?_⟩
  simp only [Reassembler.notes, tagged, decided, allNoted_append]
  abel

/-- What becomes of a fragment is on the books, if packets that were released
have no tag. -/
theorem pushUntil_satisfies (booked : pools.Booked origin books)
    {hand : Hand} {now deadline : Nat}
    (held : ∀ part ∈ reassembler.fragments, part.isReleased = false)
    (intact : ∀ tag, fragment.tag = some tag →
      fragment.isReleased = false) :
    (reassembler.pushUntil hand fragment now deadline pools).Satisfies
      (reassembler.Settles origin books fragment (reassembler.notes
        (origin.get reassembler.pool).config.chaining fragment now deadline))
      (fun _ _ => False) (fun _ => True) := by
  cases tagged : fragment.tag with
  | none =>
      simp only [Reassembler.pushUntil, tagged]
      apply Outcome.Satisfies.bind
        ((booked.drop_satisfies fragment).holding fun _ _ _ => trivial)
      intro _ after bookedAfter
      refine Outcome.Satisfies.pure ⟨by simp [delivered], ?_⟩
      apply bookedAfter.of_eq
      simp only [delivered, Reassembler.notes, tagged, Decision.notes,
        BufferError.notes, alive_nil, List.append_nil, allNoted_nil]
      abel
  | some tag =>
      simp only [Reassembler.pushUntil, tagged]
      apply Outcome.Satisfies.bind
        (booked.makeRoom_satisfies_outdated tag.datagram.toNat now)
      intro roomy between ending
      obtain ⟨rfl, bookedBetween⟩ := ending
      have judged : reassembler.judge fragment now deadline =
          (reassembler.roomy tag.datagram.toNat now).judgeTagged tag
            fragment now deadline := by
        simp only [judge, tagged]
      have heldRoomy : ∀ part ∈
          (reassembler.roomy tag.datagram.toNat now).fragments,
            part.isReleased = false :=
        fun part member =>
          held part (reassembler.fragments_roomy_subset _ now member)
      cases pending : (reassembler.roomy tag.datagram.toNat
          now).pending.get? tag.datagram.toNat with
      | some assembly =>
          have split := fragments_perm_of_get? pending
          have parts := alive_perm split
          rw [alive_append] at parts
          refine Outcome.Satisfies.ite ?_ ?_
          · intro isLate
            apply Outcome.Satisfies.bind ((bookedBetween.dropAll_satisfies
              assembly.fragments).holding fun _ _ _ => trivial)
            intro _ emptied bookedEmptied
            apply Outcome.Satisfies.bind
              (bookedEmptied.countEvent_satisfies _ .timeout)
            intro _ noted bookedNoted
            apply Outcome.Satisfies.bind
              ((bookedNoted.drop_satisfies fragment).holding
                fun _ _ _ => trivial)
            intro _ after bookedAfter
            refine Outcome.Satisfies.pure ⟨by simp [delivered], ?_⟩
            apply bookedAfter.of_eq
            have samePool : ((reassembler.roomy tag.datagram.toNat
                now).without tag.datagram.toNat).pool = reassembler.pool :=
              reassembler.roomy_pool _ now
            simp only [delivered, Reassembler.notes, tagged, Decision.notes,
              BufferError.notes, alive_nil, allNoted_append, allNoted_cons,
              allNoted_nil]
            rw [parts, samePool]
            abel
          · intro inTime
            refine add_satisfies_roomy bookedBetween tagged parts ?_ ?_
            · intro part member
              rcases List.mem_cons.mp member with rfl | isHeld
              · exact intact tag tagged
              · exact heldRoomy part
                  (split.mem_iff.mpr (List.mem_append_left _ isHeld))
            · simp only [judged, judgeTagged, pending, inTime, if_false]
      | none =>
          refine Outcome.Satisfies.ite ?_ ?_
          · intro _
            apply Outcome.Satisfies.bind
              ((bookedBetween.drop_satisfies fragment).holding
                fun _ _ _ => trivial)
            intro _ after bookedAfter
            refine Outcome.Satisfies.pure ⟨by simp [delivered], ?_⟩
            apply bookedAfter.of_eq
            simp only [delivered, Reassembler.notes, tagged, Decision.notes,
              BufferError.notes, alive_nil, allNoted_append, allNoted_nil]
            abel
          · intro hasRoom
            refine add_satisfies_roomy bookedBetween tagged ?_ ?_ ?_
            · rw [without_of_absent pending, Assembly.fragments_begun,
                alive_nil, zero_add]
            · intro part member
              rw [Assembly.fragments_begun] at member
              rw [List.mem_singleton.mp member]
              exact intact tag tagged
            · simp only [judged, judgeTagged, pending, hasRoom, if_false]

theorem push_satisfies (booked : pools.Booked origin books) {now : Nat}
    (held : ∀ part ∈ reassembler.fragments, part.isReleased = false)
    (intact : ∀ tag, fragment.tag = some tag →
      fragment.isReleased = false) :
    (reassembler.push fragment now pools).Satisfies
      (fun acceptance after => ∃ deadline,
        reassembler.limits.timeout.after? now = some deadline ∧
        reassembler.Settles origin books fragment (reassembler.notes
          (origin.get reassembler.pool).config.chaining fragment now
            deadline) acceptance after)
      (fun _ _ => False) (fun _ => True) := by
  unfold Reassembler.push
  cases reassembler.limits.timeout.after? now with
  | none => exact Outcome.Satisfies.holding trivial fun _ _ _ => trivial
  | some deadline =>
      apply (booked.pushUntil_satisfies held intact).monoDone
      exact fun _ _ settles => ⟨deadline, rfl, settles⟩

end Pools.Booked

/-! ## Reassembling one datagram -/

namespace Reassembler

/-- The first datagram that is whole when fragments come one after the other,
each with its clock reading. -/
def completed? (reassembler : Reassembler) (deadline : Nat) :
    List (Nat × Packet) → Option Assembly
  | [] => none
  | (now, fragment) :: later =>
      match reassembler.judge fragment now deadline with
      | (.refused _, _) => none
      | (.waiting, next) => next.completed? deadline later
      | (.whole assembly, _) => some assembly

/-- What there is to note of a reassembly that delivers a packet. -/
def deliveryNotes (reassembler : Reassembler) (chaining : Bool)
    (deadline : Nat) (arrivals : List (Nat × Packet)) : List Note :=
  .event .delivered :: match reassembler.completed? deadline arrivals with
    | none => []
    | some assembly =>
        Reassembly.notes chaining reassembler.pool assembly.fragments

variable {reassembler : Reassembler} {now deadline : Nat}

/-- What is held after a fragment was held before, or is the fragment. -/
theorem held_judge {fragment : Packet} {next : Reassembler}
    (held : ∀ part ∈ reassembler.fragments, part.isReleased = false)
    (first : fragment.isReleased = false)
    (same : next = (reassembler.judge fragment now deadline).2) :
    ∀ part ∈ next.fragments, part.isReleased = false := by
  intro part member
  rw [same] at member
  rcases List.mem_cons.mp (reassembler.fragments_judge_subset fragment now
      deadline member) with rfl | wasHeld
  · exact first
  · exact held part wasHeld

/-- Nothing is dropped to make room before all datagrams are late. -/
theorem Due.outdated_eq (due : reassembler.Due deadline)
    (inTime : now < deadline) (datagram : Nat) :
    reassembler.outdated datagram now = [] := by
  have noneLate : reassembler.late now = [] := by
    rw [late, Table.keys, Table.filter, List.map_eq_nil_iff,
      List.filter_eq_nil_iff]
    intro entry member
    have isDue := due entry.1 entry.2 (Table.get?_eq_some_iff.mpr member)
    simpa [isDue] using inTime
  rw [outdated, noneLate, ite_self]

/-- While a datagram is incomplete the reassembly goes on with what it holds
now, and its deadline stays. -/
theorem Due.waits {fragment : Packet} {next : Reassembler}
    (due : reassembler.Due deadline) (inTime : now < deadline)
    (fits : (reassembler.judge fragment now deadline).1.Fits (.ok none))
    (same : next = (reassembler.judge fragment now deadline).2)
    (later : List (Nat × Packet)) :
    next.Due deadline ∧ (∃ tag, fragment.tag = some tag) ∧
      reassembler.completed? deadline ((now, fragment) :: later) =
        next.completed? deadline later := by
  have verdict := reassembler.judged fragment now deadline
  rw [completed?]
  generalize reassembler.judge fragment now deadline = decided
    at verdict fits same ⊢
  subst same
  cases verdict with
  | untagged _ => cases fits
  | refused error _ => cases fits
  | whole _ _ _ => exact absurd rfl fits
  | waiting tagged inserting _ _ =>
      refine ⟨?_, ⟨_, tagged⟩, rfl⟩
      rw [due.roomy_eq inTime]
      exact due.having inserting

/-- Before all datagrams are late only the answer is to be noted. -/
theorem Due.notes_eq (due : reassembler.Due deadline)
    (inTime : now < deadline) (chaining : Bool) (fragment : Packet)
    (answer : Except BufferError (Option Packet)) :
    reassembler.notes chaining fragment now deadline answer =
      (reassembler.judge fragment now deadline).1.notes chaining
        reassembler.pool answer := by
  unfold notes
  cases fragment.tag with
  | none => rfl
  | some tag =>
      simp only [due.outdated_eq inTime]
      rfl

/-- The fragment that makes its datagram whole completes the reassembly. -/
theorem deliveryNotes_of_whole {fragment packet : Packet} {chaining : Bool}
    (fits : (reassembler.judge fragment now deadline).1.Fits
      (.ok (some packet))) (later : List (Nat × Packet)) :
    reassembler.deliveryNotes chaining deadline ((now, fragment) :: later) =
      (reassembler.judge fragment now deadline).1.notes chaining
        reassembler.pool (.ok (some packet)) := by
  rw [deliveryNotes, completed?]
  generalize reassembler.judge fragment now deadline = decided at fits ⊢
  obtain ⟨decision, next⟩ := decided
  cases decision with
  | refused error => cases fits
  | waiting => cases fits
  | whole assembly => rfl

end Reassembler

namespace Pools.Booked

open Reassembler

variable {pools origin : Pools} {books : Books}
variable {reassembler : Reassembler} {choices : List Nat}

theorem dropLeftovers_satisfies (booked : pools.Booked origin books)
    (rest : List Packet) {refused : BufferError → Pools → Prop} :
    (Pool.dropLeftovers reassembler rest choices pools).Satisfies
      (fun _ after => after.Booked origin
        (books - alive rest - alive reassembler.fragments))
      refused (fun _ => True) := by
  apply Outcome.Satisfies.bind
    ((booked.dropAll_satisfies rest).holding fun _ _ _ => trivial)
  intro _ between bookedBetween
  apply Outcome.Satisfies.bind bookedBetween.clear_satisfies
  exact fun _ _ ending => Outcome.Satisfies.pure ending.2

theorem abandon_satisfies {α : Type} (booked : pools.Booked origin books)
    (rest : List Packet) (error : BufferError)
    {done : α → Pools → Prop} :
    (@Pool.abandon α reassembler rest choices error pools).Satisfies done
      (fun refusal after => refusal = error ∧ after.Booked origin
        (books - alive rest - alive reassembler.fragments))
      (fun _ => True) := by
  apply Outcome.Satisfies.bind (booked.dropLeftovers_satisfies rest)
  exact fun _ _ bookedAfter => Outcome.Satisfies.fail ⟨rfl, bookedAfter⟩

/-- A reassembly takes all fragments off the books, whatever comes of it. -/
theorem reassembleFrom_satisfies {deadline : Nat}
    {arrivals : List (Nat × Packet)} {latest : UInt32}
    (booked : pools.Booked origin books) (due : reassembler.Due deadline)
    (held : ∀ part ∈ reassembler.fragments, part.isReleased = false)
    (intact : ∀ arrival ∈ arrivals, ∀ tag, arrival.2.tag = some tag →
      arrival.2.isReleased = false) :
    (Pool.reassembleFrom reassembler deadline choices latest arrivals
      pools).Satisfies
        (fun packet after => packet.IsOut reassembler.pool ∧
          after.Booked origin (books - alive (arrivals.map Prod.snd) -
            alive reassembler.fragments + lives packet +
              allNoted reassembler.pool (reassembler.deliveryNotes
                (origin.get reassembler.pool).config.chaining deadline
                  arrivals)))
        (fun error after => after.Booked origin (books -
          alive (arrivals.map Prod.snd) - alive reassembler.fragments +
            allNoted reassembler.pool error.notes))
        (fun _ => True) := by
  induction arrivals generalizing latest reassembler pools books with
  | nil =>
      apply Outcome.Satisfies.bind
        (booked.countEvent_satisfies reassembler.pool .timeout)
      intro _ _ noted
      apply (noted.abandon_satisfies [] _).monoRefused
      intro error after ending
      obtain ⟨rfl, bookedAfter⟩ := ending
      apply bookedAfter.of_eq
      simp only [BufferError.notes, allNoted_cons, allNoted_nil, List.map_nil,
        alive_nil]
      abel
  | cons arrival later inductionHypothesis =>
      obtain ⟨now, fragment⟩ := arrival
      refine Outcome.Satisfies.ite ?_ ?_
      · intro _
        apply Outcome.Satisfies.bind
          (booked.countEvent_satisfies reassembler.pool .timeout)
        intro _ _ noted
        apply (noted.abandon_satisfies _ _).monoRefused
        intro error after ending
        obtain ⟨rfl, bookedAfter⟩ := ending
        apply bookedAfter.of_eq
        simp only [BufferError.notes, allNoted_cons, allNoted_nil,
          List.map_cons]
        abel
      · intro notLate
        have inTime := Nat.lt_of_not_le notLate
        have intactFirst := intact (now, fragment) (List.mem_cons_self ..)
        apply Outcome.Satisfies.bind (((reassembler.pushUntil_answered _
          fragment now deadline).and (booked.pushUntil_satisfies held
            intactFirst)).monoRefused fun _ _ impossible =>
              impossible.1.elim)
        intro acceptance after ending
        obtain ⟨⟨same, fits, _⟩, delivered, bookedAfter⟩ := ending
        obtain ⟨answer, next⟩ := acceptance
        have samePool : next.pool = reassembler.pool := by
          dsimp only at same
          rw [same]
          exact (reassembler.judge_keeps fragment now deadline).1
        cases answer with
        | error error =>
            apply (bookedAfter.abandon_satisfies _ _).monoRefused
            intro refusal last ending
            obtain ⟨rfl, bookedLast⟩ := ending
            apply bookedLast.of_eq
            simp only [due.notes_eq inTime, Decision.notes,
              Reassembler.delivered, List.map_cons, alive_cons, alive_nil]
            abel
        | ok joined =>
            cases joined with
            | some packet =>
                have isOut := delivered packet (List.mem_cons_self ..)
                apply Outcome.Satisfies.bind
                  (bookedAfter.dropLeftovers_satisfies _)
                intro _ last bookedLast
                refine Outcome.Satisfies.pure ⟨isOut, bookedLast.of_eq ?_⟩
                simp only [due.notes_eq inTime, deliveryNotes_of_whole fits,
                  Reassembler.delivered, List.map_cons, alive_cons,
                  alive_nil]
                abel
            | none =>
                obtain ⟨dueNext, ⟨tag, tagged⟩, goesOn⟩ :=
                  due.waits inTime fits same later
                have heldNext :=
                  held_judge held (intactFirst tag tagged) same
                have intactLater : ∀ arrival ∈ later, ∀ tag,
                    arrival.2.tag = some tag →
                      arrival.2.isReleased = false :=
                  fun arrival member => intact arrival (.tail _ member)
                apply (inductionHypothesis bookedAfter dueNext heldNext
                  intactLater).mono
                · intro packet last ending
                  obtain ⟨isOut, bookedLast⟩ := ending
                  rw [samePool] at isOut bookedLast
                  refine ⟨isOut, bookedLast.of_eq ?_⟩
                  simp only [due.notes_eq inTime, Decision.notes,
                    deliveryNotes, goesOn, samePool, Reassembler.delivered,
                    List.map_cons, alive_cons, alive_nil, allNoted_nil]
                  abel
                · intro error last noted
                  rw [samePool] at noted
                  apply noted.of_eq
                  simp only [due.notes_eq inTime, Decision.notes,
                    Reassembler.delivered, List.map_cons, alive_cons,
                    alive_nil, allNoted_nil]
                  abel
                · exact fun _ known => known

theorem reassemble_satisfies (booked : pools.Booked origin books)
    {id : PoolId} {deadline : Nat} {arrivals : List (Nat × Packet)}
    (intact : ∀ arrival ∈ arrivals, ∀ tag, arrival.2.tag = some tag →
      arrival.2.isReleased = false) :
    (Pool.reassemble id arrivals deadline choices pools).Satisfies
      (fun packet after => packet.IsOut id ∧
        after.Booked origin (books - alive (arrivals.map Prod.snd) +
          lives packet + allNoted id (Reassembler.deliveryNotes
            ⟨id, (origin.get id).config.reassembly, .empty⟩
            (origin.get id).config.chaining deadline arrivals)))
      (fun error after => after.Booked origin
        (books - alive (arrivals.map Prod.snd) + allNoted id error.notes))
      (fun _ => True) := by
  have fresh : (Reassembler.forPool id pools).Satisfies
      (fun reassembler after => after = pools ∧ reassembler =
        ⟨id, (pools.get id).config.reassembly, .empty⟩)
      (fun _ _ => False) (fun _ => True) :=
    Outcome.Satisfies.readPool (Outcome.Satisfies.pure ⟨rfl, rfl⟩)
  apply Outcome.Satisfies.bind (fresh.monoRefused fun _ _ no => no.elim)
  intro reassembler after ending
  obtain ⟨rfl, rfl⟩ := ending
  rw [booked.config_eq id]
  have holdsNothing : (⟨id, (origin.get id).config.reassembly,
      .empty⟩ : Reassembler).fragments = [] := rfl
  apply (booked.reassembleFrom_satisfies (by simp [Due])
    (by simp [holdsNothing]) intact).mono
  · intro packet last ending
    refine ⟨ending.1, ending.2.of_eq ?_⟩
    rw [holdsNothing, alive_nil, sub_zero]
  · intro error last noted
    apply noted.of_eq
    rw [holdsNothing, alive_nil, sub_zero]
  · exact fun _ known => known

end Pools.Booked

end PooledPackets
