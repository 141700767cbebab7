import PooledPackets.Proofs.Ownership.Returning
import PooledPackets.Proofs.Packets.Refusals

/-!
# What a reassembler decides

What becomes of a fragment is decided by the reassembler alone: the pools only
matter for joining a datagram that is whole. The decision is written down here
without any operation on the pools, and every operation of a reassembler is
shown to follow it.
-/

namespace PooledPackets

open Operation

namespace Reassembler

/-! ## Decisions -/

/-- What a fragment comes to. -/
inductive Decision where
  | refused (error : BufferError)
  /-- The fragment is held; its datagram is not whole yet. -/
  | waiting
  /-- The datagram is whole and is to be joined. -/
  | whole (assembly : Assembly)

namespace Decision

/-- The datagram that is to be joined, if there is one. -/
def whole? : Decision → Option Assembly
  | .whole assembly => some assembly
  | _ => none

theorem whole?_eq_some_iff {decision : Decision} {assembly : Assembly} :
    decision.whole? = some assembly ↔ decision = .whole assembly := by
  cases decision <;> simp [whole?]

end Decision

/-- The reassembler without the datagrams that are late. -/
def swept (reassembler : Reassembler) (now : Nat) : Reassembler :=
  { reassembler with
    pending := reassembler.pending.filter
      fun _ assembly => !decide (assembly.deadline ≤ now) }

/-- The datagrams that are late, by ascending number. -/
def late (reassembler : Reassembler) (now : Nat) : List Nat :=
  (reassembler.pending.filter
    fun _ assembly => decide (assembly.deadline ≤ now)).keys

/-- The fragments of the datagrams that are late. -/
def lateFragments (reassembler : Reassembler) (now : Nat) : List Packet :=
  (reassembler.pending.filter
    fun _ assembly => decide (assembly.deadline ≤ now)).values.flatMap
      Assembly.fragments

/-- The reassembler with all its datagrams dropped. -/
def cleared (reassembler : Reassembler) : Reassembler :=
  { reassembler with pending := .empty }

/-- The reassembler with room made for a new datagram, if it was full. -/
def roomy (reassembler : Reassembler) (datagram now : Nat) : Reassembler :=
  if !reassembler.pending.contains datagram &&
      decide (reassembler.limits.maxDatagrams ≤ reassembler.inFlight) then
    reassembler.swept now
  else reassembler

/-- The fragments that are dropped to make room for a new datagram. -/
def evicted (reassembler : Reassembler) (datagram now : Nat) : List Packet :=
  if !reassembler.pending.contains datagram &&
      decide (reassembler.limits.maxDatagrams ≤ reassembler.inFlight) then
    reassembler.lateFragments now
  else []

/-- What adding a fragment to its datagram comes to. -/
def judgeAdded (reassembler : Reassembler) (assembly : Assembly)
    (tag : FragmentTag) (fragment : Packet) : Decision × Reassembler :=
  match assembly.insert tag fragment reassembler.limits.holdLimit with
  | .error error =>
      (.refused error, reassembler.without tag.datagram.toNat)
  | .ok longer =>
      if longer.isComplete then
        (.whole longer, reassembler.without tag.datagram.toNat)
      else (.waiting, reassembler.having tag.datagram.toNat longer)

/-- What a tagged fragment comes to where there is room for its datagram, as
far as there can be. -/
def judgeTagged (reassembler : Reassembler) (tag : FragmentTag)
    (fragment : Packet) (now deadline : Nat) : Decision × Reassembler :=
  match reassembler.pending.get? tag.datagram.toNat with
  | some assembly =>
      if assembly.deadline ≤ now then
        (.refused (.reassemblyTimeout tag.datagram),
          reassembler.without tag.datagram.toNat)
      else reassembler.judgeAdded assembly tag fragment
  | none =>
      if reassembler.limits.maxDatagrams ≤ reassembler.inFlight then
        (.refused (.tooManyDatagrams reassembler.limits.maxDatagrams),
          reassembler)
      else reassembler.judgeAdded (.begun deadline) tag fragment

/-- What a fragment that arrives at `now` comes to. -/
def judge (reassembler : Reassembler) (fragment : Packet)
    (now deadline : Nat) : Decision × Reassembler :=
  match fragment.tag with
  | none => (.refused .notAFragment, reassembler)
  | some tag =>
      (reassembler.roomy tag.datagram.toNat now).judgeTagged tag fragment
        now deadline

/-- The answer to a fragment is the one decided on. A whole datagram is either
joined or could not be joined. -/
def Decision.Fits :
    Decision → Except BufferError (Option Packet) → Prop
  | .refused error, answer => answer = .error error
  | .waiting, answer => answer = .ok none
  | .whole _, answer => answer ≠ .ok none

/-- The answer fits the decision; if a whole datagram could not be joined, that
is for the sake of its payload. -/
def Decision.Answered (decision : Decision)
    (answer : Except BufferError (Option Packet)) : Prop :=
  decision.Fits answer ∧
    ∀ assembly error, decision = .whole assembly → answer = .error error →
      error.ofPayload = true

theorem Decision.Answered.refused (error : BufferError) :
    (Decision.refused error).Answered (.error error) :=
  ⟨rfl, fun _ _ impossible => by cases impossible⟩

theorem Decision.Answered.waiting : Decision.waiting.Answered (.ok none) :=
  ⟨rfl, fun _ _ impossible => by cases impossible⟩

/-! ## What the decisions keep -/

@[simp]
theorem judgeAdded_pool (reassembler : Reassembler) (assembly : Assembly)
    (tag : FragmentTag) (fragment : Packet) :
    (reassembler.judgeAdded assembly tag fragment).2.pool =
      reassembler.pool := by
  unfold judgeAdded
  split
  · rfl
  · split
    · rfl
    · rfl

@[simp]
theorem judgeAdded_limits (reassembler : Reassembler) (assembly : Assembly)
    (tag : FragmentTag) (fragment : Packet) :
    (reassembler.judgeAdded assembly tag fragment).2.limits =
      reassembler.limits := by
  unfold judgeAdded
  split
  · rfl
  · split
    · rfl
    · rfl

theorem roomy_eq_or (reassembler : Reassembler) (datagram now : Nat) :
    reassembler.roomy datagram now = reassembler.swept now ∨
      reassembler.roomy datagram now = reassembler := by
  unfold roomy
  split
  · exact Or.inl rfl
  · exact Or.inr rfl

@[simp]
theorem roomy_pool (reassembler : Reassembler) (datagram now : Nat) :
    (reassembler.roomy datagram now).pool = reassembler.pool := by
  rcases reassembler.roomy_eq_or datagram now with isSwept | isSame
  · rw [isSwept]
    rfl
  · rw [isSame]

@[simp]
theorem roomy_limits (reassembler : Reassembler) (datagram now : Nat) :
    (reassembler.roomy datagram now).limits = reassembler.limits := by
  rcases reassembler.roomy_eq_or datagram now with isSwept | isSame
  · rw [isSwept]
    rfl
  · rw [isSame]

/-- The pool and the limits of a reassembler never change. -/
theorem judge_keeps (reassembler : Reassembler) (fragment : Packet)
    (now deadline : Nat) :
    (reassembler.judge fragment now deadline).2.pool = reassembler.pool ∧
      (reassembler.judge fragment now deadline).2.limits =
        reassembler.limits := by
  unfold judge
  split
  · exact ⟨rfl, rfl⟩
  · rename_i tag _
    unfold judgeTagged
    split
    · split
      · simp [without]
      · simp
    · split
      · simp
      · simp

/-! ## The operations follow the decisions -/

variable {pools : Pools}

theorem countTimeout_ends (pool : PoolId) :
    (countTimeout pool pools).Satisfies (fun _ _ => True)
      (fun _ _ => False) (fun _ => True) :=
  trivial

theorem expire_returns (reassembler : Reassembler) (now : Nat) :
    (reassembler.expire now pools).Satisfies
      (fun result after =>
        result = (reassembler.late now, reassembler.swept now) ∧
        pools.GetsBack
          ((reassembler.lateFragments now).flatMap Packet.chain) after)
      (fun _ _ => False) (fun _ => True) :=
  Outcome.Satisfies.bind (dropLate_returns reassembler.pool _ pools)
    (fun _ _ regained => ⟨rfl, regained⟩)

theorem expire_decided (reassembler : Reassembler) (now : Nat) :
    (reassembler.expire now pools).Satisfies
      (fun result _ =>
        result = (reassembler.late now, reassembler.swept now))
      (fun _ _ => False) (fun _ => True) :=
  (reassembler.expire_returns now).monoDone fun _ _ known => known.1

theorem clear_decided (reassembler : Reassembler) (choices : List Nat) :
    (reassembler.clear choices pools).Satisfies
      (fun result _ => result = reassembler.cleared)
      (fun _ _ => False) (fun _ => True) :=
  Outcome.Satisfies.bind (dropDatagrams_returns _ pools)
    (fun _ _ _ => rfl)

theorem makeRoom_returns (reassembler : Reassembler) (datagram : Nat)
    (fragment : Packet) (now : Nat) :
    (reassembler.makeRoom datagram fragment now pools).Satisfies
      (fun result after => result = reassembler.roomy datagram now ∧
        pools.GetsBack
          ((reassembler.evicted datagram now).flatMap Packet.chain) after)
      (fun _ _ => False) (fun _ => True) := by
  unfold makeRoom
  refine Outcome.Satisfies.ite ?_ ?_
  · intro full
    apply Outcome.Satisfies.bind
      ((reassembler.expire_returns now).holding fun _ _ _ => trivial)
    rintro _ _ ⟨rfl, regained⟩
    simp only [roomy, evicted, full, if_true]
    exact Outcome.Satisfies.pure ⟨rfl, regained⟩
  · intro notFull
    simp only [roomy, evicted, notFull]
    exact Outcome.Satisfies.pure ⟨rfl, Pools.GetsBack.refl pools⟩

theorem giveUp_decided (reassembler : Reassembler) (hand : Hand)
    (assembly : Assembly) (tag : FragmentTag) (fragment : Packet)
    (error : BufferError) :
    (reassembler.giveUp hand assembly tag fragment error pools).Satisfies
      (fun acceptance _ => acceptance =
        (.error error, reassembler.without tag.datagram.toNat))
      (fun _ _ => False) (fun _ => True) := by
  apply Outcome.Satisfies.bind
    ((fragment.drop_returns _).holding fun _ _ _ => trivial)
  intro _ _ _
  apply Outcome.Satisfies.bind
    ((Packet.dropAll_returns assembly.fragments _).holding
      fun _ _ _ => trivial)
  intro _ _ _
  cases error <;> rfl

theorem add_decided (reassembler : Reassembler) (hand : Hand)
    (assembly : Assembly) (tag : FragmentTag) (fragment : Packet) :
    (reassembler.add hand assembly tag fragment pools).Satisfies
      (fun acceptance _ =>
        acceptance.2 =
          (reassembler.judgeAdded assembly tag fragment).2 ∧
        (reassembler.judgeAdded assembly tag fragment).1.Answered
          acceptance.1)
      (fun _ _ => False) (fun _ => True) := by
  unfold add judgeAdded
  cases assembly.insert tag fragment reassembler.limits.holdLimit with
  | error error =>
      apply (reassembler.giveUp_decided hand assembly tag fragment
        error).monoDone
      rintro _ _ rfl
      exact ⟨rfl, .refused error⟩
  | ok longer =>
      refine Outcome.Satisfies.ite ?_ ?_
      · intro complete
        apply Outcome.Satisfies.bind
          (Outcome.Satisfies.holding
            (Reassembly.join_lacksOnly _ longer pools).attempt
            fun _ _ _ => trivial)
        intro joined _ known
        simp only [complete, if_true]
        refine Outcome.Satisfies.pure ⟨rfl, ?_⟩
        cases joined with
        | error error =>
            refine ⟨by simp [Decision.Fits, Except.map], ?_⟩
            rintro _ _ _ ⟨⟩
            exact known
        | ok packet =>
            exact ⟨by simp [Decision.Fits, Except.map], by
              simp [Except.map]⟩
      · intro incomplete
        simp only [incomplete]
        exact Outcome.Satisfies.pure ⟨rfl, .waiting⟩

/-- Once a deadline is fixed, the state that a fragment leads to and the kind
of answer to it do not depend on the pools. -/
theorem pushUntil_answered (reassembler : Reassembler) (hand : Hand)
    (fragment : Packet) (now deadline : Nat) :
    (reassembler.pushUntil hand fragment now deadline pools).Satisfies
      (fun acceptance _ =>
        acceptance.2 = (reassembler.judge fragment now deadline).2 ∧
        (reassembler.judge fragment now deadline).1.Answered acceptance.1)
      (fun _ _ => False) (fun _ => True) := by
  cases tagged : fragment.tag with
  | none =>
      simp only [pushUntil, judge, tagged]
      apply Outcome.Satisfies.bind
        ((fragment.drop_returns _).holding fun _ _ _ => trivial)
      exact fun _ _ _ => Outcome.Satisfies.pure ⟨rfl, .refused _⟩
  | some tag =>
      simp only [pushUntil, judge, tagged]
      apply Outcome.Satisfies.bind
        (reassembler.makeRoom_returns tag.datagram.toNat fragment now)
      rintro _ _ ⟨rfl, _⟩
      generalize reassembler.roomy tag.datagram.toNat now = roomy
      unfold judgeTagged
      cases roomy.pending.get? tag.datagram.toNat with
      | some assembly =>
          refine Outcome.Satisfies.ite ?_ ?_
          · intro isLate
            simp only [isLate, if_true]
            apply Outcome.Satisfies.bind
              ((Packet.dropAll_returns assembly.fragments _).holding
                fun _ _ _ => trivial)
            intro _ after _
            apply Outcome.Satisfies.bind
              (countTimeout_ends roomy.pool)
            intro _ _ _
            apply Outcome.Satisfies.bind
              ((fragment.drop_returns _).holding fun _ _ _ => trivial)
            exact fun _ _ _ => Outcome.Satisfies.pure ⟨rfl, .refused _⟩
          · intro inTime
            simp only [inTime]
            exact roomy.add_decided hand assembly tag fragment
      | none =>
          refine Outcome.Satisfies.ite ?_ ?_
          · intro full
            simp only [full, if_true]
            apply Outcome.Satisfies.bind
              ((fragment.drop_returns _).holding fun _ _ _ => trivial)
            exact fun _ _ _ => Outcome.Satisfies.pure ⟨rfl, .refused _⟩
          · intro hasRoom
            simp only [hasRoom]
            exact roomy.add_decided hand (.begun deadline) tag fragment

theorem push_eq {reassembler : Reassembler} {fragment : Packet}
    {now deadline : Nat}
    (reading : reassembler.limits.timeout.after? now = some deadline)
    (pools : Pools) :
    reassembler.push fragment now pools =
      reassembler.pushUntil (fun _ => []) fragment now deadline pools := by
  rw [push, reading]

theorem push_answered (reassembler : Reassembler) (fragment : Packet)
    (now : Nat) :
    (reassembler.push fragment now pools).Satisfies
      (fun acceptance _ => ∃ deadline,
        reassembler.limits.timeout.after? now = some deadline ∧
        acceptance.2 = (reassembler.judge fragment now deadline).2 ∧
        (reassembler.judge fragment now deadline).1.Answered acceptance.1)
      (fun _ _ => False) (fun _ => True) := by
  unfold push
  cases reading : reassembler.limits.timeout.after? now with
  | none => exact Outcome.Satisfies.holding trivial fun _ _ _ => trivial
  | some deadline =>
      apply (reassembler.pushUntil_answered (fun _ => []) fragment now
        deadline).monoDone
      exact fun acceptance _ known => ⟨deadline, rfl, known⟩

theorem push_decided (reassembler : Reassembler) (fragment : Packet)
    (now : Nat) :
    (reassembler.push fragment now pools).Satisfies
      (fun acceptance _ => ∃ deadline,
        reassembler.limits.timeout.after? now = some deadline ∧
        acceptance.2 = (reassembler.judge fragment now deadline).2 ∧
        (reassembler.judge fragment now deadline).1.Fits acceptance.1)
      (fun _ _ => False) (fun _ => True) := by
  apply (reassembler.push_answered fragment now).monoDone
  intro acceptance _ ending
  obtain ⟨deadline, reading, same, answered⟩ := ending
  exact ⟨deadline, reading, same, answered.1⟩

end Reassembler

end PooledPackets
