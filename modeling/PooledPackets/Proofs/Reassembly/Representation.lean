import PooledPackets.Proofs.Reassembly.Accounting

/-!
# The states of a reassembler

In every state that a reassembler can come to, each of its datagrams is
incomplete, holds some fragment and keeps the account of its fragments.
-/

namespace PooledPackets

/-- A datagram as it is kept from one fragment to the next. -/
structure Assembly.Pending (assembly : Assembly)
    (datagram holdLimit : Nat) : Prop extends
    assembly.Accounted datagram holdLimit where
  nonempty : assembly.held.entries ≠ []
  incomplete : assembly.isComplete = false

/-- An insertion of which something is left is into a datagram with some
fragment. -/
theorem Assembly.Accounted.pending {assembly longer : Assembly}
    {tag : FragmentTag} {fragment : Packet} {datagram holdLimit : Nat}
    (accounted : assembly.Accounted datagram holdLimit)
    (tagged : fragment.tag = some tag)
    (isDatagram : tag.datagram.toNat = datagram)
    (inserting : assembly.insert tag fragment holdLimit = .ok longer)
    (incomplete : longer.isComplete = false) :
    longer.Pending datagram holdLimit where
  toAccounted := accounted.insert tagged isDatagram inserting
  nonempty := by
    have held := (fragments_of_insert inserting).length_eq
    intro none
    simp [fragments, Table.values, none] at held
  incomplete := incomplete

namespace Reassembler

/-- The states that a reassembler of a pool can come to, in whatever state the
pools are when it is used, and whatever fragments it is handed. -/
inductive Reachable (id : PoolId) (limits : ReassemblyLimits) :
    Reassembler → Prop
  | fresh : Reachable id limits ⟨id, limits, .empty⟩
  | push {reassembler after : Reassembler} {fragment : Packet} {now : Nat}
      {answer : Except BufferError (Option Packet)} {pools pools' : Pools}
      (reached : Reachable id limits reassembler)
      (pushed : reassembler.push fragment now pools =
        .done (answer, after) pools') : Reachable id limits after
  | expire {reassembler after : Reassembler} {now : Nat} {late : List Nat}
      {pools pools' : Pools} (reached : Reachable id limits reassembler)
      (expired : reassembler.expire now pools =
        .done (late, after) pools') : Reachable id limits after
  | clear {reassembler after : Reassembler} {choices : List Nat}
      {pools pools' : Pools} (reached : Reachable id limits reassembler)
      (cleared : reassembler.clear choices pools = .done after pools') :
      Reachable id limits after

/-- No more datagrams are incomplete than may be, and each of them keeps its
account. -/
structure Accounted (reassembler : Reassembler) : Prop where
  inFlight_le :
    reassembler.inFlight ≤ reassembler.limits.maxDatagrams
  pending : ∀ datagram assembly,
    reassembler.pending.get? datagram = some assembly →
      assembly.Pending datagram reassembler.limits.holdLimit

namespace Accounted

variable {reassembler : Reassembler}

theorem fresh (id : PoolId) (limits : ReassemblyLimits) :
    (⟨id, limits, .empty⟩ : Reassembler).Accounted where
  inFlight_le := Nat.zero_le _
  pending := by simp

theorem cleared (reassembler : Reassembler) :
    reassembler.cleared.Accounted :=
  fresh reassembler.pool reassembler.limits

theorem without (accounted : reassembler.Accounted) (datagram : Nat) :
    (reassembler.without datagram).Accounted where
  inFlight_le := Nat.le_trans (Table.size_erase_le _ _)
    accounted.inFlight_le
  pending := fun other assembly found => by
    simp only [Reassembler.without, Table.get?_erase] at found
    split at found
    · cases found
    · exact accounted.pending other assembly found

theorem swept (accounted : reassembler.Accounted) (now : Nat) :
    (reassembler.swept now).Accounted where
  inFlight_le := Nat.le_trans (List.length_filter_le _ _)
    accounted.inFlight_le
  pending := fun datagram assembly found => by
    apply accounted.pending datagram assembly
    rw [Table.get?_eq_some_iff] at found ⊢
    exact (List.mem_filter.mp found).1

theorem roomy (accounted : reassembler.Accounted) (datagram now : Nat) :
    (reassembler.roomy datagram now).Accounted := by
  rcases reassembler.roomy_eq_or datagram now with isSwept | isSame
  · rw [isSwept]
    exact accounted.swept now
  · rw [isSame]
    exact accounted

/-- A datagram may be put in its place if it was there before or there is room
for another one. -/
theorem having (accounted : reassembler.Accounted) {datagram : Nat}
    {assembly : Assembly}
    (isPending : assembly.Pending datagram reassembler.limits.holdLimit)
    (room : reassembler.pending.get? datagram = none →
      reassembler.inFlight < reassembler.limits.maxDatagrams) :
    (reassembler.having datagram assembly).Accounted where
  inFlight_le := by
    simp only [inFlight, Reassembler.having]
    cases found : reassembler.pending.get? datagram with
    | none =>
        rw [Table.size_insert_of_absent found]
        exact room found
    | some held =>
        rw [Table.size_insert_of_present found]
        exact accounted.inFlight_le
  pending := fun other isOther found => by
    simp only [Reassembler.having, Table.get?_insert] at found
    split at found
    · rename_i same
      cases found
      exact same ▸ isPending
    · exact accounted.pending other isOther found

theorem assemblyFor (accounted : reassembler.Accounted)
    (datagram deadline : Nat) :
    (reassembler.assemblyFor datagram deadline).Accounted datagram
      reassembler.limits.holdLimit := by
  rw [Reassembler.assemblyFor]
  cases found : reassembler.pending.get? datagram with
  | none => exact Assembly.accounted_begun deadline datagram _
  | some assembly =>
      exact (accounted.pending datagram assembly found).toAccounted

theorem judge (accounted : reassembler.Accounted) (fragment : Packet)
    (now deadline : Nat) :
    (reassembler.judge fragment now deadline).2.Accounted := by
  have verdict := reassembler.judged fragment now deadline
  generalize reassembler.judge fragment now deadline = decided at verdict ⊢
  cases verdict with
  | untagged _ => exact accounted
  | refused error tagged => exact (accounted.roomy _ now).without _
  | @waiting tag longer tagged inserting incomplete room =>
      have before := accounted.assemblyFor tag.datagram.toNat deadline
      apply (accounted.roomy _ now).having
      · rw [roomy_limits]
        exact before.pending tagged rfl inserting incomplete
      · rw [roomy_limits]
        exact room
  | whole tagged inserting complete =>
      exact (accounted.roomy _ now).without _

end Accounted

theorem Reachable.invariant {id : PoolId} {limits : ReassemblyLimits}
    {reassembler : Reassembler}
    (reached : Reachable id limits reassembler) :
    reassembler.pool = id ∧ reassembler.limits = limits ∧
      reassembler.Accounted := by
  induction reached with
  | fresh => exact ⟨rfl, rfl, .fresh id limits⟩
  | @push reassembler after fragment now answer pools _ _ pushed
      inductionHypothesis =>
      obtain ⟨samePool, sameLimits, accounted⟩ := inductionHypothesis
      have decided := @push_decided pools reassembler fragment now
      rw [pushed] at decided
      obtain ⟨deadline, _, rfl, _⟩ := decided
      have keeps := reassembler.judge_keeps fragment now deadline
      exact ⟨keeps.1.trans samePool, keeps.2.trans sameLimits,
        accounted.judge fragment now deadline⟩
  | @expire reassembler after now late pools _ _ expired
      inductionHypothesis =>
      obtain ⟨samePool, sameLimits, accounted⟩ := inductionHypothesis
      have decided := @expire_decided pools reassembler now
      rw [expired] at decided
      cases decided
      exact ⟨samePool, sameLimits, accounted.swept now⟩
  | @clear reassembler after choices pools _ _ cleared
      inductionHypothesis =>
      obtain ⟨samePool, sameLimits, _⟩ := inductionHypothesis
      have decided := @clear_decided pools reassembler choices
      rw [cleared] at decided
      cases decided
      exact ⟨samePool, sameLimits, .cleared reassembler⟩

/-- In every reachable state the accounts are right; and when a fragment that
is accepted continues a front, the detached fragments that it takes along are
among those counted. -/
theorem Reachable.accounts_right {id : PoolId} {limits : ReassemblyLimits}
    {reassembler : Reassembler}
    (reached : Reachable id limits reassembler) :
    reassembler.inFlight ≤ limits.maxDatagrams ∧
    ∀ datagram assembly,
      reassembler.pending.get? datagram = some assembly →
      assembly.Pending datagram limits.holdLimit ∧
      ∀ tag fragment longer,
        assembly.insert tag fragment limits.holdLimit = .ok longer →
        tag.offset = assembly.frontEnd →
        (Assembly.follow (tag.offset + fragment.length)
          (assembly.held.entriesFrom
            (tag.offset + fragment.length))).2 ≤ assembly.detached := by
  obtain ⟨_, rfl, accounted⟩ := reached.invariant
  refine ⟨accounted.inFlight_le, fun datagram assembly found => ?_⟩
  have isPending := accounted.pending datagram assembly found
  refine ⟨isPending, fun tag fragment longer inserting atFront => ?_⟩
  obtain ⟨free, _⟩ := Assembly.insert_eq_ok_iff.mp inserting
  exact isPending.follow_le free atFront

/-- A detached fragment and an empty one in front of it are both held. -/
theorem accounts_right_of_two :
    ∃ reassembler assembly,
      Reachable 0 ⟨1, 1, .ofSeconds 1⟩ reassembler ∧
      reassembler.pending.get? 7 = some assembly ∧
      assembly.held.keys = [0, 4] ∧ assembly.Pending 7 1 := by
  have one : Reachable 0 ⟨1, 1, .ofSeconds 1⟩ _ := .push .fresh
    (rfl : Reassembler.push _
      { Packet.ofSegments 0 [] with length := 2, tag := some ⟨7, 4, true⟩ }
      0 default = .done (.ok none, _) default)
  have two : Reachable 0 ⟨1, 1, .ofSeconds 1⟩ _ := .push one
    (rfl : Reassembler.push _
      { Packet.ofSegments 0 [] with tag := some ⟨7, 0, true⟩ }
      1 default = .done (.ok none, _) default)
  exact ⟨_, _, two, rfl, rfl, (two.accounts_right.2 7 _ rfl).1⟩

end Reassembler

end PooledPackets
