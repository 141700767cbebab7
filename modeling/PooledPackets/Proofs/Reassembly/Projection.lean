import Mathlib.Data.List.Perm.Subperm
import PooledPackets.Proofs.Ownership.Reassembling
import PooledPackets.Proofs.Reassembly.Resemblance

/-!
# One datagram among others

As long as there is room for every datagram that occurs, what a reassembler
decides about the fragments of one datagram depends only on what it holds for
that datagram.
-/

namespace PooledPackets.Reassembler

variable {reassembler other : Reassembler} {fragment fragment' : Packet}
variable {tag : FragmentTag} {datagram number now deadline : Nat}

/-! ## Deciding where there is room -/

theorem roomy_of_room (room : reassembler.HasRoom datagram) (now : Nat) :
    reassembler.roomy datagram now = reassembler := by
  rcases room with present | fits
  · simp [roomy, present]
  · simp [roomy, Nat.not_le_of_lt fits]

theorem not_full_of_room (room : reassembler.HasRoom datagram)
    (absent : reassembler.pending.get? datagram = none) :
    ¬(reassembler.limits.maxDatagrams ≤ reassembler.inFlight) := by
  rcases room with present | fits
  · simp [Table.contains, absent] at present
  · exact Nat.not_le_of_lt fits

/-- Where there is room, a decision looks at nothing but the datagram. -/
theorem judge_of_room (tagged : fragment.tag = some tag)
    (room : reassembler.HasRoom tag.datagram.toNat) :
    reassembler.judge fragment now deadline =
      match reassembler.pending.get? tag.datagram.toNat with
      | some assembly =>
          if assembly.deadline ≤ now then
            (.refused (.reassemblyTimeout tag.datagram),
              reassembler.without tag.datagram.toNat)
          else reassembler.judgeAdded assembly tag fragment
      | none => reassembler.judgeAdded (.begun deadline) tag fragment := by
  simp only [judge, tagged, roomy_of_room room, judgeTagged]
  cases found : reassembler.pending.get? tag.datagram.toNat with
  | some assembly => rfl
  | none => exact if_neg (not_full_of_room room found)

/-! ## The datagram itself -/

/-- Decisions that differ at most in the segments of a whole datagram. -/
inductive Decision.Resembles : Decision → Decision → Prop
  | refused (error : BufferError) :
      Resembles (.refused error) (.refused error)
  | waiting : Resembles .waiting .waiting
  | whole {assembly assembly' : Assembly}
      (alike : assembly.Resembles assembly') :
      Resembles (.whole assembly) (.whole assembly')

/-- Reassemblers for one pool, with the same limits, that hold the same of one
datagram. -/
structure AgreeOn (datagram : Nat) (reassembler other : Reassembler) :
    Prop where
  pool_eq : reassembler.pool = other.pool
  limits_eq : reassembler.limits = other.limits
  pending : Option.Rel Assembly.Resembles
    (reassembler.pending.get? datagram) (other.pending.get? datagram)

namespace AgreeOn

theorem without (agree : AgreeOn datagram reassembler other) :
    AgreeOn datagram (reassembler.without datagram)
      (other.without datagram) := by
  refine ⟨agree.pool_eq, agree.limits_eq, ?_⟩
  simp only [Reassembler.without, Table.get?_erase, if_true]
  exact .none

theorem having (agree : AgreeOn datagram reassembler other)
    {assembly assembly' : Assembly} (alike : assembly.Resembles assembly') :
    AgreeOn datagram (reassembler.having datagram assembly)
      (other.having datagram assembly') := by
  refine ⟨agree.pool_eq, agree.limits_eq, ?_⟩
  simp only [Reassembler.having, Table.get?_insert, if_true]
  exact .some alike

theorem judgeAdded
    (agree : AgreeOn tag.datagram.toNat reassembler other)
    {assembly assembly' : Assembly} (alike : assembly.Resembles assembly')
    (same : fragment.Resembles fragment') :
    (reassembler.judgeAdded assembly tag fragment).1.Resembles
        (other.judgeAdded assembly' tag fragment').1 ∧
      AgreeOn tag.datagram.toNat
        (reassembler.judgeAdded assembly tag fragment).2
        (other.judgeAdded assembly' tag fragment').2 := by
  unfold Reassembler.judgeAdded
  rw [← agree.limits_eq]
  rcases alike.insert same tag reassembler.limits.holdLimit with
    ⟨error, refused, refused'⟩ | ⟨longer, longer', added, added', grown⟩
  · rw [refused, refused']
    exact ⟨.refused error, agree.without⟩
  · rw [added, added']
    dsimp only
    rw [grown.isComplete_eq]
    split
    · exact ⟨.whole grown, agree.without⟩
    · exact ⟨.waiting, agree.having grown⟩

/-- The same fragment comes to the same wherever the same is held. -/
theorem judge (agree : AgreeOn tag.datagram.toNat reassembler other)
    (same : fragment.Resembles fragment')
    (tagged : fragment.tag = some tag)
    (room : reassembler.HasRoom tag.datagram.toNat)
    (roomOther : other.HasRoom tag.datagram.toNat) :
    (reassembler.judge fragment now deadline).1.Resembles
        (other.judge fragment' now deadline).1 ∧
      AgreeOn tag.datagram.toNat (reassembler.judge fragment now deadline).2
        (other.judge fragment' now deadline).2 := by
  have taggedOther : fragment'.tag = some tag := same.tag_eq ▸ tagged
  rw [judge_of_room tagged room, judge_of_room taggedOther roomOther]
  have held := agree.pending
  generalize reassembler.pending.get? tag.datagram.toNat = found,
    other.pending.get? tag.datagram.toNat = found' at held
  cases held with
  | none => exact agree.judgeAdded (.begun deadline) same
  | @some assembly assembly' alike =>
      dsimp only
      rw [alike.deadline_eq]
      split
      · exact ⟨.refused _, agree.without⟩
      · exact agree.judgeAdded alike same

/-- Late datagrams are dropped from both, or from neither. -/
theorem swept (agree : AgreeOn datagram reassembler other) (now : Nat) :
    AgreeOn datagram (reassembler.swept now) (other.swept now) := by
  refine ⟨agree.pool_eq, agree.limits_eq, ?_⟩
  have held := agree.pending
  simp only [Reassembler.swept, Table.get?_filter]
  generalize reassembler.pending.get? datagram = found,
    other.pending.get? datagram = found' at held
  cases held with
  | none => exact .none
  | @some assembly assembly' alike =>
      simp only [Option.filter, alike.deadline_eq]
      split
      · exact .some alike
      · exact .none

end AgreeOn

theorem mem_late_iff : datagram ∈ reassembler.late now ↔
    ∃ assembly, reassembler.pending.get? datagram = some assembly ∧
      assembly.deadline ≤ now := by
  simp only [late, Table.keys, Table.filter, List.mem_map, List.mem_filter,
    decide_eq_true_eq]
  constructor
  · rintro ⟨⟨key, assembly⟩, ⟨member, isLate⟩, rfl⟩
    exact ⟨assembly, Table.get?_eq_some_iff.mpr member, isLate⟩
  · rintro ⟨assembly, found, isLate⟩
    exact ⟨(datagram, assembly),
      ⟨Table.get?_eq_some_iff.mp found, isLate⟩, rfl⟩

theorem AgreeOn.mem_late_iff (agree : AgreeOn datagram reassembler other)
    (now : Nat) :
    datagram ∈ reassembler.late now ↔ datagram ∈ other.late now := by
  rw [Reassembler.mem_late_iff, Reassembler.mem_late_iff]
  have held := agree.pending
  generalize reassembler.pending.get? datagram = found,
    other.pending.get? datagram = found' at held
  cases held with
  | none => simp
  | some alike => simp [alike.deadline_eq]

/-! ## The other datagrams -/

/-- A fragment leaves the other datagrams alone where there is room for its
own. -/
theorem get?_judge_of_ne (tagged : fragment.tag = some tag)
    (room : reassembler.HasRoom tag.datagram.toNat)
    (different : datagram ≠ tag.datagram.toNat) :
    (reassembler.judge fragment now deadline).2.pending.get? datagram =
      reassembler.pending.get? datagram := by
  have verdict := reassembler.judged fragment now deadline
  generalize reassembler.judge fragment now deadline = decided at verdict ⊢
  cases verdict with
  | untagged noTag => rfl
  | refused error isTag =>
      rw [tagged] at isTag
      cases isTag
      simp [without, roomy_of_room room, different]
  | waiting isTag _ _ _ =>
      rw [tagged] at isTag
      cases isTag
      simp [having, roomy_of_room room, different]
  | whole isTag _ _ =>
      rw [tagged] at isTag
      cases isTag
      simp [without, roomy_of_room room, different]

/-! ## Room for all -/

/-- A reassembler that holds nothing but its own pool's fragments of some
datagrams, and has room for all of these. -/
structure Confined (reassembler : Reassembler) (numbers : List Nat) :
    Prop where
  few : numbers.length ≤ reassembler.limits.maxDatagrams
  held : ∀ number assembly,
    reassembler.pending.get? number = some assembly →
      number ∈ numbers ∧
      ∀ part ∈ assembly.fragments, part.pool = reassembler.pool

namespace Confined

variable {numbers : List Nat}

theorem hasRoom (confined : reassembler.Confined numbers)
    (member : number ∈ numbers) : reassembler.HasRoom number := by
  by_cases present : reassembler.pending.contains number = true
  · exact Or.inl present
  · have absent : reassembler.pending.get? number = none :=
      Table.contains_eq_false_iff.mp (by simpa using present)
    have inUse : reassembler.pending.keys ⊆ numbers.erase number := by
      intro key isKey
      obtain ⟨⟨used, assembly⟩, isEntry, rfl⟩ := List.mem_map.mp isKey
      have found := Table.get?_eq_some_iff.mpr isEntry
      have different : used ≠ number := by
        rintro rfl
        simp [absent] at found
      exact (List.mem_erase_of_ne different).mpr
        (confined.held used assembly found).1
    have once : reassembler.pending.keys.Nodup :=
      (List.pairwise_map.mpr reassembler.pending.ascending).imp Nat.ne_of_lt
    have counted := (List.subperm_of_subset once inUse).length_le
    have sizes : reassembler.pending.keys.length = reassembler.inFlight :=
      List.length_map ..
    rw [sizes, List.length_erase_of_mem member] at counted
    have few := confined.few
    have some := List.length_pos_of_mem member
    exact Or.inr (by omega)

theorem swept (confined : reassembler.Confined numbers) (now : Nat) :
    (reassembler.swept now).Confined numbers := by
  refine ⟨confined.few, ?_⟩
  intro number assembly found
  rw [Reassembler.swept, Table.get?_filter, Option.filter_eq_some_iff]
    at found
  exact confined.held number assembly found.1

theorem without (confined : reassembler.Confined numbers)
    (datagram : Nat) : (reassembler.without datagram).Confined numbers := by
  refine ⟨confined.few, ?_⟩
  intro number assembly found
  simp only [Reassembler.without, Table.get?_erase] at found
  split at found
  · cases found
  · exact confined.held number assembly found

theorem having (confined : reassembler.Confined numbers)
    (listed : datagram ∈ numbers) {longer : Assembly}
    (own : ∀ part ∈ longer.fragments, part.pool = reassembler.pool) :
    (reassembler.having datagram longer).Confined numbers := by
  refine ⟨confined.few, ?_⟩
  intro number assembly found
  simp only [Reassembler.having, Table.get?_insert] at found
  split at found
  · rename_i isDatagram
    cases found
    exact ⟨isDatagram ▸ listed, own⟩
  · exact confined.held number assembly found

/-- A datagram that gets a fragment of the reassembler's own pool. -/
theorem own_of_insert (confined : reassembler.Confined numbers)
    (own : fragment.pool = reassembler.pool) {longer : Assembly}
    (inserting : (reassembler.assemblyFor datagram deadline).insert tag
      fragment reassembler.limits.holdLimit = .ok longer) :
    ∀ part ∈ longer.fragments, part.pool = reassembler.pool := by
  intro part member
  have grown := Assembly.fragments_of_insert inserting
  rcases List.mem_cons.mp (grown.mem_iff.mp member) with rfl | wasHeld
  · exact own
  · rw [assemblyFor] at wasHeld
    cases found : reassembler.pending.get? datagram with
    | none =>
        rw [found, Option.getD_none, Assembly.fragments_begun] at wasHeld
        cases wasHeld
    | some assembly =>
        rw [found, Option.getD_some] at wasHeld
        exact (confined.held datagram assembly found).2 part wasHeld

theorem judge (confined : reassembler.Confined numbers)
    (tagged : fragment.tag = some tag)
    (listed : tag.datagram.toNat ∈ numbers)
    (own : fragment.pool = reassembler.pool) :
    (reassembler.judge fragment now deadline).2.Confined numbers := by
  have room := confined.hasRoom listed
  have verdict := reassembler.judged fragment now deadline
  generalize reassembler.judge fragment now deadline = decided at verdict ⊢
  cases verdict with
  | untagged noTag => exact confined
  | refused error isTag =>
      rw [tagged] at isTag
      cases isTag
      rw [roomy_of_room room]
      exact confined.without _
  | waiting isTag inserting _ _ =>
      rw [tagged] at isTag
      cases isTag
      rw [roomy_of_room room]
      exact confined.having listed (confined.own_of_insert own inserting)
  | whole isTag _ _ =>
      rw [tagged] at isTag
      cases isTag
      rw [roomy_of_room room]
      exact confined.without _

end Confined

end PooledPackets.Reassembler
