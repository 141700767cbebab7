import PooledPackets.Proofs.Tables
import PooledPackets.Proofs.Reassembly.Decisions

/-!
# Fragments going into their datagrams

What an insertion that is not refused does to the fields of a datagram, and
where a fragment is among the fragments that a reassembler holds.
-/

namespace PooledPackets

namespace Assembly

variable {assembly longer : Assembly} {tag : FragmentTag}
variable {fragment : Packet} {holdLimit : Nat}

@[simp]
theorem held_place (assembly : Assembly) (tag : FragmentTag)
    (fragment : Packet) :
    (assembly.place tag fragment).held =
      assembly.held.insert tag.offset fragment := rfl

@[simp]
theorem received_place (assembly : Assembly) (tag : FragmentTag)
    (fragment : Packet) :
    (assembly.place tag fragment).received =
      assembly.received + fragment.length := rfl

@[simp]
theorem total_place (assembly : Assembly) (tag : FragmentTag)
    (fragment : Packet) :
    (assembly.place tag fragment).total =
      if tag.moreFragments then assembly.total
      else some (tag.offset + fragment.length) := rfl

theorem front_place_of_eq (atFront : tag.offset = assembly.frontEnd) :
    (assembly.place tag fragment).frontEnd =
        (follow (tag.offset + fragment.length)
          (assembly.held.entriesFrom (tag.offset + fragment.length))).1 ∧
      (assembly.place tag fragment).detached = assembly.detached -
        (follow (tag.offset + fragment.length)
          (assembly.held.entriesFrom (tag.offset + fragment.length))).2 := by
  simp [place, atFront]

theorem front_place_of_ne (apart : tag.offset ≠ assembly.frontEnd) :
    (assembly.place tag fragment).frontEnd = assembly.frontEnd ∧
      (assembly.place tag fragment).detached = assembly.detached + 1 := by
  simp [place, apart]

theorem insert_of_outOfReach
    (free : assembly.claims tag.offset (tag.offset + fragment.length) =
      false)
    (agrees : assembly.contradicts tag.moreFragments
      (tag.offset + fragment.length) = false)
    (outOfReach : tag.offset ≠ assembly.frontEnd ∧
      holdLimit ≤ assembly.detached) :
    assembly.insert tag fragment holdLimit =
      .error (.holdLimitExceeded tag.datagram holdLimit) := by
  simp [insert, free, agrees, outOfReach]

/-- A fragment is accepted exactly if none of the three checks refuses it. -/
theorem insert_eq_ok_iff :
    assembly.insert tag fragment holdLimit = .ok longer ↔
      assembly.claims tag.offset (tag.offset + fragment.length) = false ∧
      assembly.contradicts tag.moreFragments
        (tag.offset + fragment.length) = false ∧
      (tag.offset = assembly.frontEnd ∨ assembly.detached < holdLimit) ∧
      longer = assembly.place tag fragment := by
  simp only [insert]
  split
  · rename_i claimed
    simp [claimed]
  · rename_i free
    split
    · rename_i contradicted
      simp [contradicted]
    · rename_i agrees
      split
      · rename_i full
        have notAccepted : ¬(tag.offset = assembly.frontEnd ∨
            assembly.detached < holdLimit) := by
          intro either
          rcases either with atFront | room
          · exact full.1 atFront
          · exact absurd full.2 (Nat.not_le_of_lt room)
        simp [notAccepted]
      · rename_i fits
        have accepted : tag.offset = assembly.frontEnd ∨
            assembly.detached < holdLimit := by
          by_cases atFront : tag.offset = assembly.frontEnd
          · exact Or.inl atFront
          · exact Or.inr (Nat.lt_of_not_le fun full => fits ⟨atFront, full⟩)
        simp only [Bool.not_eq_true] at free agrees
        simp only [free, agrees, accepted, true_and, Except.ok.injEq]
        exact eq_comm

@[simp]
theorem fragments_begun (deadline : Nat) :
    (begun deadline).fragments = [] := rfl

theorem fragments_of_insert
    (inserting : assembly.insert tag fragment holdLimit = .ok longer) :
    longer.fragments.Perm (fragment :: assembly.fragments) := by
  obtain ⟨free, _, _, rfl⟩ := insert_eq_ok_iff.mp inserting
  have absent : assembly.held.get? tag.offset = none := by
    simp only [claims, Bool.or_eq_false_iff] at free
    exact Table.contains_eq_false_iff.mp free.1
  rw [fragments, held_place, fragments]
  have joined :=
    Table.values_insert_perm assembly.held tag.offset fragment
  rw [Table.erase_of_get?_eq_none absent] at joined
  exact joined

end Assembly

namespace Reassembler

variable {reassembler : Reassembler} {datagram : Nat} {assembly : Assembly}

theorem without_of_absent
    (absent : reassembler.pending.get? datagram = none) :
    reassembler.without datagram = reassembler := by
  rw [without, Table.erase_of_get?_eq_none absent]

/-- What is held for one datagram and for the others is all that is held. -/
theorem fragments_perm_of_get?
    (found : reassembler.pending.get? datagram = some assembly) :
    reassembler.fragments.Perm
      (assembly.fragments ++ (reassembler.without datagram).fragments) :=
  (Table.values_perm_of_get? found).flatMap_right _

theorem fragments_having_perm (reassembler : Reassembler) (datagram : Nat)
    (assembly : Assembly) :
    (reassembler.having datagram assembly).fragments.Perm
      (assembly.fragments ++ (reassembler.without datagram).fragments) :=
  (Table.values_insert_perm _ _ _).flatMap_right _

/-- What is held for the datagrams that are late and for the others is all that
is held. -/
theorem fragments_perm_swept (reassembler : Reassembler) (now : Nat) :
    reassembler.fragments.Perm
      (reassembler.lateFragments now ++
        (reassembler.swept now).fragments) := by
  have parts := (Table.values_filter_perm reassembler.pending
    (fun _ assembly => decide (assembly.deadline ≤ now))).flatMap_right
      Assembly.fragments
  rw [List.flatMap_append] at parts
  exact parts.symm

/-- What is dropped to make room and what is still held is all that was
held. -/
theorem fragments_perm_roomy (reassembler : Reassembler)
    (datagram now : Nat) :
    reassembler.fragments.Perm
      (reassembler.evicted datagram now ++
        (reassembler.roomy datagram now).fragments) := by
  unfold evicted roomy
  split
  · exact reassembler.fragments_perm_swept now
  · exact List.Perm.refl _

theorem fragments_without_subset (reassembler : Reassembler)
    (datagram : Nat) :
    (reassembler.without datagram).fragments ⊆ reassembler.fragments := by
  intro fragment member
  cases found : reassembler.pending.get? datagram with
  | none => exact without_of_absent found ▸ member
  | some assembly =>
      exact (fragments_perm_of_get? found).mem_iff.mpr
        (List.mem_append_right _ member)

theorem fragments_roomy_subset (reassembler : Reassembler)
    (datagram now : Nat) :
    (reassembler.roomy datagram now).fragments ⊆
      reassembler.fragments := by
  intro fragment member
  exact (reassembler.fragments_perm_roomy datagram now).mem_iff.mpr
    (List.mem_append_right _ member)

/-! ## The cases of a decision -/

/-- What has arrived of a datagram: what is held for it, or nothing yet. -/
def assemblyFor (reassembler : Reassembler) (datagram deadline : Nat) :
    Assembly :=
  (reassembler.pending.get? datagram).getD (.begun deadline)

theorem fragments_perm_assemblyFor (reassembler : Reassembler)
    (datagram deadline : Nat) :
    reassembler.fragments.Perm
      ((reassembler.assemblyFor datagram deadline).fragments ++
        (reassembler.without datagram).fragments) := by
  rw [assemblyFor]
  cases found : reassembler.pending.get? datagram with
  | none => rw [without_of_absent found, Option.getD_none,
      Assembly.fragments_begun, List.nil_append]
  | some assembly => exact fragments_perm_of_get? found

/-- Nothing goes into a datagram but what was held of it and the fragment. -/
theorem fragments_of_insert_subset {tag : FragmentTag} {fragment : Packet}
    {longer : Assembly} {deadline : Nat}
    (inserting : (reassembler.assemblyFor datagram deadline).insert tag
      fragment reassembler.limits.holdLimit = .ok longer) :
    longer.fragments ⊆ fragment :: reassembler.fragments := by
  intro part member
  rcases List.mem_cons.mp
      ((Assembly.fragments_of_insert inserting).mem_iff.mp member) with
    rfl | wasHeld
  · exact List.mem_cons_self ..
  · refine .tail _ ((reassembler.fragments_perm_assemblyFor datagram
      deadline).mem_iff.mpr (List.mem_append_left _ wasHeld))

theorem get?_roomy (reassembler : Reassembler) (datagram now : Nat) :
    (reassembler.roomy datagram now).pending.get? datagram =
      reassembler.pending.get? datagram := by
  unfold roomy
  split
  · rename_i full
    rw [Bool.and_eq_true, Bool.not_eq_true'] at full
    have absent := Table.contains_eq_false_iff.mp full.1
    rw [absent, Table.get?_eq_none_iff]
    intro entry member
    exact Table.get?_eq_none_iff.mp absent entry
      (List.mem_filter.mp member).1
  · rfl

/-- What can come of a fragment, with everything that is known then. -/
inductive Judged (reassembler : Reassembler) (fragment : Packet)
    (now deadline : Nat) : Decision × Reassembler → Prop
  | untagged (noTag : fragment.tag = none) :
      Judged reassembler fragment now deadline
        (.refused .notAFragment, reassembler)
  | refused {tag : FragmentTag} (error : BufferError)
      (tagged : fragment.tag = some tag) :
      Judged reassembler fragment now deadline (.refused error,
        (reassembler.roomy tag.datagram.toNat now).without
          tag.datagram.toNat)
  | waiting {tag : FragmentTag} {longer : Assembly}
      (tagged : fragment.tag = some tag)
      (inserting : (reassembler.assemblyFor tag.datagram.toNat
        deadline).insert tag fragment reassembler.limits.holdLimit =
          .ok longer)
      (incomplete : longer.isComplete = false)
      (room : (reassembler.roomy tag.datagram.toNat now).pending.get?
        tag.datagram.toNat = none →
          (reassembler.roomy tag.datagram.toNat now).inFlight <
            reassembler.limits.maxDatagrams) :
      Judged reassembler fragment now deadline (.waiting,
        (reassembler.roomy tag.datagram.toNat now).having
          tag.datagram.toNat longer)
  | whole {tag : FragmentTag} {longer : Assembly}
      (tagged : fragment.tag = some tag)
      (inserting : (reassembler.assemblyFor tag.datagram.toNat
        deadline).insert tag fragment reassembler.limits.holdLimit =
          .ok longer)
      (complete : longer.isComplete = true) :
      Judged reassembler fragment now deadline (.whole longer,
        (reassembler.roomy tag.datagram.toNat now).without
          tag.datagram.toNat)

theorem judged (reassembler : Reassembler) (fragment : Packet)
    (now deadline : Nat) :
    reassembler.Judged fragment now deadline
      (reassembler.judge fragment now deadline) := by
  cases tagged : fragment.tag with
  | none =>
      simp only [judge, tagged]
      exact .untagged tagged
  | some tag =>
      have sameDatagram := reassembler.get?_roomy tag.datagram.toNat now
      -- Adding the fragment comes to the same wherever it is added.
      have adding : ∀ assembly : Assembly,
          assembly = reassembler.assemblyFor tag.datagram.toNat deadline →
          ((reassembler.roomy tag.datagram.toNat now).pending.get?
            tag.datagram.toNat = none →
              (reassembler.roomy tag.datagram.toNat now).inFlight <
                reassembler.limits.maxDatagrams) →
          reassembler.Judged fragment now deadline
            ((reassembler.roomy tag.datagram.toNat now).judgeAdded
              assembly tag fragment) := by
        rintro _ rfl room
        unfold judgeAdded
        rw [roomy_limits]
        cases inserting : (reassembler.assemblyFor tag.datagram.toNat
            deadline).insert tag fragment
              reassembler.limits.holdLimit with
        | error error => exact .refused error tagged
        | ok longer =>
            cases complete : longer.isComplete with
            | true =>
                simp only [complete, if_true]
                exact .whole tagged inserting complete
            | false =>
                simp only [complete]
                exact .waiting tagged inserting complete room
      simp only [judge, tagged, judgeTagged]
      cases found : (reassembler.roomy tag.datagram.toNat
          now).pending.get? tag.datagram.toNat with
      | some assembly =>
          have isHeld : assembly =
              reassembler.assemblyFor tag.datagram.toNat deadline := by
            rw [assemblyFor, ← sameDatagram, found, Option.getD_some]
          dsimp only
          split
          · exact .refused _ tagged
          · exact adding assembly isHeld (by simp [found])
      | none =>
          have isBegun : Assembly.begun deadline =
              reassembler.assemblyFor tag.datagram.toNat deadline := by
            rw [assemblyFor, ← sameDatagram, found, Option.getD_none]
          dsimp only
          split
          · have unchanged := without_of_absent found
            have refusal := @Judged.refused reassembler fragment now
              deadline tag (.tooManyDatagrams (reassembler.roomy
                tag.datagram.toNat now).limits.maxDatagrams) tagged
            rw [unchanged] at refusal
            exact refusal
          · rename_i notFull
            rw [roomy_limits] at notFull
            exact adding _ isBegun (fun _ => Nat.lt_of_not_le notFull)

/-- After a fragment nothing is held but it and what was held before. -/
theorem fragments_judge_subset (reassembler : Reassembler)
    (fragment : Packet) (now deadline : Nat) :
    (reassembler.judge fragment now deadline).2.fragments ⊆
      fragment :: reassembler.fragments := by
  have others : ∀ datagram : Nat,
      ((reassembler.roomy datagram now).without datagram).fragments ⊆
        fragment :: reassembler.fragments := by
    intro datagram
    apply List.subset_cons_of_subset fragment
    exact List.Subset.trans (fragments_without_subset _ datagram)
      (reassembler.fragments_roomy_subset datagram now)
  have verdict := reassembler.judged fragment now deadline
  generalize reassembler.judge fragment now deadline = decided at verdict ⊢
  cases verdict with
  | untagged noTag => exact List.subset_cons_self ..
  | refused error tagged => exact others _
  | waiting tagged inserting _ _ =>
      intro part member
      rcases List.mem_append.mp
          ((fragments_having_perm _ _ _).mem_iff.mp member) with
        isOwn | isOther
      · exact fragments_of_insert_subset inserting isOwn
      · exact others _ isOther
  | whole tagged _ _ => exact others _

end Reassembler

end PooledPackets
