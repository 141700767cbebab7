import PooledPackets.Proofs.Sessions.Accounts

/-!
# What reassemblers hold from step to step

What a reassembler holds for a datagram after a command it has held before,
or the command has pushed a fragment that was added to it.
-/

namespace PooledPackets

namespace Reassembler

/-- The fragments held for a datagram, by their offsets. -/
def heldFor (reassembler : Reassembler) (datagram : Nat) : Table Packet :=
  (reassembler.pending.get? datagram).elim .empty Assembly.held

/-- The fragments held for a datagram. -/
def fragmentsFor (reassembler : Reassembler) (datagram : Nat) :
    List Packet :=
  (reassembler.pending.get? datagram).elim [] Assembly.fragments

variable {reassembler : Reassembler} {datagram : Nat}

theorem held_assemblyFor (reassembler : Reassembler)
    (datagram deadline : Nat) :
    (reassembler.assemblyFor datagram deadline).held =
      reassembler.heldFor datagram := by
  rw [assemblyFor, heldFor]
  cases reassembler.pending.get? datagram with
  | none => rfl
  | some assembly => rfl

theorem fragments_assemblyFor (reassembler : Reassembler)
    (datagram deadline : Nat) :
    (reassembler.assemblyFor datagram deadline).fragments =
      reassembler.fragmentsFor datagram := by
  rw [assemblyFor, fragmentsFor]
  cases reassembler.pending.get? datagram with
  | none => rfl
  | some assembly => rfl

theorem heldFor_of_get? {assembly : Assembly}
    (found : reassembler.pending.get? datagram = some assembly) :
    reassembler.heldFor datagram = assembly.held := by
  rw [heldFor, found]
  rfl

theorem fragmentsFor_of_get? {assembly : Assembly}
    (found : reassembler.pending.get? datagram = some assembly) :
    reassembler.fragmentsFor datagram = assembly.fragments := by
  rw [fragmentsFor, found]
  rfl

theorem fragmentsFor_subset (reassembler : Reassembler) (datagram : Nat) :
    reassembler.fragmentsFor datagram ⊆ reassembler.fragments := by
  intro fragment member
  cases found : reassembler.pending.get? datagram with
  | none => simp [fragmentsFor, found] at member
  | some assembly =>
      rw [fragmentsFor_of_get? found] at member
      exact (fragments_perm_of_get? found).mem_iff.mpr
        (List.mem_append_left _ member)

theorem letsGo_roomy (reassembler : Reassembler) (datagram now : Nat) :
    reassembler.LetsGo (reassembler.roomy datagram now) := by
  rcases reassembler.roomy_eq_or datagram now with isSwept | isSame
  · rw [isSwept]
    exact .late now
  · rw [isSame]
    exact .nothing

end Reassembler

/-- The slot of the fragment that a command has added to a datagram, if it
has. -/
def Command.source? (reply : Reply) (index datagram : Nat) :
    Command → Option Nat
  | .push at' source _ _ =>
      match reply with
      | .pushed (some number) (.ok none) =>
          if at' = index ∧ number.toNat = datagram then some source else none
      | _ => none
  | _ => none

namespace Session

variable {session after : Session} {command : Command} {reply : Reply}

/-- Where the fragments come from that are held for a datagram after a
command. -/
inductive Holding (session : Session) (command : Command) (reply : Reply)
    (index datagram : Nat) (assembly : Assembly) : Prop
  /-- They have been held before. -/
  | kept {reassembler : Reassembler}
      (nothing : command.source? reply index datagram = none)
      (found : session.reassemblers.get? index = some reassembler)
      (isHeld : reassembler.pending.get? datagram = some assembly)
  /-- One was added to those held before. -/
  | grown {reassembler : Reassembler} {source deadline : Nat}
      {tag : FragmentTag} {fragment : Packet}
      (isSource : command.source? reply index datagram = some source)
      (found : session.reassemblers.get? index = some reassembler)
      (isFragment : session.packets.get? source = some fragment)
      (tagged : fragment.tag = some tag)
      (isDatagram : tag.datagram.toNat = datagram)
      (inserting : (reassembler.assemblyFor tag.datagram.toNat
        deadline).insert tag fragment reassembler.limits.holdLimit =
          .ok assembly)

/-- Everything that the reassemblers of a session hold after a command. -/
def Holds (session : Session) (command : Command) (reply : Reply)
    (after : Session) : Prop :=
  ∀ index reassembler,
    after.reassemblers.get? index = some reassembler →
    ∀ datagram assembly,
      reassembler.pending.get? datagram = some assembly →
      session.Holding command reply index datagram assembly

/-- A reassembler that got nothing has let go of some datagrams at most. -/
theorem Settled.holds (settled : session.Settled after)
    (nothing : ∀ index datagram,
      command.source? reply index datagram = none) :
    session.Holds command reply after := by
  intro index reassembler found datagram assembly isHeld
  rcases settled index reassembler found with
    ⟨pool, rfl⟩ | ⟨previous, wasThere, letsGo⟩
  · simp at isHeld
  · exact .kept (nothing index datagram) wasThere (letsGo.get?_eq isHeld)

variable {index source now slot deadline : Nat}

/-- What is pushed is held from then on, or its datagram is given up or whole;
the other datagrams are let go at most. -/
theorem holds_of_judged {reassembler : Reassembler} {fragment : Packet}
    {answer : Except BufferError (Option Packet)}
    (found : session.reassemblers.get? index = some reassembler)
    (isFragment : session.packets.get? source = some fragment)
    (fits : (reassembler.judge fragment now deadline).1.Fits answer)
    (same : after.reassemblers = session.reassemblers.insert index
      (reassembler.judge fragment now deadline).2) :
    session.Holds (.push index source now slot)
      (.pushed (fragment.tag.map FragmentTag.datagram) answer) after := by
  intro other kept isKept datagram assembly isHeld
  rw [same, Table.get?_insert] at isKept
  by_cases isIndex : other = index
  · rw [if_pos isIndex] at isKept
    cases isKept
    subst isIndex
    have verdict := reassembler.judged fragment now deadline
    generalize reassembler.judge fragment now deadline = decided
      at verdict fits isHeld
    -- What is left of a datagram that got nothing is as it was.
    have remains : ∀ {tag : FragmentTag} {reply : Reply},
        Command.source? reply other datagram (.push other source now slot) =
          none →
        ((reassembler.roomy tag.datagram.toNat now).without
          tag.datagram.toNat).pending.get? datagram = some assembly →
        session.Holding (.push other source now slot) reply other datagram
          assembly := by
      intro tag reply nothing isLeft
      simp only [Reassembler.without, Table.get?_erase] at isLeft
      split at isLeft
      · cases isLeft
      · exact .kept nothing found
          ((reassembler.letsGo_roomy _ now).get?_eq isLeft)
    cases verdict with
    | untagged noTag =>
        exact .kept (by simp [Command.source?, noTag]) found isHeld
    | refused error tagged =>
        cases fits
        exact remains (by simp [Command.source?, tagged]) isHeld
    | @waiting tag longer tagged inserting incomplete _ =>
        cases fits
        simp only [Reassembler.having, Table.get?_insert] at isHeld
        split at isHeld
        · rename_i isDatagram
          cases isHeld
          exact .grown (by simp [Command.source?, tagged, isDatagram]) found
            isFragment tagged isDatagram.symm inserting
        · rename_i isOther
          exact .kept
            (by simp [Command.source?, tagged, Ne.symm isOther]) found
            ((reassembler.letsGo_roomy _ now).get?_eq isHeld)
    | whole tagged inserting complete =>
        have noneWaits : Command.source? (.pushed
            (fragment.tag.map FragmentTag.datagram) answer) other datagram
              (.push other source now slot) = none := by
          cases answer with
          | error error => simp [Command.source?, tagged]
          | ok joined =>
              cases joined with
              | none => exact absurd rfl fits
              | some packet => simp [Command.source?, tagged]
        exact remains noneWaits isHeld
  · rw [if_neg isIndex] at isKept
    refine .kept ?_ isKept isHeld
    simp only [Command.source?, Ne.symm isIndex, false_and, if_false]
    split <;> rfl

theorem carryOut_holds :
    SessionStep.Satisfies (carryOut command) session
      (fun reply after => session.Holds command reply after)
      (fun _ => True) := by
  rcases command.push_or_not with ⟨index, source, now, slot, rfl⟩ | noPush
  · apply SessionStep.Satisfies.monoDone push_ends
    intro reply after ending
    cases ending with
    | idle same silent =>
        apply (settled_of_same same).holds
        intro other datagram
        simp only [Command.source?]
        split
        · exact absurd rfl (silent _ _)
        · rfl
    | @answered reassembler _ fragment _ _ _ found isFragment pushed same =>
        obtain ⟨deadline, _, rfl, fits⟩ :=
          (reassembler.push_decided fragment now).of_done pushed
        exact holds_of_judged found isFragment fits same
  · apply (carryOut_settles noPush).monoDone
    intro reply after settled
    apply settled.holds
    intro index datagram
    cases command with
    | push index source now slot => exact absurd rfl (noPush _ _ _ _)
    | _ => rfl

theorem step_holds :
    SessionStep.Satisfies (fun session => session.step command) session
      (fun reply after => session.Holds command reply after)
      (fun _ => True) := by
  refine step_satisfies (fun _ => ?_) (fun _ => carryOut_holds)
  apply (settled_of_same rfl).holds
  intro index datagram
  cases command <;> rfl

/-- No command changes a fragment that it does not hand over: those that are
held afterwards were live before. -/
theorem Holds.subset_live (holds : session.Holds command reply after) :
    ∀ fragment ∈ after.reassemblers.values.flatMap Reassembler.fragments,
      fragment ∈ session.live := by
  intro fragment member
  obtain ⟨reassembler, isThere, inReassembler⟩ := List.mem_flatMap.mp member
  obtain ⟨assembly, isPending, inAssembly⟩ :=
    List.mem_flatMap.mp inReassembler
  obtain ⟨⟨index, _⟩, isEntry, rfl⟩ := List.mem_map.mp isThere
  obtain ⟨⟨datagram, _⟩, isHeld, rfl⟩ := List.mem_map.mp isPending
  have holding := holds index _ (Table.get?_eq_some_iff.mpr isEntry) datagram
    _ (Table.get?_eq_some_iff.mpr isHeld)
  -- What a reassembler held before was live.
  have wasHeld : ∀ {previous : Reassembler},
      session.reassemblers.get? index = some previous →
      fragment ∈ previous.fragmentsFor datagram →
        fragment ∈ session.live := by
    intro previous found isPart
    apply (live_perm_of_reassembler found).mem_iff.mpr
    exact List.mem_append_left _ (previous.fragmentsFor_subset _ isPart)
  cases holding with
  | kept _ found isHeld =>
      apply wasHeld found
      rw [Reassembler.fragmentsFor_of_get? isHeld]
      exact inAssembly
  | grown _ found isFragment _ isDatagram inserting =>
      have grown := Assembly.fragments_of_insert inserting
      rw [Reassembler.fragments_assemblyFor, isDatagram] at grown
      rcases List.mem_cons.mp (grown.mem_iff.mp inAssembly) with rfl | before
      · exact (live_perm_of_packet isFragment).mem_iff.mpr
          (List.mem_cons_self ..)
      · exact wasHeld found before

end Session

end PooledPackets
