import Mathlib.Data.List.Forall2
import PooledPackets.Proofs.Agreement.Sessions
import PooledPackets.Proofs.Sessions.Accounts

/-!
# Checks that find nothing

As long as no segments are exchanged between packets, no invariant is ever
found broken. So it makes no difference whether pools check their packets, and
none what they would do about a broken invariant.
-/

namespace PooledPackets

/-- Configurations that differ in nothing but their checks make pools that
differ in nothing else. -/
theorem Pools.alike_ofConfigs {configs others : List Config}
    (same : configs.map Config.unchecked = others.map Config.unchecked) :
    (Pools.ofConfigs configs).Alike (Pools.ofConfigs others) := by
  refine ⟨fun id => ?_, ?_⟩
  rotate_left
  · rw [Pools.ofConfigs, Pools.ofConfigs, ← Pools.numbersFrom_unchecked, same,
      Pools.numbersFrom_unchecked]
  have atId : configs[id]?.map Config.unchecked =
      others[id]?.map Config.unchecked := by
    rw [← List.getElem?_map, ← List.getElem?_map, same]
  simp only [Pools.ofConfigs, Pools.get?_tableFrom, Nat.zero_le, if_true,
    Nat.sub_zero]
  generalize configs[id]? = given at atId ⊢
  generalize others[id]? = given' at atId ⊢
  cases given with
  | none =>
      cases given' with
      | none => exact .none
      | some other => cases atId
  | some config =>
      cases given' with
      | none => cases atId
      | some other => exact Pool.Alike.ofConfig? (Option.some.inj atId) id

namespace Session

/-- What a session says to some commands and the states it goes through, and
why it stops before their end, if it does. -/
def history (session : Session) :
    List Command → List (Reply × Session) × Option Stop
  | [] => ([], none)
  | command :: rest =>
      match session.step command with
      | .error stop => ([], some stop)
      | .ok (reply, after) =>
          let later := after.history rest
          ((reply, after) :: later.1, later.2)

/-- Two sessions that are alike, and of which all that is left can be dropped:
in the order in which a session ends, or in any order whatever. -/
structure EndAlike (session other : Session) : Prop where
  alike : session.Alike other
  finished : ∀ choices, ∃ pools others,
    session.finish choices = .ok pools ∧
      other.finish choices = .ok others ∧ pools.Alike others
  dropped : ∀ packets : List Packet, packets.Perm session.live →
    ∃ pools others, Packet.dropAll packets session.pools = .done ⟨⟩ pools ∧
      Packet.dropAll packets other.pools = .done ⟨⟩ others ∧
      pools.Alike others

variable {session other : Session} {origin origin' : Pools}

/-- Without an exchange of segments nothing stops the end of a session. -/
theorem Owns.finishes (owns : session.Owns origin .never [])
    (choices : Nat → List Nat) :
    ∃ pools, session.finish choices = .ok pools := by
  have ending := finish_satisfies owns choices
  cases finished : session.finish choices with
  | ok pools => exact ⟨pools, rfl⟩
  | error stop =>
      rw [finished] at ending
      exact ending.mayStop.elim

theorem Alike.endAlike (alike : session.Alike other)
    (owns : session.Owns origin .never [])
    (ownsOther : other.Owns origin' .never []) :
    session.EndAlike other where
  alike := alike
  finished := by
    intro choices
    obtain ⟨pools, finished⟩ := owns.finishes choices
    obtain ⟨others, finishedOther⟩ := ownsOther.finishes choices
    exact ⟨pools, others, finished, finishedOther,
      finish_alike alike finished finishedOther⟩
  dropped := by
    intro packets all
    have sameLive : other.live = session.live := by
      rw [live, live, alike.packets_eq, alike.reassemblers_eq]
    have allOther : packets.Perm other.live := sameLive ▸ all
    have consistent : session.pools.Consistent origin .never
        (packets ++ []) := by
      rw [List.append_nil]
      exact owns.perm all.symm
    have consistentOther : other.pools.Consistent origin' .never
        (packets ++ []) := by
      rw [List.append_nil]
      exact ownsOther.perm allOther.symm
    obtain ⟨_, pools, dropped, _⟩ :=
      consistent.dropAll_satisfies.returned.exists_done
    obtain ⟨_, others, droppedOther, _⟩ :=
      consistentOther.dropAll_satisfies.returned.exists_done
    have same := Packet.dropAll_steady packets alike.pools_alike
    rw [dropped, droppedOther] at same
    cases same with
    | done _ still =>
        exact ⟨pools, others, dropped, droppedOther, still⟩

/-- A command without an exchange is answered alike, or is out of range for
both sessions. -/
theorem Alike.step {command : Command} (alike : session.Alike other)
    (owns : session.Owns origin .never [])
    (ownsOther : other.Owns origin' .never [])
    (faithful : command.exchanges = false) :
    (session.step command = .error .outOfRange ∧
      other.step command = .error .outOfRange) ∨
    ∃ reply after after',
      session.step command = .ok (reply, after) ∧
      other.step command = .ok (reply, after') ∧ after.Alike after' ∧
      after.Owns origin .never [] ∧ after'.Owns origin' .never [] := by
  have noExchange : command.exchanges = true →
      Exchange.never = .freely := by
    simp [faithful]
  have contract := step_keeps owns (carryOut_satisfies owns noExchange)
  have contractOther := step_keeps ownsOther
    (carryOut_satisfies ownsOther noExchange)
  have onlyOutOfRange : ∀ {stop : Stop}, Exchange.never.MayEnd stop →
      stop = .outOfRange := by
    intro stop ends
    exact ends.resolve_left id
  have same : SessionStep.Agree (session.step command)
      (other.step command) := step_steady command alike
  generalize isFirst : session.step command = one at same
  generalize isOther : other.step command = another at same
  cases same with
  | ok reply still =>
      exact Or.inr ⟨reply, _, _, rfl, rfl, still, contract.of_ok isFirst,
        contractOther.of_ok isOther⟩
  | outOfRange => exact Or.inl ⟨rfl, rfl⟩
  | brokenFirst broken _ =>
      exact absurd (onlyOutOfRange (contract.of_error isFirst)) broken
  | brokenSecond broken _ =>
      exact absurd (onlyOutOfRange (contractOther.of_error isOther)) broken

theorem Alike.history :
    ∀ {commands : List Command} {session other : Session},
      session.Alike other → session.Owns origin .never [] →
      other.Owns origin' .never [] →
      (∀ command ∈ commands, command.exchanges = false) →
      (session.history commands).1.Forall₂
        (fun step step' => step.1 = step'.1 ∧ step.2.EndAlike step'.2)
        (other.history commands).1 ∧
      (session.history commands).2 = (other.history commands).2 ∧
      ∀ stop, (session.history commands).2 = some stop →
        stop = .outOfRange
  | [], _, _, _, _, _, _ => ⟨.nil, rfl, by simp [Session.history]⟩
  | command :: rest, session, other, alike, owns, ownsOther, faithful => by
      simp only [Session.history]
      rcases alike.step owns ownsOther
          (faithful command (List.mem_cons_self ..)) with
        ⟨isFirst, isOther⟩ |
          ⟨reply, after, after', isFirst, isOther, still, ownsAfter,
            ownsAfter'⟩
      · rw [isFirst, isOther]
        exact ⟨.nil, rfl, by simp⟩
      · rw [isFirst, isOther]
        obtain ⟨steps, sameEnd, ends⟩ := still.history ownsAfter ownsAfter'
          (fun other member => faithful other (.tail _ member))
        exact ⟨.cons ⟨rfl, still.endAlike ownsAfter ownsAfter'⟩ steps,
          sameEnd, ends⟩

/-- Pools whose configurations differ in nothing but their checks cannot be
told apart as long as each has a number of its own and no segments are
exchanged: a session gives the same replies and goes through the same states, it
can be ended at any of them, and nothing stops it but a number out of range. -/
theorem history_unchecked {configs others : List Config}
    {commands : List Command} (few : configs.length ≤ UInt32.size)
    (same : configs.map Config.unchecked = others.map Config.unchecked)
    (faithful : ∀ command ∈ commands, command.exchanges = false) :
    let session := start (Pools.ofConfigs configs)
    let other := start (Pools.ofConfigs others)
    session.EndAlike other ∧
    (session.history commands).1.Forall₂
      (fun step step' => step.1 = step'.1 ∧ step.2.EndAlike step'.2)
      (other.history commands).1 ∧
    (session.history commands).2 = (other.history commands).2 ∧
    ∀ stop, (session.history commands).2 = some stop →
      stop = .outOfRange := by
  intro session other
  have sameCount := congrArg List.length same
  rw [List.length_map, List.length_map] at sameCount
  have owns := start_owns few .never
  have ownsOther := start_owns (sameCount ▸ few) .never
  have alike : session.Alike other :=
    ⟨Pools.alike_ofConfigs same, rfl, rfl, rfl, rfl⟩
  exact ⟨alike.endAlike owns ownsOther,
    alike.history owns ownsOther faithful⟩

/-- A pool that checks its packets and one that does not: a packet made, added
to, written over, split in two ways at once, joined again, and dropped while
some fragments are held. -/
theorem history_unchecked_of_two :
    let config : Config :=
      { segmentCapacity := 6, segmentCount := 9, headerReserve := 2 }
    let checked : Config :=
      { config with errorChecking := true, faultPolicy := .panic }
    let commands : List Command :=
      [.newPool, .packetFrom 0 [1, 2, 3] 0, .append 0 [4, 5, 6],
        .writeZone 0 .payload none [9, 9, 9, 9, 9], .newReassembler 0 0 [],
        .beginWalk 0 0 2 0, .beginWalk 0 0 5 1, .collectFragments 0 1 3,
        .push 0 3 0 9, .nextFragment 1 3, .append 0 [7], .endWalk 0,
        .push 0 1 1 9, .endWalk 1, .release 0]
    let session := start (Pools.ofConfigs [config])
    let other := start (Pools.ofConfigs [checked])
    (session.history commands).1.length = 15 ∧
    (session.history commands).1.Forall₂
      (fun step step' => step.1 = step'.1 ∧ step.2.EndAlike step'.2)
      (other.history commands).1 := by
  intro config checked commands session other
  refine ⟨by decide +kernel, ?_⟩
  exact (history_unchecked (by decide) (by decide) (by decide)).2.1

/-- Where two pools were given the same number, a segment of one is linked into
a packet of the other without any exchange, and cannot come back there. -/
example :
    let config : Config :=
      { segmentCapacity := 8, segmentCount := 1, headerReserve := 0 }
    let pools : Pools := { Pools.ofConfigs [config, config] with
      numbers := (Table.empty.insert 0 0).insert 1 0 }
    (start pools).runAll [.newPool, .newPool, .newReassembler 0 0 [],
        .receive 1 (.made ⟨7, 0, false⟩ [1]) 0, .push 0 0 0 1, .drop 1] =
      .error (.fault config.faultPolicy (.segmentAlreadyFree 0 0)) := by
  rfl

end Session

end PooledPackets
