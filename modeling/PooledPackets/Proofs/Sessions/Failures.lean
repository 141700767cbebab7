import PooledPackets.Proofs.Sessions.Accounts

/-!
# Pushes that fail

A fragment that a reassembler refuses takes its own datagram with it and, if
there was no room for that, the datagrams that were late. Nothing else changes,
and all segments of what was given up are free again.
-/

namespace PooledPackets

/-- The datagram of a push that was refused, and why. -/
def Reply.refusal? : Reply → Option (Option UInt32 × BufferError)
  | .pushed datagram (.error error) => some (datagram, error)
  | _ => none

theorem Reply.refusal?_eq_some_iff {reply : Reply} {datagram : Option UInt32}
    {error : BufferError} :
    reply.refusal? = some (datagram, error) ↔
      reply = .pushed datagram (.error error) := by
  cases reply with
  | pushed datagram result => cases result <;> simp [refusal?]
  | _ => simp [refusal?]

namespace Reassembler

variable {reassembler : Reassembler} {fragment : Packet} {now : Nat}

/-- Whether a datagram is given up because of a fragment that is refused. -/
def givesUp (reassembler : Reassembler) (fragment : Packet) (now : Nat)
    (number : Nat) (assembly : Assembly) : Bool :=
  match fragment.tag with
  | none => false
  | some tag =>
      number == tag.datagram.toNat ||
        (!reassembler.pending.contains tag.datagram.toNat &&
          decide (reassembler.limits.maxDatagrams ≤ reassembler.inFlight) &&
          decide (assembly.deadline ≤ now))

/-- The reassembler without the datagrams that a refused fragment takes with
it. -/
def sparing (reassembler : Reassembler) (fragment : Packet) (now : Nat) :
    Reassembler :=
  { reassembler with
    pending := reassembler.pending.filter fun number assembly =>
      !reassembler.givesUp fragment now number assembly }

/-- The fragments of the datagrams that a refused fragment takes with it. -/
def givenUp (reassembler : Reassembler) (fragment : Packet) (now : Nat) :
    List Packet :=
  (reassembler.pending.filter
    (reassembler.givesUp fragment now)).values.flatMap Assembly.fragments

theorem fragments_perm_givenUp (reassembler : Reassembler)
    (fragment : Packet) (now : Nat) :
    reassembler.fragments.Perm
      (reassembler.givenUp fragment now ++
        (reassembler.sparing fragment now).fragments) := by
  have parts := Table.values_filter_perm reassembler.pending
    (reassembler.givesUp fragment now)
  have all := (parts.flatMap_right Assembly.fragments).symm
  rw [List.flatMap_append] at all
  exact all

theorem sparing_untagged (noTag : fragment.tag = none) :
    reassembler.sparing fragment now = reassembler := by
  have keepsAll : reassembler.pending.filter (fun number assembly =>
      !reassembler.givesUp fragment now number assembly) =
        reassembler.pending := by
    apply Table.filter_eq_self
    simp [givesUp, noTag]
  rw [sparing, keepsAll]

theorem sparing_tagged {tag : FragmentTag}
    (tagged : fragment.tag = some tag) :
    reassembler.sparing fragment now =
      (reassembler.roomy tag.datagram.toNat now).without
        tag.datagram.toNat := by
  unfold roomy
  split
  · rename_i full
    rw [Bool.and_eq_true] at full
    have same : (reassembler.pending.filter fun _ assembly =>
        !decide (assembly.deadline ≤ now)).filter
          (fun number _ => number != tag.datagram.toNat) =
        reassembler.pending.filter fun number assembly =>
          !reassembler.givesUp fragment now number assembly := by
      apply Table.filter_filter
      intro entry _
      simp only [givesUp, tagged, full.1, full.2, Bool.true_and,
        Bool.not_or, bne, Bool.and_comm]
    rw [sparing, ← same]
    rfl
  · rename_i notFull
    rw [Bool.not_eq_true] at notFull
    have same : (fun number assembly =>
        !reassembler.givesUp fragment now number assembly) =
          fun number _ => number != tag.datagram.toNat := by
      funext number assembly
      simp only [givesUp, tagged, notFull, Bool.false_and, Bool.or_false,
        bne]
    rw [sparing, same]
    rfl

/-- What becomes of a reassembler that refuses a fragment. -/
theorem judge_refused {deadline : Nat} {error : BufferError}
    (fits : (reassembler.judge fragment now deadline).1.Fits
      (.error error)) :
    (reassembler.judge fragment now deadline).2 =
      reassembler.sparing fragment now ∧
    (fragment.tag = none → error = .notAFragment) := by
  have verdict := reassembler.judged fragment now deadline
  generalize reassembler.judge fragment now deadline = decided
    at verdict fits ⊢
  cases verdict with
  | untagged noTag =>
      cases fits
      exact ⟨(sparing_untagged noTag).symm, fun _ => rfl⟩
  | refused error tagged =>
      exact ⟨(sparing_tagged tagged).symm, by simp [tagged]⟩
  | waiting tagged _ _ _ => cases fits
  | whole tagged _ _ =>
      exact ⟨(sparing_tagged tagged).symm, by simp [tagged]⟩

theorem get?_sparing_eq_none {tag : FragmentTag}
    (tagged : fragment.tag = some tag) :
    (reassembler.sparing fragment now).pending.get?
      tag.datagram.toNat = none := by
  rw [sparing, Table.get?_filter, Option.filter_eq_none_iff]
  intro assembly _
  simp [givesUp, tagged]

end Reassembler

namespace Session

variable {session after : Session} {index source now slot : Nat}

/-- The segments that are free after some packets have been given up are those
that were free before and those of these packets. -/
theorem Owns.free_perm {origin : Pools} {exchange : Exchange}
    {given : List Packet} (owns : session.Owns origin exchange [])
    (ownsAfter : after.Owns origin exchange [])
    (split : session.live.Perm (given ++ after.live)) (id : PoolId) :
    ((after.pools.get id).free.map Segment.id).Perm
      ((session.pools.get id).free.map Segment.id ++
        Pool.numbersOf id (given.flatMap Packet.chain)) := by
  have before := (owns.perm split).balanced.accounts id
  have later := ownsAfter.balanced.accounts id
  rw [List.flatMap_append] at before
  have all := before.complete.trans later.complete.symm
  rw [Pool.numbersOf_append, ← List.append_assoc] at all
  exact ((List.perm_append_right_iff _).mp all).symm

/-- Where a reassembler refuses a fragment, it and what it takes with it leave
the session. -/
theorem live_perm_of_refused {reassembler : Reassembler}
    {fragment : Packet} (now : Nat) (pools : Pools)
    (found : session.reassemblers.get? index = some reassembler)
    (isFragment : session.packets.get? source = some fragment) :
    session.live.Perm
      ((fragment :: reassembler.givenUp fragment now) ++
        (((session.vacated source).attended index
          (reassembler.sparing fragment now)).withPools pools).live) := by
  have held : (session.vacated source).live.Perm
      (reassembler.fragments ++
        ((session.vacated source).unattended index).live) :=
    live_perm_of_reassembler found
  have parts := (reassembler.fragments_perm_givenUp fragment now).append_right
    ((session.vacated source).unattended index).live
  rw [List.append_assoc] at parts
  have remains := (live_attended_perm (session.vacated source) index
    (reassembler.sparing fragment now)).symm
  exact (live_perm_of_packet isFragment).trans
    (((held.trans parts).trans (remains.append_left _)).cons fragment)

/-- A push that fails discards the pushed fragment with its datagram and, if
that was new and there was no room for it, the datagrams whose deadline has
come; all other packets and datagrams are as they were, and the segments of
what was discarded are free again. -/
theorem push_discards {configs : List Config} {datagram : Option UInt32}
    {error : BufferError} (reached : session.Reached configs)
    (stepped : session.step (.push index source now slot) =
      .ok (.pushed datagram (.error error), after)) :
    ∃ reassembler fragment,
      session.reassemblers.get? index = some reassembler ∧
      session.packets.get? source = some fragment ∧
      datagram = fragment.tag.map FragmentTag.datagram ∧
      (datagram = none → error = .notAFragment) ∧
      after.reassemblers = session.reassemblers.insert index
        (reassembler.sparing fragment now) ∧
      (∀ number, datagram = some number →
        (reassembler.sparing fragment now).pending.get? number.toNat =
          none) ∧
      after.packets = session.packets.erase source ∧
      after.walks = session.walks ∧
      session.live.Perm ((fragment :: reassembler.givenUp fragment now) ++
        after.live) ∧
      ∀ id, ((after.pools.get id).free.map Segment.id).Perm
        ((session.pools.get id).free.map Segment.id ++
          Pool.numbersOf id ((fragment ::
            reassembler.givenUp fragment now).flatMap Packet.chain)) := by
  have owns := reached.owns
  have ownsAfter := (reached.step rfl stepped).owns
  have effect := push_steps.of_ok stepped
  cases effect with
  | idle _ silent => exact absurd rfl (silent _ _)
  | @answered reassembler changed fragment _ _ last found isFragment
      pushed =>
      obtain ⟨deadline, _, isChanged, fits⟩ :=
        (reassembler.push_decided fragment now).of_done pushed
      obtain ⟨isSparing, untagged⟩ := Reassembler.judge_refused fits
      have same : changed = reassembler.sparing fragment now :=
        isChanged.trans isSparing
      subst same
      have split := live_perm_of_refused now last found isFragment
      refine ⟨reassembler, fragment, found, isFragment, rfl, ?_, rfl, ?_,
        rfl, rfl, split, owns.free_perm ownsAfter split⟩
      · intro noTag
        exact untagged (by simpa using noTag)
      · intro number isNumber
        obtain ⟨tag, tagged, rfl⟩ := Option.map_eq_some_iff.mp isNumber
        exact Reassembler.get?_sparing_eq_none tagged

/-- The only place for a datagram is taken by one that is late. It is given up
for a fragment that is a whole datagram, but too long for one segment of the
reassembler's pool. -/
theorem push_discards_two :
    let config : Config :=
      { segmentCapacity := 4, segmentCount := 2, headerReserve := 0,
        chaining := false, reassembly := { maxDatagrams := 1 } }
    let commands : List Command :=
      [.newPool, .newPool, .newReassembler 0 0 [],
        .receive 1 (.made ⟨1, 0, true⟩ [1, 2]) 0,
        .receive 1 (.made ⟨2, 0, false⟩ [1, 2, 3, 4, 5, 6]) 1,
        .push 0 0 0 9]
    ∃ session after reassembler fragment,
      (start (Pools.ofConfigs [config, {}])).runAll commands =
        .ok session ∧
      session.step (.push 0 1 (10 ^ 12) 9) =
        .ok (.pushed (some 2) (.error (.oversizedPacket 6 4)), after) ∧
      session.live.Perm
        ((fragment :: Reassembler.givenUp reassembler fragment (10 ^ 12)) ++
          after.live) := by
  intro config commands
  have refuses : (do
      let session ← ((start (Pools.ofConfigs [config, {}])).runAll
        commands).toOption
      let stepped ← (session.step (.push 0 1 (10 ^ 12) 9)).toOption
      stepped.1.refusal?) = some (some 2, .oversizedPacket 6 4) := by
    decide +kernel
  obtain ⟨session, ran, refuses⟩ := Option.bind_eq_some_iff.mp refuses
  obtain ⟨⟨reply, after⟩, stepped, isError⟩ :=
    Option.bind_eq_some_iff.mp refuses
  rw [toOption_eq_some_iff] at ran stepped
  have isReply : reply = .pushed (some 2) (.error (.oversizedPacket 6 4)) :=
    Reply.refusal?_eq_some_iff.mp isError
  subst isReply
  have reached : session.Reached [config, {}] :=
    ⟨by decide, commands, by decide, ran⟩
  obtain ⟨reassembler, fragment, _, _, _, _, _, _, _, _, split, _⟩ :=
    push_discards reached stepped
  exact ⟨session, after, reassembler, fragment, ran, stepped, split⟩

end Session

end PooledPackets
