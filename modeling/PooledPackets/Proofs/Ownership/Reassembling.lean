import PooledPackets.Proofs.Ownership.Joining
import PooledPackets.Proofs.Reassembly.Insertion
import PooledPackets.Proofs.Reassembly.Decisions

/-!
# Reassemblers and live packets

The fragments that a reassembler holds are live. A fragment handed over to it
is held, or becomes part of a joined packet, or is dropped, and so are the
fragments of every datagram that is given up.
-/

namespace PooledPackets

open Operation

/-- The packet that an answer delivers, if it does. -/
def Reassembler.delivered :
    Except BufferError (Option Packet) → List Packet
  | .ok (some packet) => [packet]
  | .ok none => []
  | .error _ => []

/-- What joining a whole datagram came to. -/
def Reassembly.Ending (exchange : Exchange) (pool : Pool) (id : PoolId)
    (assembly : Assembly) : Except BufferError (Option Packet) → Prop
  | .ok (some packet) => packet.Joined exchange id assembly.fragments
  | .ok none => False
  | .error _ => exchange = .never →
      (pool.config.chaining &&
        assembly.fragments.all (fun fragment => fragment.pool == id)) =
          false ∧
      Reassembly.Short pool assembly.received
        (assembly.fragments.all (fun fragment => fragment.pool == id))
        assembly.fragments

namespace Reassembler

/-- A fragment of a datagram can be accepted without dropping others. -/
def HasRoom (reassembler : Reassembler) (datagram : Nat) : Prop :=
  reassembler.pending.contains datagram = true ∨
    reassembler.inFlight < reassembler.limits.maxDatagrams

/-- The answer to a fragment, and the state that it leads to, are those
decided on. -/
structure Answers (reassembler : Reassembler) (exchange : Exchange)
    (pools : Pools) (fragment : Packet) (now deadline : Nat)
    (acceptance : Acceptance) : Prop where
  state_eq : acceptance.2 = (reassembler.judge fragment now deadline).2
  fits : (reassembler.judge fragment now deadline).1.Fits acceptance.1
  ending : ∀ longer,
    (reassembler.judge fragment now deadline).1 = .whole longer →
    ∃ before : Pools,
      (∀ tag, fragment.tag = some tag →
        reassembler.HasRoom tag.datagram.toNat → before = pools) ∧
      Reassembly.Ending exchange (before.get reassembler.pool)
        reassembler.pool longer acceptance.1

/-- A fragment that is refused has its answer, whatever the pools are. -/
theorem Answers.of_refused {reassembler next : Reassembler}
    {exchange : Exchange} {pools : Pools} {fragment : Packet}
    {now deadline : Nat} {error : BufferError}
    (decided : reassembler.judge fragment now deadline =
      (.refused error, next)) :
    reassembler.Answers exchange pools fragment now deadline
      (.error error, next) where
  state_eq := by rw [decided]
  fits := by
    rw [decided]
    rfl
  ending := by
    intro _ impossible
    simp [decided] at impossible

/-- What is in hand while fragments of a reassembler are dropped can be kept. -/
def KeepsHand (reassembler : Reassembler) (exchange : Exchange)
    (hand : Hand) : Prop :=
  ∀ other : Reassembler, other.fragments ⊆ reassembler.fragments →
    ∀ packet ∈ hand other, packet.Kept exchange

end Reassembler

namespace Pools.Consistent

variable {pools origin : Pools} {exchange : Exchange}
variable {others : List Packet} {fragment : Packet}
variable {reassembler : Reassembler}

/-! ## Dropping datagrams -/

theorem dropLate_satisfies {pool : PoolId} :
    ∀ {assemblies : List Assembly} {pools : Pools},
      pools.Consistent origin exchange
        (assemblies.flatMap Assembly.fragments ++ others) →
      (Reassembler.dropLate pool assemblies pools).Satisfies
        (fun _ after => after.Consistent origin exchange others)
        (fun _ _ => False) exchange.MayStopReturns
  | [], _, consistent => consistent
  | assembly :: rest, _, consistent => by
      rw [List.flatMap_cons, List.append_assoc] at consistent
      apply Outcome.Satisfies.bind consistent.dropAll_satisfies
      intro _ after consistentRest
      apply Outcome.Satisfies.bind
        (consistentRest.count_satisfies pool _)
      intro _ last consistentLast
      exact dropLate_satisfies consistentLast

theorem dropDatagrams_satisfies :
    ∀ {assemblies : List Assembly} {pools : Pools},
      pools.Consistent origin exchange
        (assemblies.flatMap Assembly.fragments ++ others) →
      (Reassembler.dropDatagrams assemblies pools).Satisfies
        (fun _ after => after.Consistent origin exchange others)
        (fun _ _ => False) exchange.MayStopReturns
  | [], _, consistent => consistent
  | assembly :: rest, _, consistent => by
      rw [List.flatMap_cons, List.append_assoc] at consistent
      apply Outcome.Satisfies.bind consistent.dropAll_satisfies
      intro _ after consistentRest
      exact dropDatagrams_satisfies consistentRest

/-- The fragments of datagrams that are late are dropped, all others are
held on to. -/
theorem expire_satisfies (now : Nat)
    (consistent : pools.Consistent origin exchange
      (reassembler.fragments ++ others)) :
    (reassembler.expire now pools).Satisfies
      (fun result after =>
        result = (reassembler.late now, reassembler.swept now) ∧
        after.Consistent origin exchange
          ((reassembler.swept now).fragments ++ others))
      (fun _ _ => False) exchange.MayStopReturns := by
  have split : pools.Consistent origin exchange
      (reassembler.lateFragments now ++
        ((reassembler.swept now).fragments ++ others)) := by
    apply consistent.perm
    rw [← List.append_assoc]
    exact List.Perm.append_right others
      (reassembler.fragments_perm_swept now)
  apply Outcome.Satisfies.bind (dropLate_satisfies split)
  intro _ after consistentAfter
  exact Outcome.Satisfies.pure ⟨rfl, consistentAfter⟩

theorem clear_satisfies {choices : List Nat}
    (consistent : pools.Consistent origin exchange
      (reassembler.fragments ++ others)) :
    (reassembler.clear choices pools).Satisfies
      (fun result after => result = reassembler.cleared ∧
        after.Consistent origin exchange others)
      (fun _ _ => False) exchange.MayStopReturns := by
  have ordered := consistent.perm
    ((reassembler.fragments_arrange_perm choices).symm.append_right others)
  apply Outcome.Satisfies.bind (dropDatagrams_satisfies ordered)
  intro _ after consistentAfter
  exact Outcome.Satisfies.pure ⟨rfl, consistentAfter⟩

/-! ## Accepting fragments -/

theorem makeRoom_satisfies_roomy (datagram now : Nat)
    (consistent : pools.Consistent origin exchange
      (fragment :: (reassembler.fragments ++ others))) :
    (reassembler.makeRoom datagram fragment now pools).Satisfies
      (fun roomy after => roomy = reassembler.roomy datagram now ∧
        after.Consistent origin exchange
          (fragment :: (roomy.fragments ++ others)) ∧
        (reassembler.pending.contains datagram = true ∨
          reassembler.inFlight < reassembler.limits.maxDatagrams →
            after = pools))
      (fun _ _ => False) exchange.MayStop := by
  have keptFragment := consistent.kept fragment (List.mem_cons_self ..)
  have fragmentLast : pools.Consistent origin exchange
      (reassembler.fragments ++ (fragment :: others)) :=
    consistent.perm List.perm_middle.symm
  refine Outcome.Satisfies.ite ?_ ?_
  · intro full
    have needed : ¬(reassembler.pending.contains datagram = true ∨
        reassembler.inFlight < reassembler.limits.maxDatagrams) := by
      simp only [Bool.and_eq_true, Bool.not_eq_true',
        decide_eq_true_eq] at full
      intro either
      rcases either with known | room
      · simp [full.1] at known
      · exact absurd full.2 (Nat.not_le_of_lt room)
    apply Outcome.Satisfies.bind (holding (by simpa using keptFragment)
      (fragmentLast.expire_satisfies now).returned)
    intro _ after ending
    obtain ⟨rfl, consistentAfter⟩ := ending
    refine Outcome.Satisfies.pure ⟨?_, ?_, fun room => absurd room needed⟩
    · simp only [Reassembler.roomy, full, if_true]
    · exact consistentAfter.perm List.perm_middle
  · intro notFull
    refine Outcome.Satisfies.pure ⟨?_, consistent, fun _ => rfl⟩
    simp only [Reassembler.roomy, notFull]
    rfl

theorem giveUp_satisfies {hand : Reassembler.Hand} {assembly : Assembly}
    {tag : FragmentTag} {error : BufferError}
    (consistent : pools.Consistent origin exchange
      (fragment :: (assembly.fragments ++
        ((reassembler.without tag.datagram.toNat).fragments ++ others))))
    (keepsHand : reassembler.KeepsHand exchange hand) :
    (reassembler.giveUp hand assembly tag fragment error pools).Satisfies
      (fun acceptance after => acceptance =
          (.error error, reassembler.without tag.datagram.toNat) ∧
        after.Consistent origin exchange
          ((reassembler.without tag.datagram.toNat).fragments ++ others))
      (fun _ _ => False) exchange.MayStop := by
  apply Outcome.Satisfies.bind (holding
    (keepsHand reassembler (List.Subset.refl _))
    consistent.drop_satisfies.returned)
  intro _ after consistentAfter
  apply Outcome.Satisfies.bind (holding
    (keepsHand _ (reassembler.fragments_without_subset _))
    consistentAfter.dropAll_satisfies.returned)
  intro _ last consistentLast
  cases error with
  | overlap datagram offset len =>
      apply Outcome.Satisfies.bind
        (consistentLast.count_satisfies reassembler.pool _)
      exact fun _ _ counted => Outcome.Satisfies.pure ⟨rfl, counted⟩
  | _ => exact Outcome.Satisfies.pure ⟨rfl, consistentLast⟩

/-- A fragment added to its datagram is held, or joined with the others, or
dropped with them. -/
theorem add_satisfies {hand : Reassembler.Hand} {assembly : Assembly}
    {tag : FragmentTag}
    (consistent : pools.Consistent origin exchange
      (fragment :: (assembly.fragments ++
        ((reassembler.without tag.datagram.toNat).fragments ++ others))))
    (keepsHand : reassembler.KeepsHand exchange hand) :
    (reassembler.add hand assembly tag fragment pools).Satisfies
      (fun acceptance after =>
        acceptance.2 = (reassembler.judgeAdded assembly tag fragment).2 ∧
        after.Consistent origin exchange
          (Reassembler.delivered acceptance.1 ++
            (acceptance.2.fragments ++ others)) ∧
        (reassembler.judgeAdded assembly tag fragment).1.Fits
          acceptance.1 ∧
        ∀ longer, (reassembler.judgeAdded assembly tag fragment).1 =
            .whole longer →
          Reassembly.Ending exchange (pools.get reassembler.pool)
            reassembler.pool longer acceptance.1)
      (fun _ _ => False) exchange.MayStop := by
  unfold Reassembler.add Reassembler.judgeAdded
  cases inserting : assembly.insert tag fragment
      reassembler.limits.holdLimit with
  | error error =>
      apply (consistent.giveUp_satisfies keepsHand).monoDone
      intro _ after ending
      obtain ⟨rfl, consistentAfter⟩ := ending
      exact ⟨rfl, consistentAfter, rfl, fun _ impossible => by
        simp at impossible⟩
  | ok longer =>
      have held := Assembly.fragments_of_insert inserting
      have consistentLonger : pools.Consistent origin exchange
          (longer.fragments ++
            ((reassembler.without tag.datagram.toNat).fragments ++
              others)) :=
        consistent.perm (held.symm.append_right _)
      refine Outcome.Satisfies.ite ?_ ?_
      · intro complete
        simp only [complete, if_true]
        apply Outcome.Satisfies.bind (holding
          (keepsHand _ (reassembler.fragments_without_subset _))
          consistentLonger.join_satisfies.attempt)
        intro joined after known
        cases joined with
        | error error =>
            refine Outcome.Satisfies.pure ⟨rfl, known.1, ?_, ?_⟩
            · simp [Reassembler.Decision.Fits, Except.map]
            · intro _ ending
              cases ending
              exact known.2
        | ok packet =>
            refine Outcome.Satisfies.pure ⟨rfl, known.1, ?_, ?_⟩
            · simp [Reassembler.Decision.Fits, Except.map]
            · intro _ ending
              cases ending
              exact known.2
      · intro incomplete
        simp only [incomplete]
        refine Outcome.Satisfies.pure ⟨rfl, ?_, rfl, ?_⟩
        · apply consistentLonger.perm
          rw [← List.append_assoc]
          apply List.Perm.append_right others
          exact (reassembler.fragments_having_perm _ longer).symm
        · intro _ impossible
          simp at impossible

/-- An addition answers a fragment if it is what was decided on. -/
theorem add_answers {roomy : Reassembler} {hand : Reassembler.Hand}
    {assembly : Assembly} {tag : FragmentTag} {now deadline : Nat}
    {before : Pools}
    (consistent : before.Consistent origin exchange
      (fragment :: (assembly.fragments ++
        ((roomy.without tag.datagram.toNat).fragments ++ others))))
    (keepsHand : roomy.KeepsHand exchange hand)
    (samePool : roomy.pool = reassembler.pool)
    (whenRoom : ∀ place, fragment.tag = some place →
      reassembler.HasRoom place.datagram.toNat → before = pools)
    (decided : reassembler.judge fragment now deadline =
      roomy.judgeAdded assembly tag fragment) :
    (roomy.add hand assembly tag fragment before).Satisfies
      (fun acceptance after =>
        reassembler.Answers exchange pools fragment now deadline
          acceptance ∧
        after.Consistent origin exchange
          (Reassembler.delivered acceptance.1 ++
            (acceptance.2.fragments ++ others)))
      (fun _ _ => False) exchange.MayStop := by
  apply (consistent.add_satisfies keepsHand).monoDone
  intro acceptance after ending
  obtain ⟨sameState, consistentAfter, fits, ending⟩ := ending
  refine ⟨⟨?_, ?_, ?_⟩, consistentAfter⟩
  · rw [decided, sameState]
  · rw [decided]
    exact fits
  · intro longer isWhole
    rw [decided] at isWhole
    rw [← samePool]
    exact ⟨before, whenRoom, ending longer isWhole⟩

/-- The fragments of a datagram that is late are dropped before the one that
came too late for it. -/
theorem dropTardy_satisfies {α : Type} {hand : Reassembler.Hand}
    {held : List Packet} {result : α}
    (consistent : pools.Consistent origin exchange
      (fragment :: (held ++ (reassembler.fragments ++ others))))
    (keptHand : ∀ packet ∈ hand reassembler, packet.Kept exchange) :
    ((do
      Operation.holding (fragment :: hand reassembler)
        (Packet.dropAll held)
      Reassembler.countTimeout reassembler.pool
      Operation.holding (hand reassembler) fragment.drop
      pure result : Operation α) pools).Satisfies
        (fun value after => value = result ∧
          after.Consistent origin exchange
            (reassembler.fragments ++ others))
        (fun _ _ => False) exchange.MayStop := by
  have keptBoth : ∀ packet ∈ fragment :: hand reassembler,
      packet.Kept exchange := by
    intro packet member
    rcases List.mem_cons.mp member with rfl | inHand
    · exact consistent.kept packet (List.mem_cons_self ..)
    · exact keptHand packet inHand
  have heldFirst : pools.Consistent origin exchange
      (held ++ (fragment :: (reassembler.fragments ++ others))) :=
    consistent.perm List.perm_middle.symm
  apply Outcome.Satisfies.bind
    (holding keptBoth heldFirst.dropAll_satisfies.returned)
  intro _ after consistentAfter
  apply Outcome.Satisfies.bind
    (consistentAfter.count_satisfies reassembler.pool _)
  intro _ counted consistentCounted
  apply Outcome.Satisfies.bind
    (holding keptHand consistentCounted.drop_satisfies.returned)
  intro _ last consistentLast
  exact Outcome.Satisfies.pure ⟨rfl, consistentLast⟩

/-- Whatever comes of a fragment, the fragments held afterwards and the packet
delivered are live, and the state is the one decided on. -/
theorem pushUntil_satisfies {hand : Reassembler.Hand} {now deadline : Nat}
    (consistent : pools.Consistent origin exchange
      (fragment :: (reassembler.fragments ++ others)))
    (keepsHand : reassembler.KeepsHand exchange hand) :
    (reassembler.pushUntil hand fragment now deadline pools).Satisfies
      (fun acceptance after =>
        reassembler.Answers exchange pools fragment now deadline
          acceptance ∧
        after.Consistent origin exchange
          (Reassembler.delivered acceptance.1 ++
            (acceptance.2.fragments ++ others)))
      (fun _ _ => False) exchange.MayStop := by
  cases tagged : fragment.tag with
  | none =>
      have decided : reassembler.judge fragment now deadline =
          (.refused .notAFragment, reassembler) := by
        simp only [Reassembler.judge, tagged]
      simp only [Reassembler.pushUntil, tagged]
      apply Outcome.Satisfies.bind (holding
        (keepsHand reassembler (List.Subset.refl _))
        consistent.drop_satisfies.returned)
      intro _ after consistentAfter
      exact Outcome.Satisfies.pure ⟨.of_refused decided, consistentAfter⟩
  | some tag =>
      have judged : reassembler.judge fragment now deadline =
          (reassembler.roomy tag.datagram.toNat now).judgeTagged tag
            fragment now deadline := by
        simp only [Reassembler.judge, tagged]
      simp only [Reassembler.pushUntil, tagged]
      apply Outcome.Satisfies.bind
        (consistent.makeRoom_satisfies_roomy tag.datagram.toNat now)
      intro roomy before ending
      obtain ⟨isRoomy, consistentRoomy, unchanged⟩ := ending
      have keepsHandRoomy : roomy.KeepsHand exchange hand := by
        intro other inside
        refine keepsHand other (List.Subset.trans inside ?_)
        rw [isRoomy]
        exact reassembler.fragments_roomy_subset _ now
      have samePool : roomy.pool = reassembler.pool := by
        rw [isRoomy]
        exact reassembler.roomy_pool _ now
      rw [← isRoomy] at judged
      have whenRoom : ∀ place, fragment.tag = some place →
          reassembler.HasRoom place.datagram.toNat → before = pools := by
        intro place isPlace room
        rw [tagged] at isPlace
        cases isPlace
        exact unchanged room
      -- From here on only the roomy state and the pools behind it matter.
      cases pending : roomy.pending.get? tag.datagram.toNat with
      | some assembly =>
          have accounted : before.Consistent origin exchange
              (fragment :: (assembly.fragments ++
                ((roomy.without tag.datagram.toNat).fragments ++
                  others))) := by
            refine consistentRoomy.perm (List.Perm.cons _ ?_)
            rw [← List.append_assoc]
            exact List.Perm.append_right others
              (Reassembler.fragments_perm_of_get? pending)
          refine Outcome.Satisfies.ite ?_ ?_
          · intro isLate
            have decided : reassembler.judge fragment now deadline =
                (.refused (.reassemblyTimeout tag.datagram),
                  roomy.without tag.datagram.toNat) := by
              simp only [judged, Reassembler.judgeTagged, pending, isLate,
                if_true]
            apply (accounted.dropTardy_satisfies (keepsHandRoomy _
              (roomy.fragments_without_subset _))).monoDone
            intro _ after ending
            obtain ⟨rfl, consistentAfter⟩ := ending
            exact ⟨.of_refused decided, consistentAfter⟩
          · intro inTime
            apply accounted.add_answers keepsHandRoomy samePool whenRoom
            simp only [judged, Reassembler.judgeTagged, pending, inTime,
              if_false]
      | none =>
          refine Outcome.Satisfies.ite ?_ ?_
          · intro full
            have decided : reassembler.judge fragment now deadline =
                (.refused (.tooManyDatagrams roomy.limits.maxDatagrams),
                  roomy) := by
              simp only [judged, Reassembler.judgeTagged, pending, full,
                if_true]
            apply Outcome.Satisfies.bind (holding
              (keepsHandRoomy roomy (List.Subset.refl _))
              consistentRoomy.drop_satisfies.returned)
            intro _ last consistentLast
            exact Outcome.Satisfies.pure
              ⟨.of_refused decided, consistentLast⟩
          · intro hasRoom
            refine add_answers ?_ keepsHandRoomy samePool whenRoom ?_
            · rw [Reassembler.without_of_absent pending]
              exact consistentRoomy
            · simp only [judged, Reassembler.judgeTagged, pending, hasRoom,
                if_false]

/-- A clock that cannot show the deadline stops the run; nothing else does
that exchanges have not made possible. -/
theorem push_satisfies {now : Nat}
    (consistent : pools.Consistent origin exchange
      (fragment :: (reassembler.fragments ++ others))) :
    (reassembler.push fragment now pools).Satisfies
      (fun acceptance after =>
        (∃ deadline,
          reassembler.limits.timeout.after? now = some deadline ∧
          reassembler.Answers exchange pools fragment now deadline
            acceptance) ∧
        after.Consistent origin exchange
          (Reassembler.delivered acceptance.1 ++
            (acceptance.2.fragments ++ others)))
      (fun _ _ => False)
      (fun stop => exchange.MayStop stop ∨ stop = .outOfRange) := by
  have keptFragment := consistent.kept fragment (List.mem_cons_self ..)
  unfold Reassembler.push
  cases reading : reassembler.limits.timeout.after? now with
  | none =>
      refine Outcome.Satisfies.holding (Or.inr rfl) ?_
      intro stop _ foreign
      have keptInHand : ∀ packet ∈ [fragment], packet.Kept exchange := by
        simpa using keptFragment
      exact Or.inl (Packet.Kept.collapses keptInHand foreign).mayStop
  | some deadline =>
      refine (consistent.pushUntil_satisfies
        (fun _ _ => by simp)).mono ?_
          (fun _ _ impossible => impossible) (fun _ stops => Or.inl stops)
      intro acceptance after ending
      obtain ⟨answers, consistentAfter⟩ := ending
      exact ⟨⟨deadline, rfl, answers⟩, consistentAfter⟩

/-! ## Reassembling one datagram -/

variable {choices : List Nat}

theorem dropLeftovers_satisfies {rest : List Packet}
    (consistent : pools.Consistent origin exchange
      (rest ++ (reassembler.fragments ++ others))) :
    (Pool.dropLeftovers reassembler rest choices pools).Satisfies
      (fun _ after => after.Consistent origin exchange others)
      (fun _ _ => False) exchange.MayStop := by
  have keptHeld : ∀ packet ∈ reassembler.fragments,
      packet.Kept exchange := by
    intro packet member
    refine consistent.kept packet (List.mem_append_right rest ?_)
    exact List.mem_append_left others member
  apply Outcome.Satisfies.bind
    (holding keptHeld consistent.dropAll_satisfies.returned)
  intro _ after consistentAfter
  apply Outcome.Satisfies.bind consistentAfter.clear_satisfies.returned
  intro _ last ending
  obtain ⟨_, consistentLast⟩ := ending
  exact Outcome.Satisfies.pure consistentLast

theorem abandon_satisfies {α : Type} {rest : List Packet}
    {error : BufferError} {done : α → Pools → Prop}
    (consistent : pools.Consistent origin exchange
      (rest ++ (reassembler.fragments ++ others))) :
    (@Pool.abandon α reassembler rest choices error pools).Satisfies done
      (fun _ after => after.Consistent origin exchange others)
      exchange.MayStop := by
  apply Outcome.Satisfies.bind
    consistent.dropLeftovers_satisfies.neverRefused
  exact fun _ _ consistentAfter => Outcome.Satisfies.fail consistentAfter

/-- What is left to arrive and what is held can be kept in hand. -/
theorem keepsHand {rest : List Packet}
    (consistent : pools.Consistent origin exchange
      (fragment :: rest ++ (reassembler.fragments ++ others))) :
    reassembler.KeepsHand exchange
      (fun reassembler => rest ++ reassembler.fragments) := by
  intro other inside packet member
  apply consistent.kept packet
  rcases List.mem_append.mp member with isLater | isHeld
  · exact List.mem_append_left _ (.tail _ isLater)
  · exact List.mem_append_right _
      (List.mem_append_left others (inside isHeld))

theorem reassembleFrom_satisfies {deadline : Nat} :
    ∀ {arrivals : List (Nat × Packet)} {latest : UInt32}
      {reassembler : Reassembler} {pools : Pools},
      pools.Consistent origin exchange
        (arrivals.map Prod.snd ++ (reassembler.fragments ++ others)) →
      (Pool.reassembleFrom reassembler deadline choices latest arrivals
        pools).Satisfies
          (fun packet after =>
            after.Consistent origin exchange (packet :: others))
          (fun _ after => after.Consistent origin exchange others)
          exchange.MayStop
  | [], _, reassembler, _, consistent => by
      apply Outcome.Satisfies.bind (Outcome.Satisfies.neverRefused
        (consistent.count_satisfies reassembler.pool _))
      exact fun _ _ counted => counted.abandon_satisfies
  | (now, fragment) :: later, _, reassembler, _, consistent => by
      refine Outcome.Satisfies.ite ?_ ?_
      · intro _
        apply Outcome.Satisfies.bind (Outcome.Satisfies.neverRefused
          (consistent.count_satisfies reassembler.pool _))
        exact fun _ _ counted => counted.abandon_satisfies
      · intro _
        have heldFirst :
            (later.map Prod.snd ++ (reassembler.fragments ++ others)).Perm
              (reassembler.fragments ++
                (later.map Prod.snd ++ others)) := by
          rw [← List.append_assoc, ← List.append_assoc]
          exact List.Perm.append_right others List.perm_append_comm
        have handed : ∀ {pools : Pools}, pools.Consistent origin exchange
            (fragment :: (later.map Prod.snd ++
              (reassembler.fragments ++ others))) →
            pools.Consistent origin exchange
              (fragment :: (reassembler.fragments ++
                (later.map Prod.snd ++ others))) :=
          fun known => known.perm (heldFirst.cons _)
        apply Outcome.Satisfies.bind (Outcome.Satisfies.neverRefused
          ((handed consistent).pushUntil_satisfies
            consistent.keepsHand))
        rintro ⟨answer, next⟩ after ⟨_, consistentAfter⟩
        have restFirst : ∀ delivered : List Packet,
            (delivered ++ (next.fragments ++
              (later.map Prod.snd ++ others))).Perm
                (later.map Prod.snd ++
                  (next.fragments ++ (delivered ++ others))) := by
          intro delivered
          apply (List.perm_append_comm_assoc ..).trans
          apply (List.Perm.append_left _
            (List.perm_append_comm_assoc ..)).trans
          exact List.perm_append_comm_assoc ..
        have consistentRest := consistentAfter.perm (restFirst _)
        match answer with
        | .error error => exact consistentRest.abandon_satisfies
        | .ok none => exact reassembleFrom_satisfies consistentRest
        | .ok (some packet) =>
            apply Outcome.Satisfies.bind
              consistentRest.dropLeftovers_satisfies.neverRefused
            exact fun _ _ consistentLast =>
              Outcome.Satisfies.pure consistentLast

theorem reassemble_satisfies {id : PoolId} {deadline : Nat}
    {arrivals : List (Nat × Packet)}
    (consistent : pools.Consistent origin exchange
      (arrivals.map Prod.snd ++ others)) :
    (Pool.reassemble id arrivals deadline choices pools).Satisfies
      (fun packet after =>
        after.Consistent origin exchange (packet :: others))
      (fun _ after => after.Consistent origin exchange others)
      exchange.MayStop := by
  have forPool : (Reassembler.forPool id pools).Satisfies
      (fun reassembler after => reassembler.pending = .empty ∧
        after = pools)
      (fun _ after => after.Consistent origin exchange others)
      exchange.MayStop :=
    Outcome.Satisfies.readPool (Outcome.Satisfies.pure ⟨rfl, rfl⟩)
  apply Outcome.Satisfies.bind forPool
  intro reassembler _ ending
  obtain ⟨isEmpty, rfl⟩ := ending
  have nothingHeld : reassembler.fragments = [] := by
    rw [Reassembler.fragments, isEmpty]
    rfl
  apply reassembleFrom_satisfies
  rw [nothingHeld]
  exact consistent

end Pools.Consistent
end PooledPackets
