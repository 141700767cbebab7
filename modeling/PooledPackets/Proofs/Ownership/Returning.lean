import PooledPackets.Proofs.Contracts
import PooledPackets.Reassembly.Reassembler

/-!
# Segments that come back

Segments that are given back stand at the end of the queue of their pool, in
the order in which they were given back, emptied but with all bytes as they
were. Dropping packets or datagrams comes to nothing else, as far as segments
go, and is never refused.
-/

namespace PooledPackets

open Operation

/-- Segments have come back to their pools. None was handed out. -/
structure Pools.Regains (pools : Pools) (segments : List Segment)
    (after : Pools) : Prop where
  config_eq : ∀ id, (after.get id).config = (pools.get id).config
  free_eq : ∀ id, (after.get id).free = (pools.get id).free ++
    (segments.filter fun segment => segment.pool == id).map Segment.clear

/-- Segments have come back, and if each pool has a number of its own, they
have come back to their pools. None was handed out. -/
structure Pools.GetsBack (pools : Pools) (segments : List Segment)
    (after : Pools) : Prop where
  numbers_eq : after.numbers = pools.numbers
  config_eq : ∀ id, (after.get id).config = (pools.get id).config
  free_from : ∀ id, ∀ segment ∈ (after.get id).free,
    segment ∈ (pools.get id).free ∨
      ∃ source ∈ segments, segment = source.clear
  free_eq : pools.Distinct → ∀ id,
    (after.get id).free = (pools.get id).free ++
      (segments.filter fun segment => segment.pool == id).map Segment.clear

namespace Pools.GetsBack

variable {pools between after : Pools} {segments more : List Segment}

theorem distinct (regains : pools.GetsBack segments after)
    (distinct : pools.Distinct) : after.Distinct :=
  distinct.of_numbers_eq regains.numbers_eq

theorem refl (pools : Pools) : pools.GetsBack [] pools where
  numbers_eq := rfl
  config_eq := fun _ => rfl
  free_from := fun _ _ member => Or.inl member
  free_eq := fun _ _ => (List.append_nil _).symm

theorem trans (first : pools.GetsBack segments between)
    (second : between.GetsBack more after) :
    pools.GetsBack (segments ++ more) after where
  numbers_eq := second.numbers_eq.trans first.numbers_eq
  config_eq := fun id => (second.config_eq id).trans (first.config_eq id)
  free_from := fun id segment member => by
    rcases second.free_from id segment member with isFree |
      ⟨source, isBack, same⟩
    · rcases first.free_from id segment isFree with wasFree |
        ⟨source, isBack, same⟩
      · exact Or.inl wasFree
      · exact Or.inr ⟨source, List.mem_append_left _ isBack, same⟩
    · exact Or.inr ⟨source, List.mem_append_right _ isBack, same⟩
  free_eq := fun distinct id => by
    rw [second.free_eq (first.distinct distinct), first.free_eq distinct,
      List.filter_append, List.map_append, List.append_assoc]

/-- Counting does not move any segment. -/
theorem count (regains : pools.GetsBack segments after) (id : PoolId)
    (counted : Counters → Counters) :
    pools.GetsBack segments
      (after.set id ((after.get id).count counted)) := by
  have same : ∀ other, ((after.set id ((after.get id).count counted)).get
      other).config = (after.get other).config ∧
      ((after.set id ((after.get id).count counted)).get other).free =
        (after.get other).free := by
    intro other
    rw [Pools.get_set]
    split
    · rename_i isId
      rw [isId]
      exact ⟨rfl, rfl⟩
    · exact ⟨rfl, rfl⟩
  constructor
  · exact regains.numbers_eq
  · exact fun other => (same other).1.trans (regains.config_eq other)
  · intro other
    rw [(same other).2]
    exact regains.free_from other
  · exact fun distinct other =>
      (same other).2.trans (regains.free_eq distinct other)

theorem regains (getsBack : pools.GetsBack segments after)
    (distinct : pools.Distinct) : pools.Regains segments after where
  config_eq := getsBack.config_eq
  free_eq := getsBack.free_eq distinct

end Pools.GetsBack

theorem Returned.segments_unlinked (chain : List Segment) :
    (unlinked chain).map segment = chain := by
  rw [unlinked, List.map_map]
  exact List.map_id chain

namespace Pool

theorem same_of_faultless {same : PoolId → Bool} {id : PoolId}
    {returned : List Returned}
    (faultless : returned.findSome? (returnViolation? same id) = none) :
    ∀ one ∈ returned, same one.segment.pool = true := by
  intro one member
  have clean := List.findSome?_eq_none_iff.mp faultless one member
  by_cases own : same one.segment.pool = true
  · exact own
  · simp [returnViolation?, own] at clean

/-- Only segments of the same number come back to a pool, and they come back
emptied. -/
theorem takeBack_gains {same : PoolId → Bool} {id : PoolId}
    {chain : List Segment} {pool restored : Pool}
    (taken : takeBack same id (Returned.unlinked chain) pool =
      .ok restored) :
    restored.free = pool.free ++ chain.map Segment.clear ∧
      ∀ segment ∈ chain, same segment.pool = true := by
  simp only [takeBack, putBack, Returned.segments_unlinked] at taken
  split at taken
  · cases taken
  · rename_i faultless
    split at taken
    · cases taken
    · cases taken
      refine ⟨rfl, fun segment member => ?_⟩
      exact same_of_faultless faultless ⟨segment, []⟩
        (List.mem_map_of_mem member)

theorem checkIn_returns (id : PoolId) (chain : List Segment)
    (pools : Pools) :
    (checkIn id (Returned.unlinked chain) pools).Satisfies
      (fun _ after => pools.GetsBack chain after) (fun _ _ => False)
      (fun _ => True) := by
  apply Outcome.Satisfies.namesakes
  apply Outcome.Satisfies.readPool
  cases taken : takeBack (fun other => pools.sameNumber other id) id
    (Returned.unlinked chain) (pools.get id) with
  | error violation => trivial
  | ok restored =>
      obtain ⟨gained, namesakes⟩ := takeBack_gains taken
      refine ⟨rfl, fun other => ?_, fun other => ?_,
        fun distinct other => ?_⟩
      · rw [Pools.get_set]
        split
        · rename_i isId
          rw [(takeBack_keeps taken).1, isId]
        · rfl
      · rw [Pools.get_set]
        split
        · rename_i isId
          rw [gained, isId]
          intro segment member
          rcases List.mem_append.mp member with wasFree | isBack
          · exact Or.inl wasFree
          · obtain ⟨source, inChain, same⟩ := List.mem_map.mp isBack
            exact Or.inr ⟨source, inChain, same.symm⟩
        · exact fun _ member => Or.inl member
      · have own : ∀ segment ∈ chain, segment.pool = id :=
          fun segment member => distinct _ _ (namesakes segment member)
        rw [Pools.get_set]
        split
        · rename_i isId
          have all : chain.filter (fun segment => segment.pool == other) =
              chain := by
            rw [List.filter_eq_self]
            exact fun segment member => by simp [own segment member, isId]
          rw [gained, all, isId]
        · rename_i notId
          have nothing : chain.filter (fun segment =>
              segment.pool == other) = [] := by
            rw [List.filter_eq_nil_iff]
            exact fun segment member => by
              simp [own segment member, Ne.symm notId]
          rw [nothing, List.map_nil, List.append_nil]

end Pool

namespace Packet

variable {pools : Pools}

theorem giveBack_returns (packet : Packet) (pools : Pools) :
    (packet.giveBack pools).Satisfies
      (fun _ after => pools.GetsBack packet.chain after) (fun _ _ => False)
      (fun _ => True) :=
  Outcome.Satisfies.bind
    (Pool.checkIn_returns packet.pool packet.chain pools)
    fun _ _ regained => regained.count packet.pool _

theorem drop_returns (packet : Packet) (pools : Pools) :
    (packet.drop pools).Satisfies
      (fun _ after => pools.GetsBack packet.chain after) (fun _ _ => False)
      (fun _ => True) := by
  refine Outcome.Satisfies.ite ?_ fun _ => packet.giveBack_returns pools
  intro isReleased
  rw [List.isEmpty_iff.mp isReleased]
  exact Pools.GetsBack.refl pools

theorem dropAll_returns (packets : List Packet) (pools : Pools) :
    (dropAll packets pools).Satisfies
      (fun _ after =>
        pools.GetsBack (packets.flatMap Packet.chain) after)
      (fun _ _ => False) (fun _ => True) := by
  induction packets generalizing pools with
  | nil => exact Pools.GetsBack.refl pools
  | cons packet rest inductionHypothesis =>
      apply Outcome.Satisfies.bind
        ((packet.drop_returns pools).holding fun _ _ _ => trivial)
      intro _ between regained
      apply (inductionHypothesis between).monoDone
      exact fun _ _ more => regained.trans more

end Packet

namespace Reassembler

theorem dropLate_returns (pool : PoolId) (assemblies : List Assembly)
    (pools : Pools) :
    (dropLate pool assemblies pools).Satisfies
      (fun _ after => pools.GetsBack
        ((assemblies.flatMap Assembly.fragments).flatMap Packet.chain) after)
      (fun _ _ => False) (fun _ => True) := by
  induction assemblies generalizing pools with
  | nil => exact Pools.GetsBack.refl pools
  | cons assembly rest inductionHypothesis =>
      apply Outcome.Satisfies.bind
        (Packet.dropAll_returns assembly.fragments pools)
      intro _ between regained
      apply (inductionHypothesis _).monoDone
      intro _ after more
      rw [List.flatMap_cons, List.flatMap_append]
      exact (regained.count pool _).trans more

theorem dropDatagrams_returns (assemblies : List Assembly) (pools : Pools) :
    (dropDatagrams assemblies pools).Satisfies
      (fun _ after => pools.GetsBack
        ((assemblies.flatMap Assembly.fragments).flatMap Packet.chain) after)
      (fun _ _ => False) (fun _ => True) := by
  induction assemblies generalizing pools with
  | nil => exact Pools.GetsBack.refl pools
  | cons assembly rest inductionHypothesis =>
      apply Outcome.Satisfies.bind
        (Packet.dropAll_returns assembly.fragments pools)
      intro _ between regained
      apply (inductionHypothesis between).monoDone
      intro _ after more
      rw [List.flatMap_cons, List.flatMap_append]
      exact regained.trans more

end Reassembler

end PooledPackets
