import PooledPackets.Proofs.Ownership.Returning

/-!
# The balance of segments

A pool accounts for its segments if each of them is either free or out, and
its table says which. Handing segments out and taking them back keeps the
balance between the free queues and the segments that packets hold, whatever
packets hold them.
-/

namespace PooledPackets

/-- What stays with a segment for good: its pool, its number and its zones. -/
def Segment.identity (segment : Segment) : PoolId × Nat × Layout :=
  (segment.pool, segment.id, segment.layout)

/-- Segments that stay the same for good belong to the same pool. -/
theorem Segment.own_of_identity {changed chain : List Segment} {id : PoolId}
    (same : changed.map Segment.identity = chain.map Segment.identity)
    (own : ∀ segment ∈ chain, segment.pool = id) :
    ∀ segment ∈ changed, segment.pool = id := by
  intro segment member
  have identified : segment.identity ∈ chain.map Segment.identity :=
    same ▸ List.mem_map_of_mem member
  obtain ⟨source, inChain, equal⟩ := List.mem_map.mp identified
  have samePool : source.pool = segment.pool := congrArg Prod.fst equal
  rw [← samePool]
  exact own source inChain

namespace Pool

/-- The numbers of those segments that belong to a pool. -/
def numbersOf (id : PoolId) (segments : List Segment) : List Nat :=
  (segments.filter (fun segment => segment.pool == id)).map Segment.id

@[simp]
theorem numbersOf_nil (id : PoolId) : numbersOf id [] = [] := rfl

@[simp]
theorem numbersOf_append (id : PoolId) (left right : List Segment) :
    numbersOf id (left ++ right) = numbersOf id left ++ numbersOf id right := by
  simp [numbersOf]

theorem mem_numbersOf {id : PoolId} {segments : List Segment}
    {number : Nat} :
    number ∈ numbersOf id segments ↔
      ∃ segment ∈ segments, segment.pool = id ∧ segment.id = number := by
  simp [numbersOf, and_assoc]

theorem numbersOf_of_own {id : PoolId} {segments : List Segment}
    (own : ∀ segment ∈ segments, segment.pool = id) :
    numbersOf id segments = segments.map Segment.id := by
  have all : segments.filter (fun segment => segment.pool == id) = segments := by
    rw [List.filter_eq_self]
    intro segment member
    simpa using own segment member
  rw [numbersOf, all]

theorem numbersOf_of_foreign {id : PoolId} {segments : List Segment}
    (foreign : ∀ segment ∈ segments, segment.pool ≠ id) :
    numbersOf id segments = [] := by
  have noneLeft :
      segments.filter (fun segment => segment.pool == id) = [] := by
    rw [List.filter_eq_nil_iff]
    intro segment member
    simpa using foreign segment member
  rw [numbersOf, noneLeft, List.map_nil]

/-- The numbers only depend on what stays with the segments for good. -/
theorem numbersOf_eq_identity (id : PoolId) (segments : List Segment) :
    numbersOf id segments =
      ((segments.map Segment.identity).filter
        (fun identity => identity.1 == id)).map (fun identity => identity.2.1) := by
  simp only [numbersOf, List.filter_map, List.map_map]
  rfl

/-- A pool accounts for its segments while some segments are out: those in its
queue are its own and empty, and each of its numbers is found once, in the
queue or outside. The configuration, the layout and the number of segments are
those that the pool began with. -/
structure Accounts (id : PoolId) (pool origin : Pool) (out : List Segment) :
    Prop where
  config_eq : pool.config = origin.config
  layout_eq : pool.layout = origin.layout
  size_eq : pool.checkedOut.size = origin.checkedOut.size
  free_own : ∀ segment ∈ pool.free, segment.pool = id
  free_empty : ∀ segment ∈ pool.free, segment.length = 0
  free_layout : ∀ segment ∈ pool.free, segment.layout = origin.layout
  out_layout : ∀ segment ∈ out, segment.pool = id →
    segment.layout = origin.layout
  complete : (pool.free.map Segment.id ++ numbersOf id out).Perm
    (List.range origin.checkedOut.size)
  marked : ∀ number, pool.isOut number = true ↔ number ∈ numbersOf id out

namespace Accounts

variable {id : PoolId} {origin pool : Pool} {out out' : List Segment}

/-- Neither the order of the segments that are out nor what is written in them
matters. -/
theorem congr (accounts : Accounts id pool origin out)
    (same : (out.map Segment.identity).Perm (out'.map Segment.identity)) :
    Accounts id pool origin out' := by
  have numbers : (numbersOf id out).Perm (numbersOf id out') := by
    rw [numbersOf_eq_identity, numbersOf_eq_identity]
    exact (same.filter _).map _
  refine { accounts with
    out_layout := ?_
    complete := ((numbers.symm.append_left _).trans accounts.complete)
    marked := fun number => (accounts.marked number).trans numbers.mem_iff }
  intro segment member isOwn
  have identified : segment.identity ∈ out.map Segment.identity :=
    same.mem_iff.mpr (List.mem_map_of_mem member)
  obtain ⟨known, knownMember, sameIdentity⟩ := List.mem_map.mp identified
  simp only [Segment.identity, Prod.mk.injEq] at sameIdentity
  rw [← sameIdentity.2.2]
  exact accounts.out_layout known knownMember (sameIdentity.1.trans isOwn)

/-- Segments of other pools do not concern the accounts of a pool. -/
theorem append_foreign (accounts : Accounts id pool origin out)
    {others : List Segment} (foreign : ∀ segment ∈ others, segment.pool ≠ id) :
    Accounts id pool origin (others ++ out) := by
  have same : numbersOf id (others ++ out) = numbersOf id out := by
    rw [numbersOf_append, numbersOf_of_foreign foreign, List.nil_append]
  refine { accounts with
    out_layout := ?_
    complete := same.symm ▸ accounts.complete
    marked := fun number => same.symm ▸ accounts.marked number }
  intro segment member isOwn
  rcases List.mem_append.mp member with other | known
  · exact absurd isOwn (foreign segment other)
  · exact accounts.out_layout segment known isOwn

theorem of_append_foreign {others : List Segment}
    (accounts : Accounts id pool origin (others ++ out))
    (foreign : ∀ segment ∈ others, segment.pool ≠ id) :
    Accounts id pool origin out := by
  have same : numbersOf id (others ++ out) = numbersOf id out := by
    rw [numbersOf_append, numbersOf_of_foreign foreign, List.nil_append]
  exact { accounts with
    out_layout := fun segment member =>
      accounts.out_layout segment (List.mem_append_right others member)
    complete := same ▸ accounts.complete
    marked := fun number => same ▸ accounts.marked number }

theorem count (accounts : Accounts id pool origin out)
    (change : Counters → Counters) :
    Accounts id (pool.count change) origin out :=
  { accounts with }

theorem numbers_nodup (accounts : Accounts id pool origin out) :
    (pool.free.map Segment.id ++ numbersOf id out).Nodup :=
  accounts.complete.nodup_iff.mpr List.nodup_range

theorem isOut_iff_not_free (accounts : Accounts id pool origin out)
    {number : Nat} (inside : number < origin.checkedOut.size) :
    pool.isOut number = true ↔ number ∉ pool.free.map Segment.id := by
  have found : number ∈ pool.free.map Segment.id ++ numbersOf id out :=
    accounts.complete.mem_iff.mpr (List.mem_range.mpr inside)
  have apart := (List.nodup_append.mp accounts.numbers_nodup).2.2
  rw [accounts.marked]
  constructor
  · intro isOut isFree
    exact apart number isFree number isOut rfl
  · intro notFree
    exact (List.mem_append.mp found).resolve_left notFree

end Accounts

/-! ## The table of segments that are out -/

theorem size_markOut (segments : List Segment) :
    ∀ checkedOut : Array Bool,
      (markOut checkedOut segments).size = checkedOut.size := by
  induction segments with
  | nil =>
      intro checkedOut
      rfl
  | cons segment rest inductionHypothesis =>
      intro checkedOut
      exact (inductionHypothesis _).trans (by simp)

theorem getD_setIfInBounds (checkedOut : Array Bool) (place number : Nat)
    (value : Bool) :
    ((checkedOut.setIfInBounds place value)[number]?).getD false =
      if place = number ∧ number < checkedOut.size then value
      else (checkedOut[number]?).getD false := by
  rw [Array.getElem?_setIfInBounds]
  by_cases same : place = number
  · subst same
    by_cases inside : place < checkedOut.size
    · simp [inside]
    · simp [inside]
  · simp [same]

theorem getD_markOut (segments : List Segment) (number : Nat) :
    ∀ checkedOut : Array Bool,
      ((markOut checkedOut segments)[number]?).getD false = true ↔
        ((checkedOut[number]?).getD false = true ∨
          number < checkedOut.size ∧ number ∈ segments.map Segment.id) := by
  induction segments with
  | nil =>
      intro checkedOut
      simp [markOut]
  | cons segment rest inductionHypothesis =>
      intro checkedOut
      have step := inductionHypothesis
        (checkedOut.setIfInBounds segment.id true)
      rw [getD_setIfInBounds] at step
      simp only [markOut, List.foldl_cons] at step ⊢
      rw [step]
      by_cases isHead : segment.id = number
      · subst isHead
        by_cases inside : segment.id < checkedOut.size
        · simp [inside]
        · simp [inside]
      · have notHead : number ≠ segment.id := Ne.symm isHead
        simp [isHead, notHead]

/-- Segments that are out, each once, can all be noted as back. -/
theorem markBack_ok (id : PoolId) :
    ∀ (segments : List Segment) (checkedOut : Array Bool),
      (segments.map Segment.id).Nodup →
      (∀ segment ∈ segments,
        (checkedOut[segment.id]?).getD false = true) →
      ∃ restored, markBack id segments checkedOut = .ok restored ∧
        restored.size = checkedOut.size ∧
        ∀ number, (restored[number]?).getD false = true ↔
          ((checkedOut[number]?).getD false = true ∧
            number ∉ segments.map Segment.id)
  | [], checkedOut, _, _ => ⟨checkedOut, rfl, rfl, by simp⟩
  | segment :: rest, checkedOut, nodup, allOut => by
      rw [List.map_cons, List.nodup_cons] at nodup
      have headOut := allOut segment (List.mem_cons_self ..)
      have restOut : ∀ other ∈ rest,
          ((checkedOut.setIfInBounds segment.id false)[other.id]?).getD
            false = true := by
        intro other member
        have differs : segment.id ≠ other.id := by
          intro same
          exact nodup.1 (same ▸ List.mem_map_of_mem member)
        rw [getD_setIfInBounds]
        simpa [differs] using allOut other (List.mem_cons_of_mem _ member)
      obtain ⟨restored, marked, size, content⟩ :=
        markBack_ok id rest _ nodup.2 restOut
      refine ⟨restored, ?_, ?_, ?_⟩
      · simpa only [markBack, headOut, if_true] using marked
      · rw [size, Array.size_setIfInBounds]
      · intro number
        rw [content, getD_setIfInBounds]
        by_cases isHead : segment.id = number
        · subst isHead
          by_cases inside : segment.id < checkedOut.size
          · simp [inside]
          · simp [inside]
        · have notHead : number ≠ segment.id := Ne.symm isHead
          simp [isHead, notHead]

end Pool

/-! ## All pools together -/

/-- All pools account for their segments while some segments are out. Each pool
has a number of its own. Nothing but the queues, the tables and the counters
differs from what the pools were at the start. -/
structure Pools.Balanced (pools origin : Pools) (out : List Segment) :
    Prop where
  accounts : ∀ id, (pools.get id).Accounts id (origin.get id) out
  numbers_eq : pools.numbers = origin.numbers
  distinct : pools.Distinct

namespace Pools.Balanced

variable {origin pools : Pools} {out out' chain : List Segment}

theorem congr (balanced : Balanced pools origin out)
    (same : (out.map Segment.identity).Perm (out'.map Segment.identity)) :
    Balanced pools origin out' :=
  { balanced with accounts := fun id => (balanced.accounts id).congr same }

theorem perm (balanced : Balanced pools origin out) (same : out.Perm out') :
    Balanced pools origin out' :=
  balanced.congr (same.map Segment.identity)

theorem set (balanced : Balanced pools origin out) {id : PoolId} {pool : Pool}
    (accounts : pool.Accounts id (origin.get id) out') (others :
      ∀ other, other ≠ id → (pools.get other).Accounts other
        (origin.get other) out → (pools.get other).Accounts other
          (origin.get other) out') :
    Balanced (pools.set id pool) origin out' := by
  refine ⟨fun other => ?_, balanced.numbers_eq, balanced.distinct⟩
  rw [Pools.get_set]
  split
  · rename_i same
    exact same ▸ accounts
  · rename_i different
    exact others other different (balanced.accounts other)

theorem count (balanced : Balanced pools origin out) (id : PoolId)
    (change : Counters → Counters) :
    Balanced (pools.set id ((pools.get id).count change)) origin out :=
  balanced.set ((balanced.accounts id).count change) (fun _ _ accounts => accounts)

theorem count_satisfies (balanced : Balanced pools origin out) (id : PoolId)
    (change : Counters → Counters) {stopped : Stop → Prop} :
    (Operation.count id change pools).Satisfies
      (fun _ after => after.Balanced origin out) (fun _ _ => False) stopped :=
  balanced.count id change

end Pools.Balanced

/-! ## Handing out and taking back -/

namespace Pool

variable {origin pools : Pools} {out chain : List Segment} {id : PoolId}

theorem Accounts.take {origin pool : Pool}
    (accounts : Accounts id pool origin out) (count : Nat) :
    Accounts id (pool.take count).2 origin ((pool.take count).1 ++ out) := by
  have split : pool.free.take count ++ pool.free.drop count = pool.free :=
    List.take_append_drop count pool.free
  have own : ∀ segment ∈ pool.free.take count, segment.pool = id :=
    fun segment member => accounts.free_own segment (List.mem_of_mem_take member)
  have numbers : ((pool.free.drop count).map Segment.id ++
      numbersOf id (pool.free.take count ++ out)).Perm
        (pool.free.map Segment.id ++ numbersOf id out) := by
    rw [numbersOf_append, numbersOf_of_own own, ← List.append_assoc]
    refine List.Perm.append_right _ (List.perm_append_comm.trans ?_)
    rw [← List.map_append, split]
  refine { accounts with
    size_eq := (size_markOut _ _).trans accounts.size_eq
    free_own := fun segment member =>
      accounts.free_own segment (List.mem_of_mem_drop member)
    free_empty := fun segment member =>
      accounts.free_empty segment (List.mem_of_mem_drop member)
    free_layout := fun segment member =>
      accounts.free_layout segment (List.mem_of_mem_drop member)
    out_layout := ?_
    complete := numbers.trans accounts.complete
    marked := ?_ }
  · intro segment member isOwn
    rcases List.mem_append.mp member with handed | before
    · exact accounts.free_layout segment (List.mem_of_mem_take handed)
    · exact accounts.out_layout segment before isOwn
  · intro number
    have inside : number ∈ (pool.free.take count).map Segment.id →
        number < pool.checkedOut.size := by
      intro member
      have isFree : number ∈ pool.free.map Segment.id :=
        (List.Sublist.map _ (List.take_sublist count pool.free)).subset member
      rw [accounts.size_eq, ← List.mem_range, ← accounts.complete.mem_iff]
      exact List.mem_append_left _ isFree
    have marked := accounts.marked number
    rw [isOut] at marked
    rw [isOut, Pool.take, getD_markOut, marked, numbersOf_append,
      numbersOf_of_own own, List.mem_append]
    constructor
    · intro either
      rcases either with before | ⟨_, handed⟩
      · exact Or.inr before
      · exact Or.inl handed
    · intro either
      rcases either with handed | before
      · exact Or.inr ⟨inside handed, handed⟩
      · exact Or.inl before

/-- Asking for segments either hands out exactly so many empty ones or changes
nothing but a counter. -/
theorem checkOut_satisfies (balanced : pools.Balanced origin out)
    (id : PoolId) (count : Nat) {stopped : Stop → Prop} :
    (checkOut id count pools).Satisfies
      (fun segments pools => pools.Balanced origin (segments ++ out) ∧
        segments.length = count ∧
        ∀ segment ∈ segments, segment.pool = id ∧ segment.length = 0 ∧
          segment.layout = (origin.get id).layout)
      (fun _ after => after.Balanced origin out ∧
        (pools.get id).freeCount < count)
      stopped := by
  have accounts := balanced.accounts id
  apply Outcome.Satisfies.readPool
  split
  · rename_i short
    exact ⟨balanced.count id _, short⟩
  · rename_i enough
    refine ⟨?_, ?_, ?_⟩
    · have own : ∀ other, other ≠ id →
          ∀ segment ∈ (pools.get id).free.take count, segment.pool ≠ other := by
        intro other different segment member
        rw [accounts.free_own segment (List.mem_of_mem_take member)]
        exact Ne.symm different
      exact Pools.Balanced.set balanced (accounts.take count)
        (fun other different before =>
          before.append_foreign (own other different))
    · simp only [List.length_take]
      simp only [freeCount] at enough
      omega
    · intro segment member
      have isFree := List.mem_of_mem_take member
      exact ⟨accounts.free_own segment isFree,
        accounts.free_empty segment isFree,
        accounts.free_layout segment isFree⟩

/-- Own segments that are out can be put back at the end of the queue. -/
theorem Accounts.putBack {origin pool : Pool}
    (accounts : Accounts id pool origin (chain ++ out))
    (own : ∀ segment ∈ chain, segment.pool = id) :
    ∃ restored, putBack id chain pool = .ok restored ∧
      Accounts id restored origin out ∧
      restored.free = pool.free ++ chain.map Segment.clear := by
  have numbers : numbersOf id (chain ++ out) =
      chain.map Segment.id ++ numbersOf id out := by
    rw [numbersOf_append, numbersOf_of_own own]
  have nodup := (List.nodup_append.mp accounts.numbers_nodup).2.1
  rw [numbers] at nodup
  have chainOut : ∀ segment ∈ chain,
      (pool.checkedOut[segment.id]?).getD false = true := by
    intro segment member
    apply (accounts.marked segment.id).mpr
    rw [numbers]
    exact List.mem_append_left _ (List.mem_map_of_mem member)
  obtain ⟨restored, marked, size, content⟩ :=
    markBack_ok id chain pool.checkedOut (List.nodup_append.mp nodup).1 chainOut
  refine ⟨{ pool with
    free := pool.free ++ chain.map Segment.clear
    checkedOut := restored }, ?_, ?_, rfl⟩
  · simp only [Pool.putBack, marked]
  · have cleared : ∀ segment ∈ pool.free ++ chain.map Segment.clear,
        segment ∈ pool.free ∨
          ∃ source ∈ chain, source.clear = segment := by
      intro segment member
      simpa only [List.mem_append, List.mem_map] using member
    refine {
      config_eq := accounts.config_eq
      layout_eq := accounts.layout_eq
      size_eq := size.trans accounts.size_eq
      free_own := ?_
      free_empty := ?_
      free_layout := ?_
      out_layout := fun segment member =>
        accounts.out_layout segment (List.mem_append_right _ member)
      complete := ?_
      marked := ?_ }
    · intro segment member
      rcases cleared segment member with before | ⟨source, inChain, rfl⟩
      · exact accounts.free_own segment before
      · exact own source inChain
    · intro segment member
      rcases cleared segment member with before | ⟨source, _, rfl⟩
      · exact accounts.free_empty segment before
      · rfl
    · intro segment member
      rcases cleared segment member with before | ⟨source, inChain, rfl⟩
      · exact accounts.free_layout segment before
      · exact accounts.out_layout source (List.mem_append_left _ inChain)
          (own source inChain)
    · have sameIds : (chain.map Segment.clear).map Segment.id =
          chain.map Segment.id := by
        rw [List.map_map]
        rfl
      have complete := accounts.complete
      rw [numbers, ← List.append_assoc] at complete
      rw [List.map_append, sameIds]
      exact complete
    · intro number
      have before := accounts.marked number
      rw [isOut, numbers, List.mem_append] at before
      rw [isOut, content, before]
      constructor
      · intro given
        rcases given with ⟨inChain | isOut, notInChain⟩
        · exact absurd inChain notInChain
        · exact isOut
      · intro isOut
        refine ⟨Or.inr isOut, ?_⟩
        intro inChain
        exact (List.nodup_append.mp nodup).2.2 number inChain number isOut rfl

/-- Segments taken out of a chain go back to a pool. The only violation that
this can raise is a segment that belongs to another pool. -/
theorem checkIn_satisfies (balanced : pools.Balanced origin (chain ++ out))
    (id : PoolId) :
    (checkIn id (Returned.unlinked chain) pools).Satisfies
      (fun _ after => after.Balanced origin out ∧
        ∀ segment ∈ chain, segment.pool = id)
      (fun _ _ => False)
      (fun stop => ∃ segment ∈ chain, segment.pool ≠ id ∧
        stop = .fault (origin.get id).config.faultPolicy
          (.foreignSegment id segment.pool segment.id)) := by
  have accounts := balanced.accounts id
  apply Outcome.Satisfies.namesakes
  apply Outcome.Satisfies.readPool
  cases looked : (Returned.unlinked chain).findSome?
    (returnViolation? (fun other => pools.sameNumber other id) id) with
  | some violation =>
      obtain ⟨returned, member, found⟩ := List.exists_of_findSome?_eq_some looked
      obtain ⟨segment, inChain, rfl⟩ := List.mem_map.mp member
      simp only [takeBack, looked, Operation.violated, Outcome.Satisfies]
      by_cases foreign : segment.pool = id
      · simp [returnViolation?, foreign] at found
      · have differs : pools.sameNumber segment.pool id = false := by
          simp [balanced.distinct.sameNumber_eq, foreign]
        simp only [returnViolation?, differs, Bool.not_false, if_true,
          Option.some.injEq] at found
        exact ⟨segment, inChain, foreign, by rw [accounts.config_eq, found]⟩
  | none =>
      have own : ∀ segment ∈ chain, segment.pool = id := by
        intro segment member
        exact balanced.distinct _ _ <| same_of_faultless looked ⟨segment, []⟩
          (List.mem_map_of_mem member)
      obtain ⟨restored, put, restoredAccounts, _⟩ := accounts.putBack own
      simp only [takeBack, looked, Returned.segments_unlinked, put]
      refine ⟨?_, own⟩
      have foreign : ∀ other, other ≠ id →
          ∀ segment ∈ chain, segment.pool ≠ other := by
        intro other different segment member
        rw [own segment member]
        exact Ne.symm different
      exact Pools.Balanced.set balanced restoredAccounts
        (fun other different before =>
          before.of_append_foreign (foreign other different))

end Pool

end PooledPackets
