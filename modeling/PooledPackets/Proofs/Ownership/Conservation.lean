import PooledPackets.Proofs.Ownership.Commands

/-!
# Conservation of segments

Over the whole life of a session no segment is lost and none is in two places:
each segment of a pool is either free or in the chain of one live packet.
-/

namespace PooledPackets

/-! ## New pools -/

namespace Pools

theorem get?_tableFrom :
    ∀ (configs : List Config) (next id : Nat),
      (tableFrom next configs).get? id =
        if next ≤ id then
          configs[id - next]?.bind (Pool.ofConfig? id) else none
  | [], next, id => by
      simp [tableFrom]
  | config :: rest, next, id => by
      have later := get?_tableFrom rest (next + 1) id
      by_cases isNext : id = next
      · subst isNext
        have notLater : ¬(id + 1 ≤ id) := by omega
        simp only [notLater, if_false] at later
        simp only [tableFrom, Nat.le_refl, if_true, Nat.sub_self,
          List.getElem?_cons_zero, Option.bind_some]
        cases made : Pool.ofConfig? id config with
        | none => exact later
        | some pool => simp
      · have others : (tableFrom next (config :: rest)).get? id =
            (tableFrom (next + 1) rest).get? id := by
          simp only [tableFrom]
          cases made : Pool.ofConfig? next config with
          | none => rfl
          | some pool => simp [isNext]
        rw [others, later]
        by_cases isLater : next + 1 ≤ id
        · have isAfter : next ≤ id := by omega
          have place : id - next = id - (next + 1) + 1 := by omega
          simp only [isLater, isAfter, if_true, place,
            List.getElem?_cons_succ]
        · have isBefore : ¬(next ≤ id) := by omega
          simp only [isLater, isBefore, if_false]

theorem get_ofConfigs (configs : List Config) (id : PoolId) :
    (ofConfigs configs).get id =
      (configs[id]?.bind (Pool.ofConfig? id)).getD .absent := by
  rw [get, ofConfigs, get?_tableFrom]
  simp

end Pools

namespace Pool

theorem exists_of_ofConfig? {id : PoolId} {config : Config} {pool : Pool}
    (made : ofConfig? id config = some pool) :
    ∃ layout, pool = ofLayout id config layout := by
  simp only [ofConfig?] at made
  split at made
  · rename_i layout _
    simp only [create?] at made
    split at made
    · cases made
      exact ⟨layout, rfl⟩
    · cases made
  · cases made
  · cases made

theorem accounts_ofLayout (id : PoolId) (config : Config)
    (layout : Layout) :
    Accounts id (ofLayout id config layout) (ofLayout id config layout)
      [] where
  config_eq := rfl
  layout_eq := rfl
  size_eq := rfl
  free_own := by simp [ofLayout, Segment.fresh]
  free_empty := by simp [ofLayout, Segment.fresh]
  free_layout := by simp [ofLayout, Segment.fresh]
  out_layout := by simp
  complete := by
    have numbers : (ofLayout id config layout).free.map Segment.id =
        List.range config.segmentCount := by
      simp only [ofLayout, Segment.fresh, List.map_map]
      exact List.map_id _
    have size : (ofLayout id config layout).checkedOut.size =
        config.segmentCount := by
      simp [ofLayout]
    rw [numbers, size, numbersOf_nil, List.append_nil]
  marked := fun number => by
    have noneOut : (ofLayout id config layout).isOut number = false := by
      simp only [isOut, ofLayout, Array.getElem?_replicate]
      split
      · rfl
      · rfl
    simp [noneOut]

theorem accounts_absent (id : PoolId) : Accounts id absent absent [] where
  config_eq := rfl
  layout_eq := rfl
  size_eq := rfl
  free_own := by simp [absent]
  free_empty := by simp [absent]
  free_layout := by simp [absent]
  out_layout := by simp
  complete := by simp [absent]
  marked := by simp [absent, isOut]

end Pool

/-- New pools are in balance: no segment is out. -/
theorem Pools.balanced_ofConfigs {configs : List Config}
    (few : configs.length ≤ UInt32.size) :
    (ofConfigs configs).Balanced (ofConfigs configs) [] := by
  refine ⟨fun id => ?_, rfl, distinct_ofConfigs few⟩
  cases made : configs[id]?.bind (Pool.ofConfig? id) with
  | none =>
      have isAbsent : (ofConfigs configs).get id = .absent := by
        rw [get_ofConfigs, made]
        rfl
      rw [isAbsent]
      exact Pool.accounts_absent id
  | some pool =>
      have isMade : (ofConfigs configs).get id = pool := by
        rw [get_ofConfigs, made]
        rfl
      obtain ⟨config, _, accepted⟩ := Option.bind_eq_some_iff.mp made
      obtain ⟨layout, rfl⟩ := Pool.exists_of_ofConfig? accepted
      rw [isMade]
      exact Pool.accounts_ofLayout id config layout

namespace Session

variable {session : Session} {exchange : Exchange}

theorem start_owns {configs : List Config}
    (few : configs.length ≤ UInt32.size) (exchange : Exchange) :
    (start (Pools.ofConfigs configs)).Owns (Pools.ofConfigs configs)
      exchange [] where
  balanced := Pools.balanced_ofConfigs few
  kept := fun _ member => by
    simp [start, live] at member

/-- A session conserves the segments of a pool that was made with `count` of
them: each number below that is found once, at a free segment or in the chain of
a live packet; the table of the pool says which; free segments are the pool's
own and hold no payload. If no live packet holds a segment, all are free. -/
structure Conserves (session : Session) (id : PoolId) (count : Nat) :
    Prop where
  once : ((session.pools.get id).free.map Segment.id ++
    Pool.numbersOf id (session.live.flatMap Packet.chain)).Perm
      (List.range count)
  own : ∀ segment ∈ (session.pools.get id).free, segment.pool = id
  empty : ∀ segment ∈ (session.pools.get id).free, segment.length = 0
  table : (session.pools.get id).checkedOut.size = count
  marked : ∀ number < count, (session.pools.get id).isOut number = true ↔
    number ∉ (session.pools.get id).free.map Segment.id
  bounded : (session.pools.get id).freeCount ≤ count
  idle : session.live.flatMap Packet.chain = [] →
    (session.pools.get id).freeCount = count

end Session

theorem Pool.Accounts.freeCount_add {id : PoolId} {pool origin : Pool}
    {out : List Segment} (accounts : pool.Accounts id origin out) :
    pool.freeCount + (numbersOf id out).length =
      origin.checkedOut.size := by
  have counted := accounts.complete.length_eq
  simpa [Pool.freeCount] using counted

theorem Pools.size_ofConfigs {configs : List Config} {id : PoolId}
    {config : Config} {made : Pool} (given : configs[id]? = some config)
    (accepted : Pool.ofConfig? id config = some made) :
    ((ofConfigs configs).get id).checkedOut.size = config.segmentCount := by
  obtain ⟨layout, rfl⟩ := Pool.exists_of_ofConfig? accepted
  rw [get_ofConfigs, given, Option.bind_some, accepted]
  simp [Pool.ofLayout]

namespace Session

variable {session : Session} {exchange : Exchange}

theorem Owns.conserves {origin : Pools} {id : PoolId} {count : Nat}
    (owns : session.Owns origin exchange [])
    (size : (origin.get id).checkedOut.size = count) :
    session.Conserves id count := by
  have accounts := owns.balanced.accounts id
  rw [List.nil_append] at accounts
  have counted := accounts.freeCount_add
  constructor
  · rw [← size]
    exact accounts.complete
  · exact accounts.free_own
  · exact accounts.free_empty
  · rw [accounts.size_eq, size]
  · intro number inside
    exact accounts.isOut_iff_not_free (size.symm ▸ inside)
  · omega
  · intro nothingOut
    rw [nothingOut, Pool.numbersOf_nil, List.length_nil, size] at counted
    exact counted

/-- In every session whose pools have numbers of their own, whatever it was told
to do and however far segments were exchanged, every pool conserves its segments
as long as the run has not been stopped. Once the session has been brought to
its end, all segments are free. -/
theorem runAll_conserves {configs : List Config} {commands : List Command}
    {session : Session} {id : PoolId} {config : Config} {made : Pool}
    (few : configs.length ≤ UInt32.size)
    (given : configs[id]? = some config)
    (accepted : Pool.ofConfig? id config = some made)
    (ran : (start (Pools.ofConfigs configs)).runAll commands =
      .ok session) :
    session.Conserves id config.segmentCount ∧
      ∀ choices pools, session.finish choices = .ok pools →
        (pools.get id).freeCount = config.segmentCount := by
  have size := Pools.size_ofConfigs given accepted
  have owns : session.Owns (Pools.ofConfigs configs) .freely [] :=
    runAll_owns (start_owns few .freely) (fun _ _ _ => rfl) ran
  refine ⟨owns.conserves size, ?_⟩
  intro choices pools finished
  have consistent := finish_consistent owns finished
  have counted := (consistent.balanced.accounts id).freeCount_add
  simpa [size] using counted

/-- A payload too long for the second pool, a fragment made in the first pool
and held in the second, and an exchange of segments between the two pools. -/
theorem conserves_after_exchange :
    let chained : Config :=
      { segmentCapacity := 8, segmentCount := 3, headerReserve := 2 }
    let single : Config :=
      { segmentCapacity := 6, segmentCount := 2, headerReserve := 0,
        chaining := false }
    let commands : List Command :=
      [.newPool, .packetFrom 0 [1, 2, 3, 4, 5, 6, 7] 0, .newPool,
        .packetFrom 1 [1, 2, 3, 4, 5, 6, 7] 1, .newReassembler 1 0 [],
        .beginWalk 0 0 4 0, .nextFragment 0 2, .endWalk 0, .push 0 2 0 3,
        .allocate 1 6 4, .swapFirst 0 4]
    ∃ session,
      (start (Pools.ofConfigs [chained, single])).runAll commands =
        .ok session ∧ session.Conserves 1 2 := by
  intro chained single commands
  have goesOn : ((start (Pools.ofConfigs [chained, single])).runAll
      commands).isOk = true := by
    decide +kernel
  have accepted : (Pool.ofConfig? 1 single).isSome = true := by
    decide +kernel
  obtain ⟨made, isMade⟩ := Option.isSome_iff_exists.mp accepted
  cases ran : (start (Pools.ofConfigs [chained, single])).runAll
      commands with
  | error stop => simp [ran, Except.isOk, Except.toBool] at goesOn
  | ok session =>
      exact ⟨session, rfl, (runAll_conserves (by decide) rfl isMade ran).1⟩

end Session
end PooledPackets
