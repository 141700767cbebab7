import PooledPackets.Operation

/-!
# The numbers of pools

Pools, packets and segments are compared by numbers of 32 bits, and pools get
their numbers from a counter that wraps. As long as no more pools are made than
there are numbers, each pool has its own, and two pools of one number are the
same pool.

Where two pools share a number, segments of one get onto the free list of the
other without any exchange, and their layout with them. Hence a session is
taken to make no more pools than there are numbers wherever segments have to
come back to the pool that they were taken from.
-/

namespace PooledPackets

namespace Pools

variable {pools : Pools} {configs : List Config}

/-- No number was given to two pools. -/
def Distinct (pools : Pools) : Prop :=
  ∀ one other, pools.sameNumber one other = true → one = other

theorem Distinct.sameNumber_eq (distinct : pools.Distinct)
    (one other : PoolId) : pools.sameNumber one other = (one == other) := by
  rw [Bool.eq_iff_iff, beq_iff_eq]
  refine ⟨distinct one other, ?_⟩
  rintro rfl
  exact pools.sameNumber_self one

theorem Distinct.of_numbers_eq {after : Pools} (distinct : pools.Distinct)
    (same : after.numbers = pools.numbers) : after.Distinct := by
  intro one other
  rw [sameNumber, same]
  exact distinct one other

/-- No segment of a packet's own pool is taken for one of another pool. -/
theorem findsForeign_of_own {packet : Packet}
    (own : ∀ segment ∈ packet.chain, segment.pool = packet.pool) :
    pools.findsForeign packet = false := by
  rw [findsForeign, List.any_eq_false]
  intro segment member
  simp [own segment member]

/-! ## New pools -/

/-- A number is as far behind the first one as pools were made before. -/
theorem exists_of_numbersFrom {given : UInt32} {id : PoolId}
    {configs : List Config} {next : PoolId} {number : UInt32}
    (found : (numbersFrom next number configs).get? id = some given) :
    next ≤ id ∧ ∃ passed < configs.length, given = number + .ofNat passed := by
  induction configs generalizing next number with
  | nil => simp [numbersFrom] at found
  | cons config rest inductionHypothesis =>
      rw [numbersFrom] at found
      split at found
      · rw [Table.get?_insert] at found
        split at found
        · rename_i isNext
          cases found
          exact ⟨Nat.le_of_eq isNext.symm, 0, by simp, by simp⟩
        · obtain ⟨atLeast, passed, isPassed, rfl⟩ := inductionHypothesis found
          refine ⟨Nat.le_of_succ_le atLeast, passed + 1,
            Nat.succ_lt_succ isPassed, ?_⟩
          rw [UInt32.add_assoc, UInt32.add_comm 1]
          exact congrArg (number + ·) (UInt32.ofNat_add passed 1).symm
      · obtain ⟨atLeast, passed, isPassed, same⟩ := inductionHypothesis found
        exact ⟨Nat.le_of_succ_le atLeast, passed, Nat.lt_succ_of_lt isPassed,
          same⟩

/-- A later number is another one, unless all numbers have come up in
between. -/
theorem add_succ_ne {passed : Nat} (number : UInt32)
    (few : passed + 1 < UInt32.size) :
    number ≠ number + 1 + .ofNat passed := by
  intro same
  rw [UInt32.add_assoc, eq_comm, UInt32.add_eq_left] at same
  have count : (1 + UInt32.ofNat passed).toNat = 0 := by
    rw [same]
    rfl
  rw [UInt32.toNat_add, UInt32.toNat_ofNat'] at count
  simp only [UInt32.size] at few
  simp at count
  omega

theorem numbersFrom_injective {given : UInt32} {one other : PoolId}
    {configs : List Config} {next : PoolId} {number : UInt32}
    (few : configs.length ≤ UInt32.size)
    (found : (numbersFrom next number configs).get? one = some given)
    (found' : (numbersFrom next number configs).get? other = some given) :
    one = other := by
  induction configs generalizing next number with
  | nil => simp [numbersFrom] at found
  | cons config rest inductionHypothesis =>
      have fewer : rest.length + 1 ≤ UInt32.size := few
      -- The first number does not come up again behind it.
      have notAgain : ∀ {id : PoolId},
          (numbersFrom (next + 1) (number + 1) rest).get? id ≠
            some number := by
        intro id again
        obtain ⟨_, passed, isPassed, same⟩ := exists_of_numbersFrom again
        exact add_succ_ne number (by omega) same
      have fewerLater := Nat.le_of_succ_le fewer
      cases verdict : config.validate with
      | refused error =>
          simp only [numbersFrom, verdict] at found found'
          exact inductionHypothesis fewerLater found found'
      | overflow =>
          simp only [numbersFrom, verdict] at found found'
          exact inductionHypothesis fewerLater found found'
      | accepted layout =>
          simp only [numbersFrom, verdict, Table.get?_insert] at found found'
          split at found <;> split at found'
          · rename_i isNext isNext'
            exact isNext.trans isNext'.symm
          · cases found
            exact absurd found' notAgain
          · cases found'
            exact absurd found notAgain
          · exact inductionHypothesis fewerLater found found'

/-- Pools that are not more than there are numbers have different ones. -/
theorem distinct_ofConfigs (few : configs.length ≤ UInt32.size) :
    (ofConfigs configs).Distinct := by
  intro one other same
  rw [sameNumber, Bool.or_eq_true, beq_iff_eq] at same
  rcases same with isSame | same
  · exact isSame
  · split at same
    · rename_i number number' found found'
      rw [← eq_of_beq same] at found'
      exact numbersFrom_injective few found found'
    · cases same

/-- The pools of accepted configurations get all numbers in turn. -/
theorem get?_numbersFrom {place : Nat} {configs : List Config}
    {next : PoolId} {number : UInt32}
    (accepted : ∀ config ∈ configs, ∃ layout,
      config.validate = .accepted layout)
    (inside : place < configs.length) :
    (numbersFrom next number configs).get? (next + place) =
      some (number + .ofNat place) := by
  induction configs generalizing next number place with
  | nil => simp at inside
  | cons config rest inductionHypothesis =>
      obtain ⟨layout, verdict⟩ := accepted config (List.mem_cons_self ..)
      simp only [numbersFrom, verdict, Table.get?_insert]
      cases place with
      | zero => simp
      | succ place =>
          have later := @inductionHypothesis place (next + 1) (number + 1)
            (fun other member => accepted other (.tail _ member))
            (Nat.lt_of_succ_lt_succ inside)
          rw [if_neg (by simp), ← Nat.add_assoc, Nat.add_right_comm, later,
            UInt32.add_assoc, UInt32.add_comm 1]
          exact congrArg (some <| number + ·) (UInt32.ofNat_add place 1).symm

/-- It is exactly the number of numbers that pools can be told apart by. -/
theorem distinct_ofConfigs_iff
    (accepted : ∀ config ∈ configs, ∃ layout,
      config.validate = .accepted layout) :
    (ofConfigs configs).Distinct ↔ configs.length ≤ UInt32.size := by
  refine ⟨fun distinct => Nat.le_of_not_lt fun many => ?_,
    distinct_ofConfigs⟩
  have first : (ofConfigs configs).numbers.get? 0 = some 0 :=
    get?_numbersFrom accepted (Nat.zero_lt_of_lt many)
  have again : (ofConfigs configs).numbers.get? UInt32.size = some 0 := by
    have counted := @get?_numbersFrom _ configs 0 0 accepted
      many
    rwa [Nat.zero_add] at counted
  have same : (ofConfigs configs).sameNumber 0 UInt32.size = true := by
    simp [sameNumber, first, again]
  exact absurd (distinct 0 UInt32.size same) (by decide)

end Pools

end PooledPackets
