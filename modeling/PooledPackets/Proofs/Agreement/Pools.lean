import PooledPackets.Operation

/-!
# Pools that differ in their checks

Two pools that are the same, apart from whether they check their packets and
what they do about a broken invariant, hand out the same segments, take them
back alike and count alike.
-/

namespace PooledPackets

/-- A configuration that says nothing of its own about broken invariants. -/
def Config.unchecked (config : Config) : Config :=
  { config with errorChecking := false, faultPolicy := .halt }

/-- Pools that are the same, but for what they do about broken invariants. -/
structure Pool.Alike (pool other : Pool) : Prop where
  config_eq : pool.config.unchecked = other.config.unchecked
  layout_eq : pool.layout = other.layout
  free_eq : pool.free = other.free
  checkedOut_eq : pool.checkedOut = other.checkedOut
  counters_eq : pool.counters = other.counters
  nextDatagram_eq : pool.nextDatagram = other.nextDatagram

namespace Pool.Alike

variable {pool other : Pool}

theorem chaining_eq (alike : pool.Alike other) :
    pool.config.chaining = other.config.chaining :=
  (congrArg Config.chaining alike.config_eq :)

theorem fragmentation_eq (alike : pool.Alike other) :
    pool.config.fragmentation = other.config.fragmentation :=
  (congrArg Config.fragmentation alike.config_eq :)

theorem byteOrder_eq (alike : pool.Alike other) :
    pool.config.byteOrder = other.config.byteOrder :=
  (congrArg Config.byteOrder alike.config_eq :)

theorem reassembly_eq (alike : pool.Alike other) :
    pool.config.reassembly = other.config.reassembly :=
  (congrArg Config.reassembly alike.config_eq :)

theorem refl (pool : Pool) : pool.Alike pool where
  config_eq := rfl
  layout_eq := rfl
  free_eq := rfl
  checkedOut_eq := rfl
  counters_eq := rfl
  nextDatagram_eq := rfl

theorem count (alike : pool.Alike other) (change : Counters → Counters) :
    (pool.count change).Alike (other.count change) :=
  { alike with counters_eq := congrArg change alike.counters_eq }

theorem take (alike : pool.Alike other) (count : Nat) :
    (pool.take count).1 = (other.take count).1 ∧
      (pool.take count).2.Alike (other.take count).2 := by
  have sameFree := alike.free_eq
  have sameTable := alike.checkedOut_eq
  refine ⟨by simp only [Pool.take, sameFree], { alike with
    free_eq := by simp only [Pool.take, sameFree]
    checkedOut_eq := by simp only [Pool.take, sameFree, sameTable] }⟩

/-- Both pools take back what comes to them, or neither does. -/
theorem takeBack (alike : pool.Alike other) (same : PoolId → Bool)
    (id : PoolId) (returned : List Returned) :
    (∃ violation, Pool.takeBack same id returned pool = .error violation ∧
      Pool.takeBack same id returned other = .error violation) ∨
    ∃ restored restored',
      Pool.takeBack same id returned pool = .ok restored ∧
      Pool.takeBack same id returned other = .ok restored' ∧
      restored.Alike restored' := by
  simp only [Pool.takeBack, Pool.putBack, alike.checkedOut_eq]
  cases returned.findSome? (returnViolation? same id) with
  | some violation => exact Or.inl ⟨violation, rfl, rfl⟩
  | none =>
      cases markBack id (returned.map Returned.segment)
          other.checkedOut with
      | error violation => exact Or.inl ⟨violation, rfl, rfl⟩
      | ok checkedOut =>
          refine Or.inr ⟨_, _, rfl, rfl, { alike with
            free_eq := by simp only [alike.free_eq]
            checkedOut_eq := rfl }⟩

end Pool.Alike

namespace Pools

/-- The same pools, but for what each does about broken invariants. -/
structure Alike (pools others : Pools) : Prop where
  table_alike : ∀ id,
    Option.Rel Pool.Alike (pools.table.get? id) (others.table.get? id)
  numbers_eq : pools.numbers = others.numbers

namespace Alike

variable {pools others : Pools} {id : PoolId}

theorem get (alike : pools.Alike others) (id : PoolId) :
    (pools.get id).Alike (others.get id) := by
  have related := alike.table_alike id
  unfold Pools.get
  generalize pools.table.get? id = found at related ⊢
  generalize others.table.get? id = found' at related ⊢
  cases related with
  | some same => exact same
  | none => exact .refl _

theorem contains_eq (alike : pools.Alike others) (id : PoolId) :
    pools.table.contains id = others.table.contains id := by
  have related := alike.table_alike id
  unfold Table.contains
  generalize pools.table.get? id = found at related ⊢
  generalize others.table.get? id = found' at related ⊢
  cases related with
  | some _ => rfl
  | none => rfl

theorem set (alike : pools.Alike others) {pool other : Pool}
    (same : pool.Alike other) :
    (pools.set id pool).Alike (others.set id other) := by
  refine ⟨fun sought => ?_, alike.numbers_eq⟩
  simp only [Pools.set, Table.get?_insert]
  split
  · exact .some same
  · exact alike.table_alike sought

theorem sameNumber_eq (alike : pools.Alike others) :
    pools.sameNumber = others.sameNumber := by
  unfold Pools.sameNumber
  rw [alike.numbers_eq]

theorem findsForeign_eq (alike : pools.Alike others) :
    pools.findsForeign = others.findsForeign := by
  unfold Pools.findsForeign
  rw [alike.sameNumber_eq]

end Alike

end Pools

/-! ## New pools -/

/-- The numbers of new pools do not depend on their checks. -/
theorem Pools.numbersFrom_unchecked (configs : List Config) :
    ∀ (next : PoolId) (number : UInt32),
      numbersFrom next number (configs.map Config.unchecked) =
        numbersFrom next number configs := by
  induction configs with
  | nil => exact fun _ _ => rfl
  | cons config rest inductionHypothesis =>
      intro next number
      have sameVerdict : config.unchecked.validate = config.validate := rfl
      simp only [List.map_cons, numbersFrom, sameVerdict, inductionHypothesis]

/-- Whether a pool can be made does not depend on its checks, nor does the pool
itself. -/
theorem Pool.Alike.ofConfig? {config other : Config}
    (same : config.unchecked = other.unchecked) (id : PoolId) :
    Option.Rel Pool.Alike (Pool.ofConfig? id config)
      (Pool.ofConfig? id other) := by
  have sameVerdict : config.validate = other.validate :=
    (congrArg Config.validate same :)
  have sameSpace (layout : Layout) :
      Pool.segmentSpace config layout = Pool.segmentSpace other layout :=
    (congrArg (Pool.segmentSpace · layout) same :)
  have sameCount : config.segmentCount = other.segmentCount :=
    (congrArg Config.segmentCount same :)
  unfold Pool.ofConfig?
  rw [sameVerdict]
  cases other.validate with
  | accepted layout =>
      simp only [Pool.create?, sameSpace]
      split
      · exact .some {
          config_eq := same
          layout_eq := rfl
          free_eq := by simp only [Pool.ofLayout, sameCount]
          checkedOut_eq := by simp only [Pool.ofLayout, sameCount]
          counters_eq := rfl
          nextDatagram_eq := rfl }
      · exact .none
  | refused error => exact .none
  | overflow => exact .none

end PooledPackets
