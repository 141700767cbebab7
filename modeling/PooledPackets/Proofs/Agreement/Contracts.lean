import PooledPackets.Proofs.Agreement.Pools

/-!
# Operations that agree

Two operations agree if they do the same from pools that differ in nothing but
their checks. A broken invariant stops a run as the pool that finds it says;
nothing is asked of two runs once one of them has found one. Where one of them
stops because something is out of range the other one must do so too.
-/

namespace PooledPackets

variable {α β : Type}

/-- Two endings that agree: the same value or the same refusal, and pools that
are alike again, unless one of the two runs has found an invariant broken. -/
inductive Outcome.Agree : Outcome α → Outcome α → Prop
  | done (value : α) {pools others : Pools} (still : pools.Alike others) :
      Agree (.done value pools) (.done value others)
  | failed (error : BufferError) {pools others : Pools}
      (still : pools.Alike others) :
      Agree (.failed error pools) (.failed error others)
  | outOfRange : Agree (.stopped .outOfRange) (.stopped .outOfRange)
  | brokenFirst {stop : Stop} (broken : stop ≠ .outOfRange)
      (ending : Outcome α) : Agree (.stopped stop) ending
  | brokenSecond {stop : Stop} (broken : stop ≠ .outOfRange)
      (ending : Outcome α) : Agree ending (.stopped stop)

/-- Two operations that agree from all pools that are alike. -/
def Operation.Agrees (operation operation' : Operation α) : Prop :=
  ∀ ⦃pools others : Pools⦄, pools.Alike others →
    (operation pools).Agree (operation' others)

/-- An operation that does the same whether checks are made or not. -/
abbrev Operation.Steady (operation : Operation α) : Prop :=
  operation.Agrees operation

namespace Operation.Agrees

variable {operation operation' : Operation α}
variable {next next' : α → Operation β}

theorem pure (value : α) : Steady (Pure.pure value) :=
  fun _ _ still => .done value still

theorem fail (error : BufferError) :
    Steady (Operation.fail error : Operation α) :=
  fun _ _ still => .failed error still

theorem outOfRange : Steady (Operation.halt .outOfRange : Operation α) :=
  fun _ _ _ => .outOfRange

theorem violated (id : PoolId) (violation : Violation)
    (operation : Operation α) :
    Agrees (Operation.violated id violation) operation :=
  fun _ _ _ => .brokenFirst (by simp) _

theorem bind (first : Agrees operation operation')
    (second : ∀ value, Agrees (next value) (next' value)) :
    Agrees (operation >>= next) (operation' >>= next') := by
  intro pools others related
  have same := first related
  change Outcome.Agree
    (match operation pools with
      | .done value pools => next value pools
      | .failed error pools => .failed error pools
      | .stopped stop => .stopped stop)
    (match operation' others with
      | .done value pools => next' value pools
      | .failed error pools => .failed error pools
      | .stopped stop => .stopped stop)
  generalize operation pools = one at same ⊢
  generalize operation' others = other at same ⊢
  cases same with
  | done value still => exact second value still
  | failed error still => exact .failed error still
  | outOfRange => exact .outOfRange
  | brokenFirst broken _ => exact .brokenFirst broken _
  | brokenSecond broken _ => exact .brokenSecond broken _

theorem readPool {id : PoolId} {next next' : Pool → Operation α}
    (goesOn : ∀ pool other, pool.Alike other →
      Agrees (next pool) (next' other)) :
    Agrees (Operation.readPool id >>= next)
      (Operation.readPool id >>= next') :=
  fun _ _ alike => goesOn _ _ (alike.get id) alike

theorem namesakes {id : PoolId} {next next' : (PoolId → Bool) → Operation α}
    (goesOn : ∀ same, Agrees (next same) (next' same)) :
    Agrees (Operation.namesakes id >>= next)
      (Operation.namesakes id >>= next') := by
  intro pools others alike
  change Outcome.Agree (next (fun other => pools.sameNumber other id) pools)
    (next' (fun other => others.sameNumber other id) others)
  rw [alike.sameNumber_eq]
  exact goesOn _ alike

theorem ofExcept (result : Except BufferError α)
    (goesOn : ∀ value, Agrees (next value) (next' value)) :
    Agrees (Operation.ofExcept result >>= next)
      (Operation.ofExcept result >>= next') := by
  cases result with
  | error error => exact fun _ _ still => .failed error still
  | ok value => exact goesOn value

theorem ite {condition : Prop} [Decidable condition]
    {yes no yes' no' : Operation α}
    (ifTrue : condition → Agrees yes yes')
    (ifFalse : ¬condition → Agrees no no') :
    Agrees (if condition then yes else no)
      (if condition then yes' else no') := by
  by_cases holds : condition
  · rw [if_pos holds, if_pos holds]
    exact ifTrue holds
  · rw [if_neg holds, if_neg holds]
    exact ifFalse holds

theorem attempt (same : Agrees operation operation') :
    Agrees (Operation.attempt operation)
      (Operation.attempt operation') := by
  intro pools others related
  have ending := same related
  unfold Operation.attempt
  generalize operation pools = one at ending
  generalize operation' others = other at ending
  cases ending with
  | done value still => exact .done (Except.ok value) still
  | failed error still => exact .done (Except.error error) still
  | outOfRange => exact .outOfRange
  | brokenFirst broken _ => exact .brokenFirst broken _
  | brokenSecond broken _ => exact .brokenSecond broken _

theorem onFailure {cleanup cleanup' : Operation PUnit}
    (same : Agrees operation operation')
    (cleaned : Agrees cleanup cleanup') :
    Agrees (Operation.onFailure operation cleanup)
      (Operation.onFailure operation' cleanup') := by
  intro pools others related
  have ending := same related
  unfold Operation.onFailure
  generalize operation pools = one at ending
  generalize operation' others = other at ending
  cases ending with
  | done value still => exact .done value still
  | @failed error after after' still =>
      have cleaning := cleaned still
      dsimp only
      generalize cleanup after = one at cleaning
      generalize cleanup' after' = other at cleaning
      cases cleaning with
      | done _ still => exact .failed error still
      | failed _ still => exact .failed error still
      | outOfRange => exact .outOfRange
      | brokenFirst broken _ => exact .brokenFirst broken _
      | brokenSecond broken _ => exact .brokenSecond broken _
  | outOfRange => exact .outOfRange
  | brokenFirst broken _ => exact .brokenFirst broken _
  | brokenSecond broken _ => exact .brokenSecond broken _

/-- The same packets are in hand in both runs, so that the same stop becomes a
collapse in both or in none. -/
theorem holding (packets : List Packet)
    (same : Agrees operation operation') :
    Agrees (Operation.holding packets operation)
      (Operation.holding packets operation') := by
  have breaks : ∀ {pools : Pools} {stop : Stop}, stop ≠ .outOfRange →
      ∃ ended : Stop,
      ended ≠ .outOfRange ∧
        (if stop.givesBack && packets.any pools.findsForeign then
          .stopped .collapse else .stopped stop : Outcome α) =
            .stopped ended := by
    intro pools stop broken
    split
    · exact ⟨.collapse, by simp, rfl⟩
    · exact ⟨stop, broken, rfl⟩
  intro pools others related
  have ending := same related
  have sameForeign := related.findsForeign_eq
  unfold Operation.holding
  generalize operation pools = one at ending
  generalize operation' others = other at ending
  cases ending with
  | done value still => exact .done value still
  | failed error still => exact .failed error still
  | outOfRange =>
      simp only [sameForeign]
      split
      · exact .brokenFirst (by simp) _
      · exact .outOfRange
  | brokenFirst broken _ =>
      obtain ⟨ended, brokenStill, same⟩ := breaks broken
      dsimp only
      rw [same]
      exact .brokenFirst brokenStill _
  | brokenSecond broken _ =>
      obtain ⟨ended, brokenStill, same⟩ := breaks broken
      dsimp only
      rw [same]
      exact .brokenSecond brokenStill _

/-! ## Segments leaving and coming back -/

theorem count (id : PoolId) (change : Counters → Counters) :
    (Operation.count id change).Steady :=
  fun _ _ alike => .done _ (alike.set ((alike.get id).count change))

theorem checkIn (id : PoolId) (returned : List Returned) :
    (Pool.checkIn id returned).Steady := by
  apply namesakes
  intro namesake
  apply readPool
  intro pool other same
  rcases same.takeBack namesake id returned with
    ⟨violation, isFirst, isOther⟩ |
      ⟨restored, restored', isFirst, isOther, still⟩
  · rw [isFirst, isOther]
    exact violated _ _ _
  · rw [isFirst, isOther]
    exact fun _ _ alike => .done _ (alike.set still)

theorem checkOut (id : PoolId) (count : Nat) :
    (Pool.checkOut id count).Steady := by
  apply readPool
  intro pool other same
  rw [Pool.freeCount, Pool.freeCount, same.free_eq]
  refine ite (fun _ => ?_) (fun _ => ?_)
  · exact (Agrees.count id _).bind fun _ => fail _
  · obtain ⟨sameSegments, left⟩ := same.take count
    intro pools others alike
    change Outcome.Agree (.done (pool.take count).1 _)
      (.done (other.take count).1 _)
    rw [sameSegments]
    exact .done _ (alike.set left)

end Operation.Agrees

end PooledPackets
