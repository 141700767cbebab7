import PooledPackets.Operation
import PooledPackets.Proofs.Numbers

/-!
# Contracts of operations

What is known of an operation once it has run from some pools: one property
for each of the three ways in which it can end. Larger operations take their
contracts from those of their parts.
-/

namespace PooledPackets

variable {α β : Type}

/-- What holds at the end: of the value and the pools where the operation was
done, of the error and the pools where it was refused, of the reason where the
run was stopped. -/
def Outcome.Satisfies (outcome : Outcome α) (done : α → Pools → Prop)
    (refused : BufferError → Pools → Prop) (stopped : Stop → Prop) : Prop :=
  match outcome with
  | .done value pools => done value pools
  | .failed error pools => refused error pools
  | .stopped stop => stopped stop

/-- The value of an operation that was done, and the pools it left. -/
def Outcome.done? : Outcome α → Option (α × Pools)
  | .done value pools => some (value, pools)
  | _ => none

theorem Outcome.done?_eq_some_iff {outcome : Outcome α}
    {result : α × Pools} :
    outcome.done? = some result ↔ outcome = .done result.1 result.2 := by
  cases outcome <;> simp [done?, Prod.ext_iff]

theorem toOption_eq_some_iff {ε : Type} {result : Except ε α} {value : α} :
    result.toOption = some value ↔ result = .ok value := by
  cases result <;> simp [Except.toOption]

namespace Outcome.Satisfies

variable {outcome : Outcome α} {pools : Pools}
variable {done done' : α → Pools → Prop}
variable {refused refused' : BufferError → Pools → Prop}
variable {stopped stopped' : Stop → Prop}

theorem mono (contract : outcome.Satisfies done refused stopped)
    (doneWeaker : ∀ value pools, done value pools → done' value pools)
    (refusedWeaker : ∀ error pools,
      refused error pools → refused' error pools)
    (stoppedWeaker : ∀ stop, stopped stop → stopped' stop) :
    outcome.Satisfies done' refused' stopped' := by
  cases outcome with
  | done value pools => exact doneWeaker value pools contract
  | failed error pools => exact refusedWeaker error pools contract
  | stopped stop => exact stoppedWeaker stop contract

theorem monoDone (contract : outcome.Satisfies done refused stopped)
    (doneWeaker : ∀ value pools, done value pools → done' value pools) :
    outcome.Satisfies done' refused stopped :=
  contract.mono doneWeaker (fun _ _ known => known) (fun _ known => known)

theorem monoRefused (contract : outcome.Satisfies done refused stopped)
    (refusedWeaker : ∀ error pools,
      refused error pools → refused' error pools) :
    outcome.Satisfies done refused' stopped :=
  contract.mono (fun _ _ known => known) refusedWeaker (fun _ known => known)

/-- Two contracts of one outcome hold together. -/
theorem and (contract : outcome.Satisfies done refused stopped)
    (other : outcome.Satisfies done' refused' stopped') :
    outcome.Satisfies (fun value pools => done value pools ∧ done' value pools)
      (fun error pools => refused error pools ∧ refused' error pools)
      stopped := by
  cases outcome with
  | done value pools => exact ⟨contract, other⟩
  | failed error pools => exact ⟨contract, other⟩
  | stopped stop => exact contract

/-- An operation that is never refused may be said to be refused for any
reason. -/
theorem neverRefused
    (contract : outcome.Satisfies done (fun _ _ => False) stopped) :
    outcome.Satisfies done refused stopped :=
  contract.monoRefused (fun _ _ impossible => impossible.elim)

theorem trivially :
    outcome.Satisfies (fun _ _ => True) (fun _ _ => True)
      (fun _ => True) := by
  cases outcome <;> trivial

/-- Nothing more can be known of an operation than how it ended. -/
theorem exactly :
    outcome.Satisfies (fun value pools => outcome = .done value pools)
      (fun error pools => outcome = .failed error pools)
      (fun stop => outcome = .stopped stop) := by
  cases outcome <;> rfl

theorem of_done (contract : outcome.Satisfies done refused stopped)
    {value : α} (isDone : outcome = .done value pools) :
    done value pools := by
  rw [isDone] at contract
  exact contract

theorem of_failed (contract : outcome.Satisfies done refused stopped)
    {error : BufferError} (isFailed : outcome = .failed error pools) :
    refused error pools := by
  rw [isFailed] at contract
  exact contract

/-- An operation that can neither be refused nor stop the run is done. -/
theorem exists_done
    (contract : outcome.Satisfies done (fun _ _ => False) (fun _ => False)) :
    ∃ value pools, outcome = .done value pools ∧ done value pools := by
  cases outcome with
  | done value pools => exact ⟨value, pools, rfl, contract⟩
  | failed error pools => exact contract.elim
  | stopped stop => exact contract.elim

/-- An operation that can neither be done nor stop the run is refused. -/
theorem exists_failed
    (contract : outcome.Satisfies (fun _ _ => False) refused
      (fun _ => False)) :
    ∃ error pools, outcome = .failed error pools ∧ refused error pools := by
  cases outcome with
  | done value pools => exact contract.elim
  | failed error pools => exact ⟨error, pools, rfl, contract⟩
  | stopped stop => exact contract.elim

/-! ## The ways to put operations together -/

variable {operation : Operation α} {next : α → Operation β}
variable {doneNext : β → Pools → Prop}

theorem bind {middle : α → Pools → Prop}
    (first : (operation pools).Satisfies middle refused stopped)
    (second : ∀ value pools, middle value pools →
      (next value pools).Satisfies doneNext refused stopped) :
    ((operation >>= next) pools).Satisfies doneNext refused stopped := by
  change Outcome.Satisfies
    (match operation pools with
      | .done value pools => next value pools
      | .failed error pools => .failed error pools
      | .stopped stop => .stopped stop) doneNext refused stopped
  cases ending : operation pools with
  | done value after =>
      rw [ending] at first
      exact second value after first
  | failed error after =>
      rw [ending] at first
      exact first
  | stopped stop =>
      rw [ending] at first
      exact first

theorem pure {value : α} (holds : done value pools) :
    ((Pure.pure value : Operation α) pools).Satisfies done refused stopped :=
  holds

theorem fail {error : BufferError} (holds : refused error pools) :
    ((Operation.fail error : Operation α) pools).Satisfies
      done refused stopped :=
  holds

theorem halt {stop : Stop} (holds : stopped stop) :
    ((Operation.halt stop : Operation α) pools).Satisfies
      done refused stopped :=
  holds

/-- A value that may be an error goes on only if it is none. -/
theorem ofExcept {result : Except BufferError α}
    (isError : ∀ error, result = .error error → refused error pools)
    (goesOn : ∀ value, result = .ok value →
      (next value pools).Satisfies doneNext refused stopped) :
    ((Operation.ofExcept result >>= next) pools).Satisfies
      doneNext refused stopped := by
  cases result with
  | error error => exact isError error rfl
  | ok value => exact goesOn value rfl

theorem readPool {id : PoolId} {next : Pool → Operation α}
    (goesOn : (next (pools.get id) pools).Satisfies done refused stopped) :
    ((Operation.readPool id >>= next) pools).Satisfies
      done refused stopped :=
  goesOn

theorem namesakes {id : PoolId} {next : (PoolId → Bool) → Operation α}
    (goesOn : (next (fun other => pools.sameNumber other id) pools).Satisfies
      done refused stopped) :
    ((Operation.namesakes id >>= next) pools).Satisfies
      done refused stopped :=
  goesOn

/-- Where each pool has a number of its own, a pool is its only namesake. -/
theorem namesakes_of_distinct {id : PoolId}
    {next : (PoolId → Bool) → Operation α} (distinct : pools.Distinct)
    (goesOn : (next (fun other => other == id) pools).Satisfies
      done refused stopped) :
    ((Operation.namesakes id >>= next) pools).Satisfies
      done refused stopped := by
  apply namesakes
  simp only [distinct.sameNumber_eq]
  exact goesOn

theorem ite {condition : Prop} [Decidable condition]
    {yes no : Operation α}
    (ifTrue : condition → (yes pools).Satisfies done refused stopped)
    (ifFalse : ¬condition → (no pools).Satisfies done refused stopped) :
    ((if condition then yes else no) pools).Satisfies
      done refused stopped := by
  by_cases holds : condition
  · rw [if_pos holds]
    exact ifTrue holds
  · rw [if_neg holds]
    exact ifFalse holds

/-- An attempt is never refused: its value says what came of it. -/
theorem attempt (contract : (operation pools).Satisfies done refused stopped) :
    (Operation.attempt operation pools).Satisfies
      (fun result pools =>
        match result with
        | .ok value => done value pools
        | .error error => refused error pools)
      (fun _ _ => False) stopped := by
  unfold Operation.attempt
  cases ending : operation pools with
  | done value after =>
      rw [ending] at contract
      exact contract
  | failed error after =>
      rw [ending] at contract
      exact contract
  | stopped stop =>
      rw [ending] at contract
      exact contract

/-- What is done after a refusal comes before the refusal is passed on. -/
theorem onFailure {cleanup : Operation PUnit}
    (contract : (operation pools).Satisfies done refused stopped)
    (cleaned : ∀ error pools, refused error pools →
      (cleanup pools).Satisfies (fun _ pools => refused' error pools)
        (fun _ pools => refused' error pools) stopped) :
    (Operation.onFailure operation cleanup pools).Satisfies
      done refused' stopped := by
  unfold Operation.onFailure
  cases ending : operation pools with
  | done value after =>
      rw [ending] at contract
      exact contract
  | failed error after =>
      rw [ending] at contract
      have afterwards := cleaned error after contract
      dsimp only
      cases cleaning : cleanup after with
      | done value cleaned =>
          rw [cleaning] at afterwards
          exact afterwards
      | failed again cleaned =>
          rw [cleaning] at afterwards
          exact afterwards
      | stopped stop =>
          rw [cleaning] at afterwards
          exact afterwards
  | stopped stop =>
      rw [ending] at contract
      exact contract

/-- With packets in hand a stop may turn into a collapse, but only if one of
them holds a segment of another pool. -/
theorem holding {packets : List Packet}
    (contract : (operation pools).Satisfies done refused stopped)
    (collapses : ∀ stop, stopped stop →
      packets.any pools.findsForeign = true → stopped .collapse) :
    (Operation.holding packets operation pools).Satisfies
      done refused stopped := by
  unfold Operation.holding
  cases ending : operation pools with
  | done value after =>
      rw [ending] at contract
      exact contract
  | failed error after =>
      rw [ending] at contract
      exact contract
  | stopped stop =>
      rw [ending] at contract
      dsimp only
      split
      · rename_i foreign
        simp only [Bool.and_eq_true] at foreign
        exact collapses stop contract foreign.2
      · exact contract

end Outcome.Satisfies

/-! ## What follows a given end -/

namespace Operation

variable {operation : Operation α} {next : α → Operation β}
variable {pools after : Pools}

theorem bind_of_done {value : α}
    (isDone : operation pools = .done value after) :
    (operation >>= next) pools = next value after := by
  change operation.bind next pools = next value after
  rw [Operation.bind, isDone]

theorem bind_of_failed {error : BufferError}
    (isFailed : operation pools = .failed error after) :
    (operation >>= next) pools = .failed error after := by
  change operation.bind next pools = .failed error after
  rw [Operation.bind, isFailed]

/-- What comes next sees nothing of an operation but how it ended. -/
theorem bind_of_same {other : Operation α}
    (same : operation pools = other pools) :
    (operation >>= next) pools = (other >>= next) pools := by
  change operation.bind next pools = other.bind next pools
  rw [Operation.bind, Operation.bind, same]

end Operation

/-- Segments that come back change nothing else about their pool. -/
theorem Pool.takeBack_keeps {same : PoolId → Bool} {id : PoolId}
    {returned : List Returned} {pool restored : Pool}
    (taken : takeBack same id returned pool = .ok restored) :
    restored.config = pool.config ∧ restored.counters = pool.counters := by
  simp only [takeBack, putBack] at taken
  split at taken
  · cases taken
  · split at taken
    · cases taken
    · cases taken
      exact ⟨rfl, rfl⟩

end PooledPackets
