import PooledPackets.Error
import PooledPackets.Packet
import PooledPackets.Pool

/-!
# Operations on the pools

An operation changes the pools of a run and ends in one of three ways: it is
done and has a value, it is refused with an error that the caller can act on,
or the run stops because an invariant was broken. A refused operation may have
changed the pools; of a stopped one nothing is left to go on with.
-/

namespace PooledPackets

universe u

/-- Whether some segment of a packet belongs to a pool with another number than
the packet's. -/
def Pools.findsForeign (pools : Pools) (packet : Packet) : Bool :=
  packet.chain.any fun segment => !pools.sameNumber segment.pool packet.pool

/-- How an operation ends. -/
inductive Outcome (α : Type u) : Type u where
  | done (value : α) (pools : Pools)
  | failed (error : BufferError) (pools : Pools)
  | stopped (stop : Stop)

/-- An operation on the pools of a run. -/
def Operation (α : Type u) : Type u :=
  Pools → Outcome α

namespace Operation

variable {α β : Type u}

def run (operation : Operation α) (pools : Pools) : Outcome α :=
  operation pools

/-- Does nothing and has the given value. -/
protected def pure (value : α) : Operation α :=
  fun pools => .done value pools

/-- Goes on with the value of the first operation, if it is done. -/
protected def bind (first : Operation α) (next : α → Operation β) :
    Operation β := fun pools =>
  match first pools with
  | .done value pools => next value pools
  | .failed error pools => .failed error pools
  | .stopped stop => .stopped stop

instance : Monad Operation where
  pure := Operation.pure
  bind := Operation.bind

def fail (error : BufferError) : Operation α :=
  fun pools => .failed error pools

def halt (stop : Stop) : Operation α :=
  fun _ => .stopped stop

/-- Is done or refused as a value says. -/
def ofExcept : Except BufferError α → Operation α
  | .ok value => .pure value
  | .error error => fail error

/-- Runs an operation and turns a refusal into a value. -/
def attempt (operation : Operation α) : Operation (Except BufferError α) :=
  fun pools =>
    match operation pools with
    | .done value pools => .done (.ok value) pools
    | .failed error pools => .done (.error error) pools
    | .stopped stop => .stopped stop

/-- Runs an operation; if it is refused, runs another one before the refusal
is passed on. -/
def onFailure (operation : Operation α) (cleanup : Operation PUnit) :
    Operation α := fun pools =>
  match operation pools with
  | .done value pools => .done value pools
  | .failed error pools =>
      match cleanup pools with
      | .done _ pools => .failed error pools
      | .failed _ pools => .failed error pools
      | .stopped stop => .stopped stop
  | .stopped stop => .stopped stop

/-- Runs an operation while packets are in hand. If it stops the run, the
packets in hand are given back on the way out; when one of them holds a
segment of a pool with another number this raises a second violation. As long
as no two pools have the same number, nothing else does. -/
def holding (packets : List Packet) (operation : Operation α) :
    Operation α := fun pools =>
  match operation pools with
  | .done value pools => .done value pools
  | .failed error pools => .failed error pools
  | .stopped stop =>
      if stop.givesBack && packets.any pools.findsForeign then
        .stopped .collapse
      else .stopped stop

/-! ## Reading and changing one pool -/

/-- The pool in a place. -/
def readPool (id : PoolId) : Operation Pool :=
  fun pools => .done (pools.get id) pools

/-- Which pools have the number of a given one. -/
def namesakes (id : PoolId) : Operation (PoolId → Bool) :=
  fun pools => .done (fun other => pools.sameNumber other id) pools

/-- Changes the pool in a place. -/
def changePool (id : PoolId) (change : Pool → Pool) : Operation PUnit :=
  fun pools => .done ⟨⟩ (pools.set id (change (pools.get id)))

/-- Changes the counters of a pool. -/
def count (id : PoolId) (change : Counters → Counters) : Operation PUnit :=
  changePool id (fun pool => pool.count change)

/-- Stops the run because of a violation found by a pool. -/
def violated (id : PoolId) (violation : Violation) : Operation α :=
  fun pools => .stopped (.fault (pools.get id).config.faultPolicy violation)

end Operation

/-! ## Segments leaving and coming back -/

namespace Pool

open Operation

/-- Takes exactly so many segments from a pool, or none. -/
def checkOut (id : PoolId) (count : Nat) : Operation (List Segment) := do
  let pool ← readPool id
  if pool.freeCount < count then
    Operation.count id fun counters =>
      { counters with emptyRequests := counters.emptyRequests + 1 }
    fail (.poolExhausted count pool.freeCount)
  else
    let (segments, rest) := pool.take count
    changePool id fun _ => rest
    pure segments

/-- Gives segments back to a pool. -/
def checkIn (id : PoolId) (returned : List Returned) : Operation PUnit := do
  let same ← namesakes id
  let pool ← readPool id
  match Pool.takeBack same id returned pool with
  | .error violation => violated id violation
  | .ok restored => changePool id fun _ => restored

end Pool

end PooledPackets
