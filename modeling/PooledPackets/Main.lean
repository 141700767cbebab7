import PooledPackets.Load.Program

/-!
# The load program as a command

The only module that touches the outside: it reads the arguments, the file with
the settings and the clock, lets the workers take turns and writes what the
program has to say.
-/

namespace PooledPackets.Load

/-- The workers of a run between two round trips, and what was measured. -/
structure Progress where
  pools : Pools
  /-- The worker whose turn it is comes first. -/
  crew : List (Worker × Traffic)
  metrics : Metrics
  build : Array Nat
  trip : Array Nat

/-- The time of day in microseconds since the start of 1970, taken from a file
that is written for this. -/
def readTimeOfDay : IO Nat := do
  let (handle, path) ← IO.FS.createTempFile
  handle.flush
  let modified := (← path.metadata).modified
  IO.FS.removeFile path
  pure (modified.sec.toNat * 1000000 + modified.nsec.toNat / 1000)

/-- Evaluates an operation on the pools; also says how many nanoseconds that
took. -/
def timed {α : Type} (operation : Operation α) (pools : Pools) :
    IO (Outcome α × Nat) := do
  let start ← IO.monoNanosNow
  let outcome ← IO.lazyPure fun _ => operation pools
  let finish ← IO.monoNanosNow
  pure (outcome, finish - start)

/-- Ends the run because of a broken invariant. -/
def breakOff {α : Type} (stop : Stop) : IO α :=
  match stop with
  | .fault _ violation => throw (IO.userError violation.message)
  | .collapse => throw (IO.userError "violation while giving packets back")
  | .outOfRange => throw (IO.userError "number out of range")

/-- Lets one worker after the other join the crew. -/
def assemble (run : Run) : (count : Nat) → IO Progress
  | 0 => pure ⟨run.pools, [], {}, #[], #[]⟩
  | count + 1 => do
      let progress ← assemble run count
      match Worker.start run.settings.link progress.pools with
      | .done worker pools =>
          let traffic := Traffic.ofWorker run.settings.workload count
          pure { progress with
            pools, crew := progress.crew ++ [(worker, traffic)] }
      | .failed error _ => throw (IO.userError error.message)
      | .stopped stop => breakOff stop

/-- Lets the worker whose turn it is make one round trip. -/
def takeTurn (isMeasured : Bool) (progress : Progress) : IO Progress := do
  match progress.crew with
  | [] => pure progress
  | (worker, traffic) :: others => do
      let now ← IO.monoNanosNow
      let (round, traffic) := traffic.next now
      let (_, build) ←
        timed (Pool.packetFrom worker.link.sender round.payload) progress.pools
      match ← timed (worker.iterate round) progress.pools with
      | (.failed error _, _) => throw (IO.userError error.message)
      | (.stopped stop, _) => breakOff stop
      | (.done (result, worker) pools, trip) =>
          let crew := others ++ [(worker, traffic)]
          if isMeasured then
            pure {
              pools, crew
              metrics := progress.metrics.record round.payload.length result
              build := progress.build.push build
              trip := progress.trip.push trip }
          else pure { progress with pools, crew }

/-- Lets the workers take turns until the clock shows a given reading. -/
partial def takeTurns (isMeasured : Bool) (finish : Nat)
    (progress : Progress) : IO Progress := do
  if finish ≤ (← IO.monoNanosNow) then pure progress
  else takeTurns isMeasured finish (← takeTurn isMeasured progress)

/-- What was measured in a run. -/
def Progress.measurements (progress : Progress) : Measurements where
  metrics := progress.metrics
  build := .ofSorted (progress.build.qsort (· < ·))
  trip := .ofSorted (progress.trip.qsort (· < ·))
  pools := progress.pools

def Run.perform (run : Run) : IO Unit := do
  IO.eprint (run.opening (← readTimeOfDay))
  let schedule := run.settings.schedule
  let start ← IO.monoNanosNow
  let warm ← takeTurns false (start + schedule.firstLook.nanoseconds)
    (← assemble run schedule.threads)
  if schedule.isMeasured then
    IO.eprint (run.measuring (← readTimeOfDay))
    IO.print Report.headings
    let ended ← takeTurns true (start + schedule.finish.nanoseconds) warm
    IO.eprint (run.closing ended.measurements)
  else IO.eprint (run.closing warm.measurements)

/-- The text of a file, or why there is none. -/
def readSettings (path : String) : IO (Except FileError String) := do
  try
    pure (.ok (← IO.FS.readFile path))
  catch
    | .noFileOrDirectory .. => pure (.error .missing)
    | error => pure (.error (.other (toString error)))

/-- Carries out what a plan says; the result is the number that the program
ends with. -/
def Plan.perform : Plan → IO UInt32
  | .refuse error => do
      IO.eprint error.text
      pure 2
  | .help => do
      IO.print helpText
      pure 0
  | .give error => do
      IO.eprint error.text
      pure 1
  | .go run => do
      run.perform
      pure 0

end PooledPackets.Load

open PooledPackets.Load in
def main (arguments : List String) : IO UInt32 := do
  let wish ← IO.getEnv "RUST_LOG"
  let file ← match Request.ofArguments arguments with
    | .ok (.run arguments) => readSettings arguments.config
    | _ => pure (.error .missing)
  (Plan.ofCall arguments (fun _ => file) wish).perform
