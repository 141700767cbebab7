import PooledPackets.Load.Worker

/-!
# Traffic

The datagrams of a load run. Each worker has its own bytes, drawn once; a
datagram is a stretch from their start. Lengths and orders of arrival are drawn
for each round trip.
-/

namespace PooledPackets.Load

/-- A source of numbers without a visible pattern. -/
structure Generator where
  state : UInt64
  deriving DecidableEq, Repr

namespace Generator

/-- What the source of a worker starts from. -/
def seed (number : Nat) : Nat :=
  42 + number

def ofWorker (number : Nat) : Generator :=
  ⟨.ofNat (seed number)⟩

/-- A number below 2^32 and the source after it. -/
def next (generator : Generator) : Nat × Generator :=
  let state := 6364136223846793005 * generator.state + 1442695040888963407
  ((state >>> 32).toNat, ⟨state⟩)

def draw (generator : Generator) : (count : Nat) → List Nat × Generator
  | 0 => ([], generator)
  | count + 1 =>
      let (number, generator) := generator.next
      let (numbers, generator) := generator.draw count
      (number :: numbers, generator)

def between (generator : Generator) (least greatest : Nat) :
    Nat × Generator :=
  let (number, generator) := generator.next
  (least + number % (greatest - least + 1), generator)

end Generator

/-- The datagrams of one worker, still to come. -/
structure Traffic where
  workload : Workload
  /-- The bytes that all datagrams are cut from. -/
  bytes : Bytes
  generator : Generator

namespace Traffic

def ofWorker (workload : Workload) (number : Nat) : Traffic :=
  let (numbers, generator) :=
    (Generator.ofWorker number).draw workload.payload.greatest
  { workload, bytes := numbers.map .ofNat, generator }

/-- The most choices that an order of arrival of a datagram needs. -/
def choiceCount (workload : Workload) (len : Nat) : Nat :=
  if workload.shuffle then len else 0

/-- The next datagram, with a given clock reading. -/
def next (traffic : Traffic) (now : Nat) : Round × Traffic :=
  let range := traffic.workload.payload
  let (len, generator) := traffic.generator.between range.least range.greatest
  let (choices, generator) :=
    generator.draw (choiceCount traffic.workload len)
  let round : Round :=
    { payload := traffic.bytes.take len, now, choices }
  (round, { traffic with generator })

/-- The next datagrams, each one nanosecond after the one before. -/
def rounds (traffic : Traffic) (now : Nat) : (count : Nat) → List Round
  | 0 => []
  | count + 1 =>
      let (round, traffic) := traffic.next now
      round :: traffic.rounds (now + 1) count

end Traffic

namespace Settings

def senderId : PoolId := 0

def receiverId : PoolId := 1

/-- The link that the workers use. -/
def link (settings : Settings) : Link where
  sender := senderId
  receiver := receiverId
  mtu := settings.workload.mtu
  frames := settings.workload.linkFrames

/-- A pool with a configuration. -/
def makePool (id : PoolId) (config : Config) : Except SettingsError Pool := do
  match Pool.create? id config (← layoutOf config) with
  | none => throw .overflow
  | some pool => pure pool

/-- Both pools before the first round trip. -/
def makePools (settings : Settings) : Except SettingsError Pools := do
  let sender ← makePool senderId settings.pool
  let receiver ← makePool receiverId settings.receiverConfig
  pure ((default : Pools).add senderId 0 sender |>.add receiverId 1 receiver)

/-- Whether a worker can have its bytes and its source of numbers. -/
def canStart (settings : Settings) (number : Nat) : Bool :=
  decide (settings.workload.payload.greatest ≤ Bytes.maxSize) &&
    (Config.word? (Generator.seed number)).isSome

/-- Lets a worker make so many round trips. The first `warmup` of them are not
counted. -/
def runWorker (settings : Settings) (number count warmup : Nat) :
    Operation Metrics :=
  if settings.canStart number then
    let traffic := Traffic.ofWorker settings.workload number
    Worker.run settings.link warmup (traffic.rounds 0 count) []
  else .halt .outOfRange

end Settings

end PooledPackets.Load
