import Mathlib.Algebra.BigOperators.Group.List.Basic
import Mathlib.Algebra.Group.Int.Defs
import Mathlib.Algebra.Group.Pi.Basic
import Mathlib.Tactic.Abel
import PooledPackets.Proofs.Contracts

/-!
# The books of the pools

A pool counts the packets that it makes and those that it gets back, and seven
kinds of events. Its counters are read here as one book with a line for the
packets that are still out and one for each kind of event, so that what
happens can be added up: packets that live and events that are noted are sums
of entries.
-/

namespace PooledPackets

/-! ## Events -/

/-- What a pool counts besides packets. -/
inductive Event where
  /-- A request found too few free segments. -/
  | exhausted
  /-- A request needed several segments where chaining is off. -/
  | oversized
  | doubleRelease
  /-- A fragment was made. -/
  | fragment
  /-- A datagram was delivered. -/
  | delivered
  /-- A datagram was not complete in time. -/
  | timeout
  | overlap
  deriving DecidableEq, Repr

/-- How often an event was counted. -/
def Counters.tally (counters : Counters) : Event → Nat
  | .exhausted => counters.emptyRequests
  | .oversized => counters.oversized
  | .doubleRelease => counters.invalidReleases
  | .fragment => counters.fragments
  | .delivered => counters.reassembled
  | .timeout => counters.reassemblyTimeouts
  | .overlap => counters.overlaps

/-- The counters after one more event. -/
def Event.counted : Event → Counters → Counters
  | .exhausted, counters =>
      { counters with emptyRequests := counters.emptyRequests + 1 }
  | .oversized, counters =>
      { counters with oversized := counters.oversized + 1 }
  | .doubleRelease, counters =>
      { counters with invalidReleases := counters.invalidReleases + 1 }
  | .fragment, counters =>
      { counters with fragments := counters.fragments + 1 }
  | .delivered, counters =>
      { counters with reassembled := counters.reassembled + 1 }
  | .timeout, counters =>
      { counters with reassemblyTimeouts := counters.reassemblyTimeouts + 1 }
  | .overlap, counters =>
      { counters with overlaps := counters.overlaps + 1 }

/-- What there is to note of a run. -/
inductive Note where
  | event (event : Event)
  /-- So many packets were linked into one, and only one of them is left to be
  given back. -/
  | joined (packets : Nat)
  deriving DecidableEq, Repr

/-- What a refusal has to be noted as. -/
def BufferError.notes : BufferError → List Note
  | .poolExhausted .. => [.event .exhausted]
  | .oversizedPacket .. => [.event .oversized]
  | .doubleRelease => [.event .doubleRelease]
  | .reassemblyTimeout .. => [.event .timeout]
  | .overlap .. => [.event .overlap]
  | _ => []

/-! ## Books -/

/-- What a line of a book is about. -/
inductive Line where
  /-- The packets made and not given back. -/
  | packets
  | tally (event : Event)
  deriving DecidableEq

/-- A line of the book that the counters of a pool are. -/
def Counters.reading (counters : Counters) : Line → Int
  | .packets => counters.allocations - counters.releases
  | .tally event => counters.tally event

/-- The books of all pools, by line. -/
abbrev Books := PoolId → Line → Int

namespace Books

/-- One thing on one line. -/
def entry (id : PoolId) (line : Line) : Books :=
  fun pool other => if pool = id ∧ other = line then 1 else 0

theorem entry_here (id : PoolId) (line other : Line) :
    entry id line id other = if other = line then 1 else 0 := by
  simp [entry]

theorem entry_elsewhere {id other : PoolId} (line : Line)
    (different : other ≠ id) : entry id line other = 0 := by
  funext another
  simp [entry, different]

/-- A packet that was not released is still out. -/
def lives (packet : Packet) : Books :=
  if packet.isReleased then 0 else entry packet.pool .packets

def alive (packets : List Packet) : Books :=
  (packets.map lives).sum

/-- What a note of a pool adds to its book. -/
def noted (id : PoolId) : Note → Books
  | .event event => entry id (.tally event)
  | .joined packets => packets • entry id .packets - entry id .packets

def allNoted (id : PoolId) (notes : List Note) : Books :=
  (notes.map (noted id)).sum

@[simp]
theorem alive_nil : alive [] = 0 := rfl

@[simp]
theorem alive_cons (packet : Packet) (packets : List Packet) :
    alive (packet :: packets) = lives packet + alive packets := by
  simp [alive]

@[simp]
theorem alive_append (packets others : List Packet) :
    alive (packets ++ others) = alive packets + alive others := by
  simp [alive]

theorem alive_perm {packets others : List Packet}
    (same : packets.Perm others) : alive packets = alive others :=
  (same.map lives).sum_eq

@[simp]
theorem allNoted_nil (id : PoolId) : allNoted id [] = 0 := rfl

@[simp]
theorem allNoted_cons (id : PoolId) (note : Note) (notes : List Note) :
    allNoted id (note :: notes) = noted id note + allNoted id notes := by
  simp [allNoted]

@[simp]
theorem allNoted_append (id : PoolId) (notes others : List Note) :
    allNoted id (notes ++ others) = allNoted id notes + allNoted id others := by
  simp [allNoted]

theorem lives_of_released {packet : Packet}
    (released : packet.isReleased = true) : lives packet = 0 := by
  rw [lives, if_pos released]

theorem lives_of_held {packet : Packet} {id : PoolId}
    (held : packet.isReleased = false) (own : packet.pool = id) :
    lives packet = entry id .packets := by
  rw [lives, held, own]
  rfl

/-- Packets of one pool that were not released. -/
theorem alive_of_held {id : PoolId} {packets : List Packet}
    (held : ∀ packet ∈ packets, packet.isReleased = false)
    (own : ∀ packet ∈ packets, packet.pool = id) :
    alive packets = packets.length • entry id .packets := by
  have each : ∀ books ∈ packets.map lives, books = entry id .packets := by
    intro books member
    obtain ⟨packet, isPacket, rfl⟩ := List.mem_map.mp member
    exact lives_of_held (held packet isPacket) (own packet isPacket)
  rw [alive, List.sum_eq_card_nsmul _ _ each, List.length_map]

end Books

open Books

/-! ## What the pools have on their books -/

/-- The pools have numbers of their own and their configurations from the start,
and their counters come to what the books say. -/
structure Pools.Booked (pools origin : Pools) (books : Books) : Prop where
  distinct : pools.Distinct
  config_eq : ∀ id, (pools.get id).config = (origin.get id).config
  reading_eq : ∀ id line, (pools.get id).counters.reading line =
    books id line

namespace Pools.Booked

variable {pools origin : Pools} {books books' : Books} {id : PoolId}

theorem of_eq (booked : pools.Booked origin books) (same : books = books') :
    pools.Booked origin books' :=
  same ▸ booked

/-- A change that leaves the counters of a pool alone. -/
theorem set (booked : pools.Booked origin books) {pool : Pool}
    (sameConfig : pool.config = (pools.get id).config)
    (sameCounters : pool.counters = (pools.get id).counters) :
    (pools.set id pool).Booked origin books where
  distinct := booked.distinct
  config_eq := fun sought => by
    rw [get_set]
    by_cases isChanged : sought = id
    · rw [if_pos isChanged, sameConfig, isChanged, booked.config_eq]
    · rw [if_neg isChanged, booked.config_eq]
  reading_eq := fun sought line => by
    rw [get_set]
    by_cases isChanged : sought = id
    · rw [if_pos isChanged, sameCounters, isChanged, booked.reading_eq]
    · rw [if_neg isChanged, booked.reading_eq]

/-- A change of the counters of a pool that adds to its book only. -/
theorem count (booked : pools.Booked origin books)
    {change : Counters → Counters} {gain : Books}
    (here : ∀ counters line, (change counters).reading line =
      counters.reading line + gain id line)
    (elsewhere : ∀ other, other ≠ id → gain other = 0) :
    (pools.set id ((pools.get id).count change)).Booked origin
      (books + gain) where
  distinct := booked.distinct
  config_eq := fun sought => by
    rw [get_set]
    by_cases isChanged : sought = id
    · rw [if_pos isChanged, isChanged, ← booked.config_eq]
      rfl
    · rw [if_neg isChanged, booked.config_eq]
  reading_eq := fun sought line => by
    rw [get_set, Pi.add_apply, Pi.add_apply]
    by_cases isChanged : sought = id
    · rw [if_pos isChanged, isChanged, ← booked.reading_eq]
      exact here _ line
    · rw [if_neg isChanged, booked.reading_eq, elsewhere sought isChanged,
        Pi.zero_apply, add_zero]


variable {refused : BufferError → Pools → Prop} {stopped : Stop → Prop}

/-- An event that is counted is noted. -/
theorem countEvent_satisfies (booked : pools.Booked origin books) (id : PoolId)
    (event : Event) :
    (Operation.count id event.counted pools).Satisfies
      (fun _ after => after.Booked origin (books + noted id (.event event)))
      refused stopped := by
  apply booked.count
  · intro counters line
    rw [noted, entry_here]
    cases line with
    | packets => cases event <;> simp [Counters.reading, Event.counted]
    | tally other =>
        cases event <;> cases other <;>
          simp [Counters.reading, Counters.tally, Event.counted]
  · exact fun other different => entry_elsewhere _ different

/-- Some more packets are out, or some fewer, and nothing else is counted. -/
theorem countPackets (booked : pools.Booked origin books)
    {change : Counters → Counters} {more : Int}
    (packets : ∀ counters, (change counters).reading .packets =
      counters.reading .packets + more)
    (tallies : ∀ counters, (change counters).tally = counters.tally) :
    (pools.set id ((pools.get id).count change)).Booked origin
      (books + more • entry id .packets) := by
  apply booked.count
  · intro counters line
    rw [Pi.smul_apply, Pi.smul_apply, entry_here]
    cases line with
    | packets => simpa using packets counters
    | tally event => simp [Counters.reading, tallies counters]
  · intro other different
    rw [Pi.smul_apply, entry_elsewhere _ different, zsmul_zero]

theorem countAllocation_satisfies (booked : pools.Booked origin books)
    (id : PoolId) :
    (Operation.count id (fun counters =>
        { counters with allocations := counters.allocations + 1 })
      pools).Satisfies
        (fun _ after => after.Booked origin (books + entry id .packets))
        refused stopped := by
  rw [← one_zsmul (entry id .packets)]
  apply booked.countPackets
  · intro counters
    simp only [Counters.reading]
    omega
  · exact fun counters => funext fun event => by cases event <;> rfl

theorem countRelease_satisfies (booked : pools.Booked origin books)
    (id : PoolId) :
    (Operation.count id (fun counters =>
        { counters with releases := counters.releases + 1 })
      pools).Satisfies
        (fun _ after => after.Booked origin (books - entry id .packets))
        refused stopped := by
  rw [sub_eq_add_neg, ← neg_one_zsmul (entry id .packets)]
  apply booked.countPackets
  · intro counters
    simp only [Counters.reading]
    omega
  · exact fun counters => funext fun event => by cases event <;> rfl

end Pools.Booked

end PooledPackets
