import PooledPackets.Arrangement
import PooledPackets.Reassembly.Join

/-!
# Reassembly

A reassembler holds the fragments of several datagrams at once. A datagram
must be complete before its deadline, which is set by its first fragment. A
fragment that does not fit its datagram makes the whole datagram be given up;
other datagrams are not affected.
-/

namespace PooledPackets

open Operation

/-- The incomplete datagrams of one receiver. -/
structure Reassembler where
  /-- The pool that datagrams are joined in. -/
  pool : PoolId
  limits : ReassemblyLimits
  /-- The incomplete datagrams by number. -/
  pending : Table Assembly

namespace Reassembler

/-- A reassembler for a pool, with the limits from the pool's configuration. -/
def forPool (id : PoolId) : Operation Reassembler := do
  let pool ← readPool id
  pure ⟨id, pool.config.reassembly, .empty⟩

def inFlight (reassembler : Reassembler) : Nat :=
  reassembler.pending.size

/-- The number of fragments held for a datagram. -/
def held (reassembler : Reassembler) (datagram : Nat) : Nat :=
  match reassembler.pending.get? datagram with
  | none => 0
  | some assembly => assembly.held.size

/-- The earliest deadline of an incomplete datagram. -/
def nextDeadline? (reassembler : Reassembler) : Option Nat :=
  (reassembler.pending.values.map Assembly.deadline).min?

def text (reassembler : Reassembler) : String :=
  Text.record "Reassembler"
    [("pool", toString reassembler.pool),
      ("in_flight", toString reassembler.inFlight)]

/-- All held fragments, by datagram and offset. -/
def fragments (reassembler : Reassembler) : List Packet :=
  reassembler.pending.values.flatMap Assembly.fragments

def without (reassembler : Reassembler) (datagram : Nat) : Reassembler :=
  { reassembler with pending := reassembler.pending.erase datagram }

/-- Puts a datagram in its place. -/
def having (reassembler : Reassembler) (datagram : Nat)
    (assembly : Assembly) : Reassembler :=
  { reassembler with pending := reassembler.pending.insert datagram assembly }

def countTimeout (id : PoolId) : Operation PUnit :=
  Operation.count id fun counters =>
    { counters with reassemblyTimeouts := counters.reassemblyTimeouts + 1 }

/-! ## Dropping datagrams -/

/-- Drops datagrams that are late, one after the other, and counts them. -/
def dropLate (pool : PoolId) : List Assembly → Operation PUnit
  | [] => pure ⟨⟩
  | assembly :: rest => do
      Packet.dropAll assembly.fragments
      countTimeout pool
      dropLate pool rest

/-- Drops every datagram whose deadline has come. The result names them in
ascending order. -/
def expire (reassembler : Reassembler) (now : Nat) :
    Operation (List Nat × Reassembler) := do
  let late := reassembler.pending.filter
    fun _ assembly => decide (assembly.deadline ≤ now)
  dropLate reassembler.pool late.values
  let pending := reassembler.pending.filter
    fun _ assembly => !decide (assembly.deadline ≤ now)
  pure (late.keys, { reassembler with pending })

def dropDatagrams : List Assembly → Operation PUnit
  | [] => pure ⟨⟩
  | assembly :: rest => do
      Packet.dropAll assembly.fragments
      dropDatagrams rest

/-- Drops all datagrams. They are kept in a hash table, so choices give the
order. -/
def clear (reassembler : Reassembler) (choices : List Nat) :
    Operation Reassembler := do
  dropDatagrams (arrange choices reassembler.pending.values)
  pure { reassembler with pending := .empty }

/-- In whatever order datagrams are dropped, it is all fragments. -/
theorem fragments_arrange_perm (reassembler : Reassembler)
    (choices : List Nat) :
    ((arrange choices reassembler.pending.values).flatMap
      Assembly.fragments).Perm reassembler.fragments :=
  (arrange_perm choices _).flatMap_right _

/-! ## Accepting fragments -/

/-- What a fragment leads to: a refusal, nothing yet or the whole datagram; and
the reassembler afterwards. -/
abbrev Acceptance := Except BufferError (Option Packet) × Reassembler

/-- Makes room for a new datagram in a full reassembler by dropping the late
ones, while a fragment is in hand. -/
def makeRoom (reassembler : Reassembler) (datagram : Nat) (fragment : Packet)
    (now : Nat) : Operation Reassembler := do
  if !reassembler.pending.contains datagram &&
      decide (reassembler.limits.maxDatagrams ≤ reassembler.inFlight) then
    let (_, reassembler) ← holding [fragment] (reassembler.expire now)
    pure reassembler
  else pure reassembler

/-- The packets that the owner of a reassembler has in hand, besides the
fragment that it hands over, while a reassembler is in some state. -/
abbrev Hand := Reassembler → List Packet

/-- Gives a datagram up because of a fragment that does not fit it. The
fragment is dropped first, then the fragments held. -/
def giveUp (reassembler : Reassembler) (hand : Hand) (assembly : Assembly)
    (tag : FragmentTag) (fragment : Packet) (error : BufferError) :
    Operation Acceptance := do
  holding (hand reassembler) fragment.drop
  let reassembler := reassembler.without tag.datagram.toNat
  holding (hand reassembler) (Packet.dropAll assembly.fragments)
  match error with
  | .overlap .. =>
      Operation.count reassembler.pool fun counters =>
        { counters with overlaps := counters.overlaps + 1 }
  | _ => pure ⟨⟩
  pure (.error error, reassembler)

/-- Adds a fragment to its datagram and joins the datagram if it is complete
now. -/
def add (reassembler : Reassembler) (hand : Hand) (assembly : Assembly)
    (tag : FragmentTag) (fragment : Packet) : Operation Acceptance := do
  match assembly.insert tag fragment reassembler.limits.holdLimit with
  | .error error => reassembler.giveUp hand assembly tag fragment error
  | .ok longer =>
      if longer.isComplete then
        let reassembler := reassembler.without tag.datagram.toNat
        let result ← holding (hand reassembler)
          (attempt (Reassembly.join reassembler.pool longer))
        pure (result.map some, reassembler)
      else pure (.ok none, reassembler.having tag.datagram.toNat longer)

/-- Accepts a fragment that arrived at `now`. If its datagram is new, the
datagram gets the given deadline. -/
def pushUntil (reassembler : Reassembler) (hand : Hand) (fragment : Packet)
    (now deadline : Nat) : Operation Acceptance := do
  match fragment.tag with
  | none =>
      holding (hand reassembler) fragment.drop
      pure (.error .notAFragment, reassembler)
  | some tag =>
      let datagram := tag.datagram.toNat
      let reassembler ← reassembler.makeRoom datagram fragment now
      match reassembler.pending.get? datagram with
      | some assembly =>
          if assembly.deadline ≤ now then
            let reassembler := reassembler.without datagram
            holding (fragment :: hand reassembler)
              (Packet.dropAll assembly.fragments)
            countTimeout reassembler.pool
            holding (hand reassembler) fragment.drop
            pure (.error (.reassemblyTimeout tag.datagram), reassembler)
          else reassembler.add hand assembly tag fragment
      | none =>
          if reassembler.limits.maxDatagrams ≤ reassembler.inFlight then
            holding (hand reassembler) fragment.drop
            pure (.error (.tooManyDatagrams reassembler.limits.maxDatagrams),
              reassembler)
          else reassembler.add hand (.begun deadline) tag fragment

/-- Accepts a fragment that arrived at `now`. A new datagram may stay
incomplete for as long as the configuration says. What the reassembler holds
stays with it whatever happens. -/
def push (reassembler : Reassembler) (fragment : Packet) (now : Nat) :
    Operation Acceptance :=
  match reassembler.limits.timeout.after? now with
  | none => holding [fragment] (halt .outOfRange)
  | some deadline =>
      reassembler.pushUntil (fun _ => []) fragment now deadline

end Reassembler

/-! ## Reassembling one datagram -/

namespace Pool

/-- Drops what a reassembly leaves behind: fragments not yet looked at, then
the fragments held, whose order choices give. -/
def dropLeftovers (reassembler : Reassembler) (rest : List Packet)
    (choices : List Nat) : Operation PUnit := do
  holding reassembler.fragments (Packet.dropAll rest)
  let _ ← reassembler.clear choices
  pure ⟨⟩

/-- Ends a reassembly that came to nothing. -/
def abandon {α : Type} (reassembler : Reassembler) (rest : List Packet)
    (choices : List Nat) (error : BufferError) : Operation α := do
  dropLeftovers reassembler rest choices
  fail error

/-- Goes on with the reassembly of one datagram; `latest` is the number of the
datagram seen last. A packet that is complete has left the hand when the
leftovers are dropped. -/
def reassembleFrom (reassembler : Reassembler) (deadline : Nat)
    (choices : List Nat) :
    (latest : UInt32) → List (Nat × Packet) → Operation Packet
  | latest, [] => do
      Reassembler.countTimeout reassembler.pool
      abandon reassembler [] choices (.reassemblyTimeout latest)
  | latest, (now, fragment) :: later => do
      let rest := later.map Prod.snd
      let latest := match fragment.tag with
        | none => latest
        | some tag => tag.datagram
      if deadline ≤ now then
        Reassembler.countTimeout reassembler.pool
        abandon reassembler (fragment :: rest) choices
          (.reassemblyTimeout latest)
      else
        let hand (reassembler : Reassembler) : List Packet :=
          rest ++ reassembler.fragments
        match ← reassembler.pushUntil hand fragment now deadline with
        | (.error error, reassembler) =>
            abandon reassembler rest choices error
        | (.ok none, reassembler) =>
            reassembleFrom reassembler deadline choices latest later
        | (.ok (some packet), reassembler) =>
            dropLeftovers reassembler rest choices
            pure packet

/-- Reassembles one datagram from fragments in the order of their arrival, each
with its clock reading. What is left of them when the datagram is complete is
dropped. If the deadline comes or the fragments end before, that is a
timeout. Choices give the order in which datagrams are dropped. -/
def reassemble (id : PoolId) (arrivals : List (Nat × Packet))
    (deadline : Nat) (choices : List Nat) : Operation Packet := do
  let reassembler ← Reassembler.forPool id
  reassembleFrom reassembler deadline choices 0 arrivals

end Pool

end PooledPackets
